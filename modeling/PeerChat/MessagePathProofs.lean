import PeerChat.RoutingProofs
import PeerChat.AtLeastOnceProofs

/-! # The ways into a queue, and what a step does on each

    A connection is registered before its backlog is drained, so the drain and every
    `hub.Send` that finds the client meanwhile feed the same queue, and so does the
    goroutine of the subscription.

    `InTurn` is the condition on a run: when a frame is put on the queue, nothing older
    of the sender is on its way by another path.  What is on its way by which path,
    and what one step does to it, is said here once. -/

namespace PeerSenderOrder

open PeerEnv KeyedTable BufferedChan PeerHub PeerRouter PeerStore PeerFrame PeerWorld PeerHandler
open PeerServer Transition ThreadPool

/-- When the message of `a` that the frame carries was created. -/
def stamp (a : UUID) : Frame → Option Nat
  | .message _ fromID _ _ timestamp => if fromID = a then some timestamp else none
  | _ => none

/-- The message of `a` in `f` is not younger than the one in `g`. -/
def Precedes (a : UUID) (f g : Frame) : Prop := ∀ x ∈ stamp a f, ∀ y ∈ stamp a g, x ≤ y

instance (a : UUID) (f g : Frame) : Decidable (Precedes a f g) :=
  inferInstanceAs (Decidable (∀ x ∈ stamp a f, ∀ y ∈ stamp a g, x ≤ y))

/-- The frames put on the queue of `c`, oldest first. -/
def queued (w : World) (c : ClientId) : List Frame :=
  (w.hub.log.filter fun e => e.1 = c).map fun e => e.2

/-- Two frames of the queue whose rows were created in their order, if both are `a`'s. -/
def RowsInOrder (a : UUID) (db : Db) (f g : Frame) : Prop :=
  ∀ m ∈ db.messages.rows, ∀ m' ∈ db.messages.rows, m.senderID = a → m'.senderID = a →
    f.carries m.id = true → g.carries m'.id = true → m.createdAt ≤ m'.createdAt

instance (a : UUID) (db : Db) (f g : Frame) : Decidable (RowsInOrder a db f g) :=
  inferInstanceAs (Decidable (∀ m ∈ db.messages.rows, ∀ m' ∈ db.messages.rows, _))

/-! ## The runs -/

/-- Whose `HandleDM` call a thread is, or which connection it makes. -/
inductive Job where
  | call (senderID : UUID)
  | connect (c : ClientId)
  deriving DecidableEq

def job : Thread → Option Job
  | .dmFind call => some (.call call.senderID)
  | .dmCreate call => some (.call call.senderID)
  | .dmInsert call _ => some (.call call.senderID)
  | .send (.dmLive call _) _ => some (.call call.senderID)
  | .dmPublish call _ => some (.call call.senderID)
  | .dmMark call _ => some (.call call.senderID)
  | .send (.dmAck call _) _ => some (.call call.senderID)
  | .connRegister d => some (.connect d)
  | .connOnline d => some (.connect d)
  | .connOpen d => some (.connect d)
  | .connFile d _ => some (.connect d)
  | .connPending d => some (.connect d)
  | .drain d _ => some (.connect d)
  | .send (.drain d _ _ _) _ => some (.connect d)
  | .drainMark d _ _ => some (.connect d)
  | _ => none

/-- The rows a drain has still to push. -/
def remaining : Thread → List PendingMessage
  | .drain _ rows => rows
  | .send (.drain _ _ _ rest) (.evict _) => rest
  | .send (.drain _ _ row rest) _ => row :: rest
  | .drainMark _ _ rest => rest
  | _ => []

/-- The payload a forwarder is about to push for `u`. -/
def inHand (u : UUID) : Thread → Option Frame
  | .send (.forward _ _ _) (.evict _) => none
  | .send (.forward _ v f) _ => if v = u then some f else none
  | _ => none

/-- The connection `c` is new: no handler runs, and nothing has been sent to it. -/
structure NewTo (c : ClientId) (s : Server) : Prop where
  idle : ∀ t ∈ s.threads, t.idle
  forwards : ∀ k, .forward k ∈ s.threads → k < s.world.router.opened
  fresh : c ∉ s.conns
  unsent : queued s.world c = []
  quiet : ∀ k < s.world.router.opened,
    (s.world.router.pubsub k).userID = s.world.hub.userOf c → (s.world.router.pubsub k).inbox = []

/-- The `created_at` values of `a`'s rows are distinct, and the clock goes on. -/
def OnTime (a : UUID) (db : Db) (env : Env) : Thread → Prop
  | .dmInsert call _ => call.senderID = a →
      ∀ m ∈ db.messages.rows, m.senderID = a → m.createdAt < env.now
  | _ => True

/-- `a`'s calls come one after the other, anybody else's as they like, and `c` is the one
    connection. -/
def Successive (a : UUID) (c : ClientId) (s : Server) : Action → Prop
  | .dm call => call.senderID = a → ∀ t ∈ s.threads, job t ≠ some (.call a)
  | .connect d => d = c
  | .run i env => ∀ t ∈ s.threads[i]?, OnTime a s.world.db env t
  | _ => True

/-! ## The condition -/

/-- Nothing of `a` in the backlog of `c` is older than `f`: not in the snapshot still to
    be taken, and not among the rows still to be pushed. -/
def BeforeBacklog (a : UUID) (c : ClientId) (s : Server) (f : Frame) : Prop :=
  (Ahead c s.conns s.threads →
    ∀ p ∈ s.world.db.pendingRows (s.world.hub.userOf c), Precedes a f (drainFrame p)) ∧
  ∀ t ∈ s.threads, ∀ p ∈ remaining t, Precedes a f (drainFrame p)

/-- Nothing of `a` that was published for the user of `c` is older than `f`: not in a
    forwarder's hand, and not in an inbox other than that of `x`. -/
def BeforePublished (a : UUID) (c : ClientId) (s : Server) (x : Option SubId) (f : Frame) : Prop :=
  (∀ k < s.world.router.opened, (s.world.router.pubsub k).userID = s.world.hub.userOf c →
    x ≠ some k → ∀ g ∈ (s.world.router.pubsub k).inbox, Precedes a f g) ∧
  ∀ t ∈ s.threads, ∀ g ∈ inHand (s.world.hub.userOf c) t, Precedes a f g

/-- Nothing older than the frame of the `Send` is on its way by a path that is not its
    own. -/
def AheadOfOthers (a : UUID) (c : ClientId) (s : Server) : Kont → Prop
  | .dmLive call stored => BeforeBacklog a c s (call.outbound stored) ∧
      BeforePublished a c s none (call.outbound stored)
  | .drain _ _ row _ => BeforePublished a c s none (drainFrame row)
  | .forward k _ f => BeforeBacklog a c s f ∧ BeforePublished a c s (some k) f
  | _ => True

/-- The condition on a thread that is about to put its frame on the queue of `c`. -/
def Clear (a : UUID) (c : ClientId) (s : Server) : Thread → Prop
  | .send k (.select d) => d = c → (s.world.hub.chan c).closed = false →
      (s.world.hub.chan c).buf.length < (s.world.hub.chan c).cap → AheadOfOthers a c s k
  | _ => True

def InTurn (a : UUID) (c : ClientId) (s : Server) : Action → Prop
  | .run i _ => ∀ t ∈ s.threads[i]?, Clear a c s t
  | _ => True

/-! ## What the frames say -/

variable {a u : UUID} {c : ClientId} {db db' : Db} {f g : Frame}

/-- The frame of a direct message tells who sent it and when it was created. -/
def Genuine (db : Db) : Frame → Prop
  | .message _ fromID _ id time =>
      ∃ m ∈ db.messages.rows, m.id = id ∧ m.senderID = fromID ∧ m.createdAt = time
  | _ => True

/-- What has just been stored, if by `a`, is the youngest of `a`'s. -/
structure Newest (a : UUID) (db : Db) (call : DmCall) (stored : Message) : Prop where
  row : ∃ m ∈ db.messages.rows, m.id = stored.id ∧ m.senderID = call.senderID ∧
    m.createdAt = stored.createdAt
  last : call.senderID = a → ∀ m ∈ db.messages.rows, m.senderID = a → m.createdAt ≤ stored.createdAt

/-- Rows keep their sender and their time. -/
def Keeps (db db' : Db) : Prop :=
  ∀ m ∈ db.messages.rows, ∃ m' ∈ db'.messages.rows, m'.id = m.id ∧ m'.senderID = m.senderID ∧
    m'.createdAt = m.createdAt

theorem Precedes.refl (a : UUID) (f : Frame) : Precedes a f f := by
  intro x hx y hy
  rw [Option.mem_def.mp hx] at hy
  exact le_of_eq (Option.some.inj hy)

theorem Precedes.of_none (h : stamp a g = none) : Precedes a f g := by
  intro x _ y hy
  rw [h] at hy
  cases hy

/-- A frame that carries no message of `a` precedes whatever there is. -/
theorem before_of_none {s : Server} {x : Option SubId} (h : stamp a f = none) :
    BeforeBacklog a c s f ∧ BeforePublished a c s x f := by
  have hall : ∀ g, Precedes a f g := by
    intro g y hy
    rw [h] at hy
    cases hy
  exact ⟨⟨fun _ p _ => hall _, fun _ _ p _ => hall _⟩, fun _ _ _ _ g _ => hall g,
    fun _ _ g _ => hall g⟩

/-- The time stamp of a live frame is its row's. -/
theorem stamp_outbound {call : DmCall} {stored : Message} {x : Nat}
    (h : x ∈ stamp a (call.outbound stored)) : call.senderID = a ∧ x = stored.createdAt := by
  simp only [DmCall.outbound, stamp] at h
  split at h
  · rename_i hsender
    exact ⟨hsender, (Option.some.inj h).symm⟩
  · cases h

/-- The time stamp of a backlog frame is its row's. -/
theorem stamp_drainFrame {p : PendingMessage} {x : Nat} (h : x ∈ stamp a (drainFrame p)) :
    p.message.senderID = a ∧ x = p.message.createdAt := by
  simp only [drainFrame, stamp] at h
  split at h
  · rename_i hsender
    exact ⟨hsender, (Option.some.inj h).symm⟩
  · cases h

/-- A genuine frame stays so. -/
theorem Genuine.mono (h : Genuine db f) (hk : Keeps db db') : Genuine db' f := by
  cases f with
  | message name fromID body id time =>
      obtain ⟨m, hm, hid, hsender, htime⟩ := h
      obtain ⟨m', hm', hid', hsender', htime'⟩ := hk m hm
      exact ⟨m', hm', hid'.trans hid, hsender'.trans hsender, htime'.trans htime⟩
  | _ => trivial

/-- A stamp is the time of a row of `a`. -/
theorem Genuine.stamped (h : Genuine db f) {x : Nat} (hx : x ∈ stamp a f) :
    ∃ m ∈ db.messages.rows, m.senderID = a ∧ m.createdAt = x := by
  cases f with
  | message name fromID body id time =>
      obtain ⟨m, hm, -, hsender, htime⟩ := h
      simp only [stamp] at hx
      split at hx
      · rename_i hfrom
        exact ⟨m, hm, hsender.trans hfrom, htime.trans (Option.some.inj hx)⟩
      · cases hx
  | _ => cases hx

/-- The frame of a row of `a` is stamped with the row's time. -/
theorem Genuine.stamp_eq (h : Genuine db f) {m : Message} (hm : m ∈ db.messages.rows)
    (hcarries : f.carries m.id = true) : stamp m.senderID f = some m.createdAt := by
  cases f with
  | message name fromID body id time =>
      obtain ⟨m', hm', hid, hsender, htime⟩ := h
      have hrow : m' = m := eq_of_key hm' hm (hid.trans (of_decide_eq_true hcarries))
      rw [← hrow, stamp, if_pos hsender.symm, htime]
  | _ => cases hcarries

/-- A frame of the backlog is genuine. -/
theorem Genuine.of_pending {p : PendingMessage} (hp : p ∈ db.pendingRows u) :
    Genuine db (drainFrame p) :=
  ⟨p.message, (mem_pendingRows.mp hp).1, rfl, rfl, rfl⟩

theorem Newest.genuine {call : DmCall} {stored : Message} (h : Newest a db call stored) :
    Genuine db (call.outbound stored) := h.row

/-- What is genuine is not younger than what has just been stored. -/
theorem Newest.precedes {call : DmCall} {stored : Message} (h : Newest a db call stored)
    (hf : Genuine db f) : Precedes a f (call.outbound stored) := by
  intro x hx y hy
  obtain ⟨hsender, rfl⟩ := stamp_outbound hy
  obtain ⟨m, hm, hma, rfl⟩ := hf.stamped hx
  exact h.last hsender m hm hma

/-! ## One step of a thread -/

section ThreadSteps

variable {w w' : World} {env : Env} {t t' : Thread} {new : List Thread}

/-- The rows stay what they are, and there is at most one more. -/
theorem rows_of_step (h : ThreadStep w env t w' t' new) : Keeps w.db w'.db ∧
    (Keeps w'.db w.db ∨ ∃ call chatID stored, t = .dmInsert call chatID ∧
      t' = .send (.dmLive call stored) .lookup ∧
      w'.db.messages.rows = w.db.messages.rows ++ [stored] ∧
      stored.senderID = call.senderID ∧ stored.createdAt = env.now) := by
  have hsame : w'.db.messages = w.db.messages → Keeps w.db w'.db ∧ Keeps w'.db w.db := by
    intro hrows
    simp only [Keeps, hrows]
    exact ⟨fun m hm => ⟨m, hm, rfl, rfl, rfl⟩, fun m hm => ⟨m, hm, rfl, rfl, rfl⟩⟩
  have hset : ∀ id st, w'.db = w.db.setStatus id st → Keeps w.db w'.db ∧ Keeps w'.db w.db := by
    intro id st hdb
    have hfields : ∀ m : Message, (if m.id = id then m.withStatus st else m).id = m.id ∧
        (if m.id = id then m.withStatus st else m).senderID = m.senderID ∧
        (if m.id = id then m.withStatus st else m).createdAt = m.createdAt := by
      intro m
      split <;> exact ⟨rfl, rfl, rfl⟩
    rw [hdb]
    constructor
    · intro m hm
      exact ⟨_, mem_setStatus.mpr ⟨m, hm, rfl⟩, hfields m⟩
    · intro m' hm'
      obtain ⟨m, hm, rfl⟩ := mem_setStatus.mp hm'
      obtain ⟨hid, hsender, htime⟩ := hfields m
      exact ⟨m, hm, hid.symm, hsender.symm, htime.symm⟩
  have hmark : ∀ id, w' = markDelivered w env id → Keeps w.db w'.db ∧ Keeps w'.db w.db := by
    intro id hw
    rcases markDelivered_db w env id with hdb | hdb
    · exact hsame (by rw [hw, hdb])
    · exact hset id .delivered (by rw [hw, hdb])
  cases h with
  | quiet hdb hhub haddr hq => exact (hsame (by rw [hdb])).imp (fun hk => hk) Or.inl
  | created call db hc => exact (hsame (createChat_ok hc).messages).imp (fun hk => hk) Or.inl
  | stored call chatID db stored hi =>
      obtain ⟨hrow, hst⟩ := insertMessage_ok hi
      refine ⟨?_, Or.inr ⟨call, chatID, stored, rfl, rfl, hst.messages, ?_, ?_⟩⟩
      · intro m hm
        refine ⟨m, ?_, rfl, rfl, rfl⟩
        show m ∈ db.messages.rows
        rw [hst.messages]
        exact List.mem_append_left _ hm
      · rw [hrow]
        rfl
      · rw [hrow]
        rfl
  | marked call stored => exact (hmark stored.id rfl).imp (fun hk => hk) Or.inl
  | drainMarked d row rest => exact (hmark row.message.id rfl).imp (fun hk => hk) Or.inl
  | acked readerID call hok => exact (hset call.messageID .read rfl).imp (fun hk => hk) Or.inl
  | _ => exact (hsame rfl).imp (fun hk => hk) Or.inl

/-- What is pending was pending before, or has just been stored. -/
theorem pending_of_step (h : ThreadStep w env t w' t' new) {p : PendingMessage}
    (hp : p ∈ w'.db.pendingRows u) : p ∈ w.db.pendingRows u ∨
      ∃ call chatID, t = .dmInsert call chatID ∧ p.message.senderID = call.senderID ∧
        p.message.createdAt = env.now := by
  have hmark : ∀ id, p ∈ (markDelivered w env id).db.pendingRows u → p ∈ w.db.pendingRows u := by
    intro id
    exact markDelivered_of (P := fun db => p ∈ db.pendingRows u → p ∈ w.db.pendingRows u) env id
      (fun hp => hp) (pendingRows_of_setStatus (by decide))
  cases h with
  | quiet hdb hhub haddr hq =>
      rw [hdb] at hp
      exact Or.inl hp
  | created call db hc => exact Or.inl (pendingRows_of_createChat hc hp)
  | stored call chatID db stored hi =>
      refine (pendingRows_of_insertMessage hi hp).imp (fun hold => hold) fun hnew => ?_
      rw [hnew, (insertMessage_ok hi).1]
      exact ⟨call, chatID, rfl, rfl, rfl⟩
  | marked call stored => exact Or.inl (hmark stored.id hp)
  | drainMarked d row rest => exact Or.inl (hmark row.message.id hp)
  | acked readerID call hok => exact Or.inl (pendingRows_of_setStatus (by decide) hp)
  | _ => exact Or.inl hp

/-- Only forwarders are started. -/
theorem started_of_step (h : ThreadStep w env t w' t' new) {v : Thread} (hv : v ∈ new) :
    ∃ k, v = .forward k := by
  cases h with
  | quiet hdb hhub haddr hq =>
      cases hq with
      | filed e k => exact ⟨k, List.mem_singleton.mp hv⟩
      | _ => cases hv
  | _ => cases hv

/-- A job goes on in its thread, or is done. -/
theorem job_of_step (h : ThreadStep w env t w' t' new) : job t' = job t ∨ job t' = none := by
  cases h with
  | quiet hdb hhub haddr hq => cases hq <;> simp [job]
  | sendGoto k pc pc' hub hs =>
      left
      cases k <;> rfl
  | sendReturned k pc hub ok hs =>
      cases k with
      | dmLive call stored => cases ok <;> exact Or.inl rfl
      | dmAck call stored => exact Or.inr rfl
      | ackNotify senderID messageID => cases ok <;> exact Or.inl rfl
      | _ => exact Or.inl rfl
  | pendingFailed d hfail => exact Or.inr rfl
  | acked readerID call hok =>
      right
      rw [ackNext]
      split <;> rfl
  | _ => exact Or.inl rfl

/-- Whoever is ahead of the snapshot was so before. -/
theorem ahead_before_step (h : ThreadStep w env t w' t' new) (hahead : t'.ahead c) :
    t.ahead c := by
  cases h with
  | quiet hdb hhub haddr hq => cases hq <;> exact hahead
  | sendReturned k pc hub ok hs =>
      cases k with
      | dmLive call stored => cases ok <;> exact hahead
      | ackNotify senderID messageID => cases ok <;> exact hahead
      | _ => exact hahead
  | acked readerID call hok =>
      rw [ackNext] at hahead
      split at hahead <;> exact hahead
  | pending d rows hr => exact False.elim hahead
  | pendingFailed d hfail => exact False.elim hahead
  | _ => exact hahead

/-- What a drain has to push was there before, or is the snapshot. -/
theorem remaining_of_step (h : ThreadStep w env t w' t' new) {p : PendingMessage}
    (hp : p ∈ remaining t') : p ∈ remaining t ∨
      ∃ d, t = .connPending d ∧ p ∈ w.db.pendingRows (w.hub.userOf d) := by
  cases h with
  | quiet hdb hhub haddr hq =>
      cases hq with
      | drainNext e row rest => exact Or.inl hp
      | _ => cases hp
  | sendGoto k pc pc' hub hs =>
      left
      cases k with
      | drain e v row rest =>
          cases hs with
          | found d hd => exact hp
          | full d hopen hfull => exact List.mem_cons_of_mem _ hp
      | _ => cases hp
  | sendReturned k pc hub ok hs =>
      left
      cases k with
      | drain e v row rest =>
          cases hs with
          | evict d => exact hp
          | _ => exact List.mem_cons_of_mem _ hp
      | dmLive call stored => cases ok <;> cases hp
      | ackNotify senderID messageID => cases ok <;> cases hp
      | _ => cases hp
  | drainMarked d row rest => exact Or.inl hp
  | pending d rows hr => exact Or.inr ⟨d, rfl, (getPendingMessages_ok hr).1 p hp⟩
  | acked readerID call hok =>
      rw [ackNext] at hp
      split at hp <;> cases hp
  | _ => cases hp

/-- What a step puts on the queue of `c`. -/
theorem queued_of_step (h : ThreadStep w env t w' t' new) (c : ClientId) :
    queued w' c = queued w c ∨ ∃ k, t = .send k (.select c) ∧ (w.hub.chan c).closed = false ∧
      (w.hub.chan c).buf.length < (w.hub.chan c).cap ∧ queued w' c = queued w c ++ [k.data] := by
  have hmark : ∀ id, queued (markDelivered w env id) c = queued w c := by
    intro id
    rw [queued, markDelivered_hub]
    rfl
  have hdrop : ∀ d, queued { w with hub := w.hub.unregister d } c = queued w c := by
    intro d
    simp only [queued, unregister_log]
  cases h with
  | quiet hdb hhub haddr hq =>
      left
      rw [queued, hhub]
      rfl
  | sendGoto k pc pc' hub hs =>
      left
      cases hs with
      | _ => rfl
  | sendReturned k pc hub ok hs =>
      cases hs with
      | sent d ch hch =>
          obtain ⟨hopen, hroom, -⟩ := offer_sent hch
          by_cases hd : d = c
          · subst hd
            refine Or.inr ⟨k, rfl, hopen, hroom, ?_⟩
            simp [queued, Hub.push]
          · left
            simp [queued, Hub.push, hd]
      | evict d => exact Or.inl (hdrop d)
      | _ => exact Or.inl rfl
  | marked call stored => exact Or.inl (hmark stored.id)
  | drainMarked d row rest => exact Or.inl (hmark row.message.id)
  | ended d => exact Or.inl (hdrop d)
  | _ => exact Or.inl rfl

/-- A `Send` has found a client of its addressee. -/
theorem found_of_step (h : ThreadStep w env t w' t' new) {k : Kont} {d : ClientId}
    (ht : t' = .send k (.select d)) : w.hub.userOf d = k.toID := by
  cases h with
  | quiet hdb hhub haddr hq => cases hq <;> cases ht
  | sendGoto k' pc pc' hub hs =>
      cases ht
      cases hs with
      | found d hd => exact w.hub.owned _ d hd
  | sendReturned k' pc hub ok hs =>
      cases k' with
      | dmLive call stored => cases ok <;> cases ht
      | ackNotify senderID messageID => cases ok <;> cases ht
      | _ => cases ht
  | acked readerID call hok =>
      rw [ackNext] at ht
      split at ht <;> cases ht
  | _ => cases ht

theorem job_of_ahead (h : t.ahead c) : job t = some (.connect c) := by
  cases t with
  | connRegister d => exact congrArg (fun d => some (Job.connect d)) h
  | connOnline d => exact congrArg (fun d => some (Job.connect d)) h
  | connOpen d => exact congrArg (fun d => some (Job.connect d)) h
  | connFile d k => exact congrArg (fun d => some (Job.connect d)) h
  | connPending d => exact congrArg (fun d => some (Job.connect d)) h
  | _ => exact False.elim h

/-- Whoever has rows to push is a connection's drain. -/
theorem job_of_remaining {p : PendingMessage} {rest : List PendingMessage}
    (h : remaining t = p :: rest) : ∃ d, job t = some (.connect d) := by
  cases t with
  | drain d rows => exact ⟨d, rfl⟩
  | drainMark d row rows => exact ⟨d, rfl⟩
  | send k pc =>
      cases k with
      | drain d v row rows => exact ⟨d, rfl⟩
      | _ => cases h
  | _ => cases h

/-! ### The subscriptions -/

/-- What a thread publishes next. -/
def payload : Thread → Option Frame
  | .dmPublish call stored => some (call.outbound stored)
  | .ackPublish _ messageID => some (.read messageID)
  | _ => none

/-- An inbox stays, gets the payload, or loses its oldest to its forwarder. -/
inductive InboxStep (w : World) (t : Thread) (k : SubId) (inbox : List Frame) : Prop
  | same (h : inbox = (w.router.pubsub k).inbox)
  | got (g : Frame) (hg : payload t = some g) (h : inbox = (w.router.pubsub k).inbox ++ [g])
  | took (ht : t = .forward k) (g : Frame) (h : (w.router.pubsub k).inbox = g :: inbox)

/-- What a step does to the inbox of a subscription. -/
theorem inbox_of_step (h : stepThread w env t = some (w', t', new)) {k : SubId}
    (hk : k < w.router.opened) : InboxStep w t k (w'.router.pubsub k).inbox := by
  rw [router_of_step h]
  have hpublish : ∀ v g, payload t = some g →
      InboxStep w t k ((w.router.publish v g).pubsub k).inbox := by
    intro v g hg
    rw [publish_inbox]
    split
    · exact .got g hg rfl
    · exact .same (List.append_nil _)
  cases t with
  | dmPublish call stored =>
      simp only [routerAfter]
      split
      · exact hpublish _ _ rfl
      · exact .same rfl
  | ackPublish senderID messageID =>
      simp only [routerAfter]
      split
      · exact hpublish _ _ rfl
      · exact .same rfl
  | connOpen d => exact .same (by rw [routerAfter, openSub_old w.router _ hk])
  | connClose sub =>
      cases sub with
      | none => exact .same rfl
      | some j =>
          refine .same ?_
          rw [routerAfter, Router.close]
          by_cases hkj : k = j
          · rw [hkj]
            simp
          · simp only [Function.update_of_ne hkj]
  | forward j =>
      simp only [routerAfter]
      cases hin : (w.router.pubsub j).inbox with
      | nil => exact .same rfl
      | cons g rest =>
          by_cases hkj : k = j
          · subst hkj
            refine .took rfl g ?_
            simp [Router.take, hin]
          · refine .same ?_
            simp [Router.take, Function.update_of_ne hkj]
  | _ => exact .same rfl

/-- A new subscription has received nothing. -/
theorem inbox_opened (h : stepThread w env t = some (w', t', new)) {k : SubId}
    (hk : w.router.opened ≤ k) (hk' : k < w'.router.opened) : (w'.router.pubsub k).inbox = [] := by
  have hsame : w'.router.opened = w.router.opened → (w'.router.pubsub k).inbox = [] := by
    intro heq
    rw [heq] at hk'
    exact absurd hk' (Nat.not_lt.mpr hk)
  have hrouter := router_of_step h
  cases t with
  | connOpen d =>
      rw [hrouter] at hk' ⊢
      have heq : k = w.router.opened := Nat.le_antisymm (Nat.lt_succ_iff.mp hk') hk
      rw [heq, routerAfter, openSub_self]
  | dmPublish call stored =>
      refine hsame ?_
      rw [hrouter, routerAfter]
      split <;> rfl
  | ackPublish senderID messageID =>
      refine hsame ?_
      rw [hrouter, routerAfter]
      split <;> rfl
  | connClose sub => cases sub <;> exact hsame (by rw [hrouter]; rfl)
  | forward j =>
      refine hsame ?_
      rw [hrouter, routerAfter]
      split <;> rfl
  | _ => exact hsame (by rw [hrouter]; rfl)

/-- What a forwarder has in hand it had before, or has just taken. -/
theorem hand_of_step (h : stepThread w env t = some (w', t', new)) (hg : g ∈ inHand u t') :
    g ∈ inHand u t ∨ ∃ k, t = .forward k ∧
      (w.router.pubsub k).userID = u ∧ g ∈ (w.router.pubsub k).inbox := by
  cases threadStep_of_stepThread h with
  | quiet hdb hhub haddr hq =>
      cases hq with
      | forwarded k v f =>
          simp only [stepThread] at h
          split at h
          · rename_i rest hin
            cases h
            simp only [inHand] at hg
            split at hg
            · rename_i howner
              refine Or.inr ⟨k, rfl, howner, ?_⟩
              rw [hin]
              exact List.mem_cons.mpr (Or.inl (Option.some.inj hg).symm)
            · cases hg
          · split at h <;> cases h
      | _ => cases hg
  | sendGoto k pc pc' hub hs =>
      left
      cases k with
      | forward k v f =>
          cases hs with
          | found d hd => exact hg
          | full d hopen hfull => cases hg
      | _ => cases hg
  | sendReturned k pc hub ok hs =>
      cases k with
      | dmLive call stored => cases ok <;> cases hg
      | ackNotify senderID messageID => cases ok <;> cases hg
      | _ => cases hg
  | acked readerID call hok =>
      rw [ackNext] at hg
      split at hg <;> cases hg
  | _ => cases hg

end ThreadSteps

end PeerSenderOrder
