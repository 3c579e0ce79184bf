import PeerChat.DeliveryProofs

/-! # What 'delivered' promises

    A message is 'delivered' once its frame is in the queue of a client; whether
    the frame reaches a socket is up to the `writePump`, which may have a frame
    in hand when its write fails.

    Two accounts are kept here.  Every frame that was ever enqueued has been
    written, or was lost in a failed write, or is queued still (`Conserved`).
    And every message that is 'delivered' was enqueued for the other member of
    its chat, as long as the `Send`s of the drains succeed: their results are
    dropped. -/

namespace PeerServer

open PeerEnv KeyedTable BufferedChan PeerHub PeerStore PeerFrame PeerWorld PeerHandler
open Transition ThreadPool

/-! ## Frames are conserved -/

/-- A frame is accounted for at a client: written, lost, or queued. -/
def Reached (s : Server) (c : ClientId) (f : Frame) : Prop :=
  f ∈ (s.sockets c).written ∨ f ∈ (s.sockets c).lost ∨ f ∈ (s.world.hub.chan c).buf

/-- What was enqueued is what is accounted for. -/
def Conserved (s : Server) : Prop :=
  ∀ c f, (c, f) ∈ s.world.hub.log ↔ Reached s c f

/-- The hub took one frame, or none. -/
inductive Took (h h' : Hub Frame) : Prop where
  | none (hlog : h'.log = h.log) (hbuf : ∀ c, (h'.chan c).buf = (h.chan c).buf)
  | one (d : ClientId) (f : Frame) (hlog : h'.log = h.log ++ [(d, f)])
      (hself : (h'.chan d).buf = (h.chan d).buf ++ [f])
      (hbuf : ∀ c, c ≠ d → (h'.chan c).buf = (h.chan c).buf)

/-- Unregistering enqueues nothing, and takes nothing out. -/
theorem took_of_unregister (h : Hub Frame) (c : ClientId) : Took h (h.unregister c) :=
  .none (unregister_log h c) (unregister_buf h c)

/-- A statement of `Send` enqueues one frame, or none. -/
theorem SendStep.took {h h' : Hub Frame} {toID : UUID} {f : Frame} {pc : SendPc}
    {next : SendNext} (hs : SendStep h toID f pc h' next) : Took h h' := by
  cases hs with
  | offline _ => exact .none rfl fun _ => rfl
  | found _ _ => exact .none rfl fun _ => rfl
  | sent c ch hch =>
      refine .one c f (push_log h c ch f) ?_ ?_
      · rw [push_chan_self, (offer_sent hch).2.2]
      · intro d hd
        rw [push_chan_ne h ch f hd]
  | full _ _ _ => exact .none rfl fun _ => rfl
  | panic _ _ => exact .none rfl fun _ => rfl
  | evict c => exact took_of_unregister h c

/-- A step of a goroutine enqueues one frame, or none. -/
theorem took_of_step {w w' : World} {env : Env} {t t' : Thread} {new : List Thread}
    (h : ThreadStep w env t w' t' new) : Took w.hub w'.hub := by
  cases h with
  | quiet hdb hhub haddr hq =>
      rw [hhub]
      exact .none rfl fun _ => rfl
  | sendGoto k pc pc' hub hs => exact SendStep.took hs
  | sendReturned k pc hub ok hs => exact SendStep.took hs
  | marked call stored =>
      rw [markDelivered_hub]
      exact .none rfl fun _ => rfl
  | drainMarked c row rest =>
      rw [markDelivered_hub]
      exact .none rfl fun _ => rfl
  | ended c => exact took_of_unregister w.hub c
  | _ => exact .none rfl fun _ => rfl

@[simp] theorem startPump_written (sockets : ClientId → Socket) (t : Thread)
    (c : ClientId) : (startPump sockets t c).written = (sockets c).written := by
  cases t with
  | live d =>
      by_cases hd : c = d
      · simp [startPump, hd]
      · simp [startPump, Function.update_of_ne hd]
  | _ => rfl

@[simp] theorem startPump_lost (sockets : ClientId → Socket) (t : Thread)
    (c : ClientId) : (startPump sockets t c).lost = (sockets c).lost := by
  cases t with
  | live d =>
      by_cases hd : c = d
      · simp [startPump, hd]
      · simp [startPump, Function.update_of_ne hd]
  | _ => rfl

/-- Every step keeps what was enqueued accounted for. -/
theorem conserved_step {s t : Server} {a : Action} (hi : Conserved s)
    (h : Stepped s a t) : Conserved t := by
  intro c f
  cases h with
  | dm call => exact hi c f
  | connect d _ => exact hi c f
  | ack readerID call => exact hi c f
  | activate sub => exact hi c f
  | run i env th w th' new hth hstep =>
      simp only [Reached, startPump_written, startPump_lost]
      cases took_of_step hstep with
      | none hlog hbuf =>
          rw [hlog, hbuf]
          exact hi c f
      | one d g hlog hself hbuf =>
          rw [hlog, List.mem_append, List.mem_singleton, Prod.mk.injEq, hi c f, Reached]
          by_cases hc : c = d
          · rw [hc, hself, List.mem_append, List.mem_singleton]
            tauto
          · rw [hbuf c hc]
            tauto
  | pumpWrite d ok g rest hp hb =>
      show (c, f) ∈ s.world.hub.log ↔ _
      rw [hi c f]
      simp only [Reached]
      by_cases hc : c = d
      · -- the frame goes from the queue into the pump's hand
        have hbuf : ((popHub s.world.hub d).chan d).buf = rest := by
          rw [popHub, setChan_chan_self]
          show (s.world.hub.chan d).buf.tail = rest
          rw [hb]
          rfl
        rw [hc, hb, hbuf, Function.update_self, List.mem_cons]
        cases ok with
        | true =>
            simp only [Socket.took, if_true, List.mem_append, List.mem_singleton]
            tauto
        | false =>
            simp only [Socket.took, Bool.false_eq_true, if_false, List.mem_append,
              List.mem_singleton]
            tauto
      · rw [Function.update_of_ne hc, popHub, setChan_chan_ne s.world.hub _ hc]
  | pumpStop d hp =>
      rw [hi c f]
      simp only [Reached]
      by_cases hc : c = d
      · rw [hc, Function.update_self]
      · rw [Function.update_of_ne hc]

/-- **FRAMES ARE CONSERVED**, in every run. -/
theorem conserved_of_reach {db : Db} {who : ClientId → UUID × String} {s : Server}
    (h : Reach step anyStep (start db who) s) : Conserved s := by
  refine Reach.invariant (fun _ _ _ hs _ ht => conserved_step hs (step_cases ht)) h ?_
  intro c f
  constructor
  · intro hf
    cases hf
  · rintro (hf | hf | hf)
    · cases hf
    · cases hf
    · cases hf

/-! ## The two members of a chat -/

/-- No chat has a third member, and senders are members. -/
structure Paired (db : Db) : Prop where
  two : ∀ chat a b x, a ≠ b → db.Member chat a → db.Member chat b → db.Member chat x →
    x = a ∨ x = b
  senders : ∀ m ∈ db.messages.rows, db.Member m.chatID m.senderID

/-- Every chat stays one of two users. -/
theorem paired_of_step {s : Server} {i : Nat} {env : Env} {t t' : Thread} {w' : World}
    {new : List Thread} (hl : Ledger s) (hp : Paired s.world.db)
    (ht : s.threads[i]? = some t) (h : ThreadStep s.world env t w' t' new) :
    Paired w'.db := by
  have hsenders : ∀ m' ∈ w'.db.messages.rows, w'.db.Member m'.chatID m'.senderID := by
    intro m' hm'
    rcases row_of_step h hm' with ⟨m, hm, -, hchat, hsender, -⟩ |
      ⟨call, rfl, -, -, -, hsender, -⟩
    · rw [← hchat, ← hsender]
      exact h.grows.members _ _ (hp.senders m hm)
    · rw [hsender]
      exact h.grows.members _ _ (hl.inserting call m'.chatID (List.mem_of_getElem? ht)).1
  refine ⟨?_, hsenders⟩
  -- members are added by the chat transaction only, to a chat of its own
  have hsame : w'.db.chatMembers = s.world.db.chatMembers → ∀ chat a b x, a ≠ b →
      w'.db.Member chat a → w'.db.Member chat b → w'.db.Member chat x → x = a ∨ x = b := by
    intro hmembers
    simp only [Db.Member, hmembers]
    exact hp.two
  cases h with
  | quiet hdb hhub haddr hq => exact hsame (by rw [hdb])
  | created call db hc =>
      have hcr := createChat_ok hc
      intro chat a b x hab ha hb hx
      rcases (hcr.members chat a).mp ha with ha | ⟨rfl, ha⟩
      · have hold : ∀ v, db.Member chat v → s.world.db.Member chat v := by
          intro v hv
          rcases (hcr.members chat v).mp hv with hv | ⟨rfl, -⟩
          · exact hv
          · exact absurd ha (hcr.fresh a)
        exact hp.two chat a b x hab ha (hold b hb) (hold x hx)
      · have hnew : ∀ v, db.Member env.newChat v → v = call.senderID ∨ v = call.receiverID := by
          intro v hv
          rcases (hcr.members env.newChat v).mp hv with hv | ⟨-, hv⟩
          · exact absurd hv (hcr.fresh v)
          · exact hv
        have hb := hnew b hb
        have hx := hnew x hx
        grind
  | stored call chatID db stored hi => exact hsame (insertMessage_ok hi).2.chatMembers
  | marked call stored => exact hsame (markDelivered_chatMembers s.world env stored.id)
  | drainMarked c row rest =>
      exact hsame (markDelivered_chatMembers s.world env row.message.id)
  | _ => exact hsame rfl

/-! ## Who marks a message has enqueued it -/

/-- The frame of the message has been enqueued on a client of `u`. -/
def EnqueuedFor (w : World) (u : UUID) (id : UUID) : Prop :=
  ∃ c, w.hub.userOf c = u ∧ Enqueued w c id

/-- The message is in a chat of `u`, from somebody else. -/
def DueTo (w : World) (u : UUID) (id : UUID) : Prop :=
  id ∈ w.db.messages.keys ∧ ∀ m ∈ w.db.messages.rows, m.id = id →
    w.db.Member m.chatID u ∧ m.senderID ≠ u

/-- The condition on a thread's next step: the `Send` of a drain finds a client
    with room in an open channel. -/
def arrives (h : Hub Frame) : Thread → Bool
  | .send (.drain _ userID _ _) .lookup => (h.clients userID).isSome
  | .send (.drain _ _ _ _) (.select d) =>
      decide ((h.chan d).closed = false ∧ (h.chan d).buf.length < (h.chan d).cap)
  | _ => true

/-- No read acks, and no drain whose `Send` fails. -/
def DrainsArrive (s : Server) (a : Action) : Prop :=
  NoAck a ∧ match a with
    | .run i _ => ∀ t ∈ s.threads[i]?, arrives s.world.hub t = true
    | _ => True

instance (s : Server) (a : Action) : Decidable (DrainsArrive s a) :=
  match a with
  | .run i _ => inferInstanceAs (Decidable (_ ∧ ∀ t ∈ s.threads[i]?, _))
  | .dm _ | .connect _ | .ack _ _ | .activate _ | .pumpWrite _ _ | .pumpStop _ =>
      inferInstanceAs (Decidable (_ ∧ True))

/-- A `Send` that has found a client has found one of its addressee, and the
    client of a drain is never full. -/
def Found (h : Hub Frame) (k : Kont) : SendPc → Prop
  | .lookup => True
  | .select d => h.userOf d = k.toID
  | .evict _ => ∀ c userID row rest, k ≠ .drain c userID row rest

/-- What a thread of the run may rely on. -/
def Relies (w : World) : Thread → Prop
  | .send (.dmLive call stored) pc =>
      (stored.id, call.receiverID) ∈ w.addressed ∧ Found w.hub (.dmLive call stored) pc
  | .dmMark call stored =>
      (stored.id, call.receiverID) ∈ w.addressed ∧
        EnqueuedFor w call.receiverID stored.id
  | .drain c rows => ∀ id ∈ rowIds rows, DueTo w (w.hub.userOf c) id
  | .send (.drain c userID row rest) pc =>
      (userID = w.hub.userOf c ∧
        ∀ id ∈ row.message.id :: rowIds rest, DueTo w (w.hub.userOf c) id) ∧
      Found w.hub (.drain c userID row rest) pc
  | .drainMark c row rest =>
      (∀ id ∈ row.message.id :: rowIds rest, DueTo w (w.hub.userOf c) id) ∧
        EnqueuedFor w (w.hub.userOf c) row.message.id
  | .send k pc => Found w.hub k pc
  | .ackUpdate _ _ => False
  | _ => True

/-- The rows of the messages there were are rows of these messages. -/
def Keeps (w w' : World) : Prop :=
  ∀ m' ∈ w'.db.messages.rows, m'.id ∈ w.db.messages.keys →
    ∃ m ∈ w.db.messages.rows, m.id = m'.id ∧ m.chatID = m'.chatID ∧
      m.senderID = m'.senderID

/-- No step changes the chat or the sender of a message. -/
theorem keeps_of_step {w w' : World} {env : Env} {t t' : Thread} {new : List Thread}
    (h : ThreadStep w env t w' t' new) : Keeps w w' := by
  intro m' hm' hkey
  rcases row_of_step h hm' with ⟨m, hm, hid, hchat, hsender, -⟩ | ⟨_, _, _, hfresh, _⟩
  · exact ⟨m, hm, hid, hchat, hsender⟩
  · exact absurd hkey hfresh

/-- What is due to a user stays due. -/
theorem DueTo.mono {w w' : World} {u id : UUID} (h : DueTo w u id) (hg : Grows w w')
    (hkeep : Keeps w w') : DueTo w' u id := by
  obtain ⟨hkey, hdue⟩ := h
  refine ⟨hg.keys _ hkey, ?_⟩
  intro m' hm' hid
  obtain ⟨m, hm, hmid, hchat, hsender⟩ := hkeep m' hm' (hid ▸ hkey)
  obtain ⟨hmember, hother⟩ := hdue m hm (hmid.trans hid)
  rw [← hchat, ← hsender]
  exact ⟨hg.members _ _ hmember, hother⟩

/-- What has been enqueued for a user stays enqueued. -/
theorem EnqueuedFor.mono {w w' : World} {u id : UUID} (h : EnqueuedFor w u id)
    (hg : Grows w w') : EnqueuedFor w' u id := by
  obtain ⟨c, hc, henq⟩ := h
  exact ⟨c, (hg.users c).trans hc, henq.mono hg⟩

/-- A `Send` goes on with what it has found. -/
theorem Found.mono {w w' : World} {k : Kont} {pc : SendPc} (h : Found w.hub k pc)
    (hg : Grows w w') : Found w'.hub k pc := by
  cases pc with
  | lookup => trivial
  | select d => exact (hg.users d).trans h
  | evict d => exact h

/-- What a thread relies on stays true while others move. -/
theorem Relies.mono {w w' : World} {t : Thread} (h : Relies w t) (hg : Grows w w')
    (hkeep : Keeps w w') : Relies w' t := by
  cases t with
  | dmMark call stored => exact ⟨hg.record _ h.1, h.2.mono hg⟩
  | drain c rows =>
      intro id hid
      rw [hg.users]
      exact (h id hid).mono hg hkeep
  | drainMark c row rest =>
      refine ⟨?_, ?_⟩
      · intro id hid
        rw [hg.users]
        exact (h.1 id hid).mono hg hkeep
      · rw [hg.users]
        exact h.2.mono hg
  | send k pc =>
      cases k with
      | dmLive call stored => exact ⟨hg.record _ h.1, h.2.mono hg⟩
      | drain c userID row rest =>
          obtain ⟨⟨huser, hdue⟩, hfound⟩ := h
          refine ⟨⟨?_, ?_⟩, hfound.mono hg⟩
          · rw [hg.users]
            exact huser
          · intro id hid
            rw [hg.users]
            exact (hdue id hid).mono hg hkeep
      | dmAck call stored => exact Found.mono h hg
      | forward sub userID payload => exact Found.mono h hg
      | ackNotify senderID messageID => exact Found.mono h hg
  | _ => exact h

/-- A quiet step keeps what its goroutine relies on. -/
theorem relies_quiet {w : World} {t t' : Thread} {new : List Thread}
    (h : Quiet w t t' new) (hr : Relies w t) :
    Relies w t' ∧ ∀ v ∈ new, Relies w v := by
  cases h with
  | filed d sub =>
      refine ⟨trivial, ?_⟩
      intro v hv
      rw [List.mem_singleton.mp hv]
      trivial
  | drainNext d row rest => exact ⟨⟨⟨rfl, hr⟩, trivial⟩, fun v hv => (by cases hv)⟩
  | _ => exact ⟨trivial, fun v hv => (by cases hv)⟩

/-- What the thread of a `Send` relies on of the place it stands at. -/
theorem Relies.found {w : World} {k : Kont} {pc : SendPc} (h : Relies w (.send k pc)) :
    Found w.hub k pc := by
  cases k with
  | dmLive call stored => exact h.2
  | drain c userID row rest => exact h.2
  | _ => exact h

/-- The `Send` that went through has enqueued the message for its addressee. -/
theorem enqueuedFor_of_push {w : World} {k : Kont} {d : ClientId} (ch : Chan Frame)
    (hfound : Found w.hub k (.select d)) {id : UUID} (hid : id ∈ k.pot) :
    EnqueuedFor { w with hub := w.hub.push d ch k.data } k.toID id :=
  ⟨d, (push_userOf w.hub d d ch k.data).trans hfound, enqueued_of_push w d ch hid⟩

/-- A `Send` that arrives leaves its handler what it relies on. -/
theorem relies_resume {w : World} {k : Kont} {pc : SendPc} {hub : Hub Frame} {ok : Bool}
    (hs : SendStep w.hub k.toID k.data pc hub (.returned ok))
    (hr : Relies w (.send k pc)) (harrives : arrives w.hub (.send k pc) = true)
    (hg : Grows w { w with hub := hub }) : Relies { w with hub := hub } (k.resume ok) := by
  cases k with
  | dmLive call stored =>
      obtain ⟨haddr, hfound⟩ := hr
      cases hs with
      | sent d ch hch =>
          exact ⟨haddr, enqueuedFor_of_push ch hfound (List.mem_singleton.mpr rfl)⟩
      | offline hno => trivial
      | panic d hcl => trivial
      | evict d => trivial
  | drain c userID row rest =>
      obtain ⟨⟨huser, hdue⟩, hfound⟩ := hr
      refine ⟨?_, ?_⟩
      · intro id hid
        rw [hg.users]
        exact (hdue id hid).mono hg (fun m' hm' _ => ⟨m', hm', rfl, rfl, rfl⟩)
      · rw [hg.users, ← huser]
        cases hs with
        | sent d ch hch => exact enqueuedFor_of_push ch hfound (List.mem_singleton.mpr rfl)
        | offline hno =>
            change w.hub.clients userID = none at hno
            rw [arrives, hno] at harrives
            cases harrives
        | panic d hcl =>
            rw [(of_decide_eq_true harrives).1] at hcl
            cases hcl
        | evict d => exact absurd rfl (hfound c userID row rest)
  | ackNotify senderID messageID => cases ok <;> trivial
  | _ => trivial

/-- A snapshot's rows are due to its user. -/
theorem dueTo_of_pending {w : World} {env : Env} {u : UUID} {rows : List PendingMessage}
    (hr : w.db.getPendingMessages env u = .ok rows) : ∀ id ∈ rowIds rows, DueTo w u id := by
  intro id hid
  obtain ⟨p, hp, rfl⟩ := List.mem_map.mp hid
  obtain ⟨hm, hmember, hother, -, -⟩ :=
    mem_pendingRows.mp ((getPendingMessages_ok hr).1 p hp)
  refine ⟨key_mem_keys hm, ?_⟩
  intro m hm' hid
  rw [eq_of_key hm' hm hid]
  exact ⟨hmember, hother⟩

/-- Every step that arrives keeps what its goroutine relies on. -/
theorem relies_of_step {w w' : World} {env : Env} {t t' : Thread} {new : List Thread}
    (h : ThreadStep w env t w' t' new) (hr : Relies w t) (harrives : arrives w.hub t = true) :
    Relies w' t' ∧ ∀ v ∈ new, Relies w' v := by
  have hg := h.grows
  have hkeep := keeps_of_step h
  cases h with
  | quiet hdb hhub haddr hq =>
      obtain ⟨hself, hnew⟩ := relies_quiet hq hr
      exact ⟨hself.mono hg hkeep, fun v hv => (hnew v hv).mono hg hkeep⟩
  | stored call chatID db stored hi =>
      refine ⟨⟨?_, trivial⟩, fun v hv => (by cases hv)⟩
      exact List.mem_concat_self
  | sendGoto k pc pc' hub hs =>
      refine ⟨?_, fun v hv => (by cases hv)⟩
      have hfound : Found w.hub k pc' := by
        cases hs with
        | found d hd => exact w.hub.owned _ d hd
        | full d hopen hfull =>
            intro c userID row rest hk
            rw [hk] at harrives
            exact absurd (of_decide_eq_true harrives).2 (Nat.not_lt.mpr hfull)
      have hfound' : Found hub k pc' := hfound.mono hg
      have hself := hr.mono hg hkeep
      cases k with
      | dmLive call stored => exact ⟨hself.1, hfound'⟩
      | drain c userID row rest => exact ⟨hself.1, hfound'⟩
      | _ => exact hfound'
  | sendReturned k pc hub ok hs =>
      exact ⟨relies_resume hs hr harrives hg, fun v hv => (by cases hv)⟩
  | drainMarked c row rest =>
      refine ⟨?_, fun v hv => (by cases hv)⟩
      intro id hid
      rw [hg.users]
      exact (hr.1 id (List.mem_cons_of_mem _ hid)).mono hg hkeep
  | pending c rows hrows => exact ⟨dueTo_of_pending hrows, fun v hv => (by cases hv)⟩
  | acked readerID call hok => exact False.elim hr
  | _ => exact ⟨trivial, fun v hv => (by cases hv)⟩

/-! ## Every run -/

/-- A message that `db` had only as 'sent', or did not have. -/
def Unsettled (db : Db) (id : UUID) : Prop :=
  ∀ m ∈ db.messages.rows, m.id = id → m.status = .sent

/-- **THE INVARIANT OF A RUN** that started from the tables `db`. -/
structure Tracked (db : Db) (s : Server) : Prop where
  paired : Paired s.world.db
  relies : ∀ t ∈ s.threads, Relies s.world t
  marked : ∀ m ∈ s.world.db.messages.rows, Unsettled db m.id →
    (m.id, m.senderID) ∉ s.world.addressed → m.status ≠ .sent →
      ∃ u, s.world.db.Member m.chatID u ∧ u ≠ m.senderID ∧ EnqueuedFor s.world u m.id

/-- A step outside the threads, or one that starts a thread. -/
theorem Tracked.keep {db : Db} {s t : Server} (hi : Tracked db s)
    (hdb : t.world.db = s.world.db) (haddr : t.world.addressed = s.world.addressed)
    (husers : ∀ c, t.world.hub.userOf c = s.world.hub.userOf c)
    (hlog : t.world.hub.log = s.world.hub.log)
    (hts : ∀ u ∈ t.threads, u ∈ s.threads ∨ Relies t.world u) : Tracked db t := by
  have hg : Grows s.world t.world := by
    refine Grows.of_same (by rw [hdb]) (by rw [hdb]) husers ?_ haddr
    rw [hlog]
    exact fun _ he => he
  have hkeep : Keeps s.world t.world := by
    intro m hm _
    rw [hdb] at hm
    exact ⟨m, hm, rfl, rfl, rfl⟩
  refine ⟨?_, ?_, ?_⟩
  · rw [hdb]
    exact hi.paired
  · intro u hu
    rcases hts u hu with hold | hnew
    · exact (hi.relies u hold).mono hg hkeep
    · exact hnew
  · rw [hdb, haddr]
    intro m hm hnew hself hst
    obtain ⟨u, hmember, hother, henq⟩ := hi.marked m hm hnew hself hst
    exact ⟨u, hmember, hother, henq.mono hg⟩

/-- **WHOEVER MARKS A MESSAGE HAS ENQUEUED IT** for the other member of its chat. -/
theorem marked_of_step {db : Db} {s : Server} {i : Nat} {env : Env} {t t' : Thread}
    {w' : World} {new : List Thread} (hl : Ledger s) (hi : Tracked db s)
    (ht : s.threads[i]? = some t) (h : ThreadStep s.world env t w' t' new) {m' : Message}
    (hm' : m' ∈ w'.db.messages.rows) (hnew : Unsettled db m'.id)
    (hself : (m'.id, m'.senderID) ∉ w'.addressed) (hst : m'.status ≠ .sent) :
    ∃ u, w'.db.Member m'.chatID u ∧ u ≠ m'.senderID ∧ EnqueuedFor w' u m'.id := by
  have hg := h.grows
  have hr := hi.relies t (List.mem_of_getElem? ht)
  rcases row_of_step h hm' with ⟨m, hm, hid, hchat, hsender, hkeep | hsets⟩ |
    ⟨_, _, _, _, hsent, _⟩
  · -- the status is the one from before
    have hself₀ : (m.id, m.senderID) ∉ s.world.addressed := by
      rw [hid, hsender]
      exact fun hin => hself (hg.record _ hin)
    have hst₀ : m.status ≠ .sent := by
      rw [← hkeep]
      exact hst
    obtain ⟨u, hmember, hother, henq⟩ := hi.marked m hm (hid ▸ hnew) hself₀ hst₀
    rw [← hid, ← hchat, ← hsender]
    exact ⟨u, hg.members _ _ hmember, hother, henq.mono hg⟩
  · cases t with
    | dmMark call stored =>
        obtain ⟨haddr, henq⟩ := hr
        have heq : stored.id = m'.id := congrArg Prod.fst (Option.some.inj hsets)
        rw [heq] at haddr henq
        refine ⟨call.receiverID, ?_, ?_, henq.mono hg⟩
        · rw [← hchat]
          exact hg.members _ _ (hl.members m hm call.receiverID (hid ▸ haddr))
        · intro hto
          rw [hto] at haddr
          exact hself (hg.record _ haddr)
    | drainMark c row rest =>
        have heq : row.message.id = m'.id := congrArg Prod.fst (Option.some.inj hsets)
        obtain ⟨hmember, hother⟩ :=
          (hr.1 row.message.id (List.mem_cons_self ..)).2 m hm (hid.trans heq.symm)
        refine ⟨s.world.hub.userOf c, ?_, ?_, ?_⟩
        · rw [← hchat]
          exact hg.members _ _ hmember
        · rw [← hsender]
          exact Ne.symm hother
        · rw [← heq]
          exact hr.2.mono hg
    | ackUpdate readerID call => exact False.elim hr
    | _ => cases hsets
  · exact absurd hsent hst

/-- Every step keeps the track of the messages. -/
theorem tracked_step {db : Db} {s t : Server} {a : Action} (hl : Ledger s)
    (hi : Tracked db s) (hG : DrainsArrive s a) (h : Stepped s a t) : Tracked db t := by
  have hspawn : ∀ u, Relies s.world u →
      ∀ v ∈ s.threads ++ [u], v ∈ s.threads ∨ Relies s.world v := by
    intro u hu v hv
    rcases List.mem_append.mp hv with hold | hnew
    · exact Or.inl hold
    · rw [List.mem_singleton.mp hnew]
      exact Or.inr hu
  cases h with
  | dm call => exact hi.keep rfl rfl (fun _ => rfl) rfl (hspawn (.dmFind call) trivial)
  | connect c _ => exact hi.keep rfl rfl (fun _ => rfl) rfl (hspawn (.connRegister c) trivial)
  | ack readerID call => exact False.elim hG.1
  | activate sub => exact hi.keep rfl rfl (fun _ => rfl) rfl fun _ hu => Or.inl hu
  | pumpWrite c ok f rest _ _ =>
      exact hi.keep rfl rfl (popHub_userOf s.world.hub c) rfl fun _ hu => Or.inl hu
  | pumpStop c _ => exact hi.keep rfl rfl (fun _ => rfl) rfl fun _ hu => Or.inl hu
  | run i env th w th' new hth hstep =>
      have harrives := hG.2 th hth
      obtain ⟨hself, hnew⟩ :=
        relies_of_step hstep (hi.relies th (List.mem_of_getElem? hth)) harrives
      refine ⟨paired_of_step hl hi.paired hth hstep, ?_, ?_⟩
      · intro u hu
        rcases mem_moved hu with hold | rfl | hin
        · exact (hi.relies u hold).mono hstep.grows (keeps_of_step hstep)
        · exact hself
        · exact hnew u hin
      · exact fun m hm => marked_of_step hl hi hth hstep hm

/-- The track of the messages is kept all along a run. -/
theorem tracked_of_reach {db : Db} {who : ClientId → UUID × String} {s : Server}
    (hdb : Paired db) (h : Reach step DrainsArrive (start db who) s) : Tracked db s := by
  refine Reach.invariant_using (fun _ hr => ledger_of_reach (hr.weaken fun _ _ _ => trivial))
    (fun _ _ _ hl hs hG ht => tracked_step hl hs hG (step_cases ht)) h ?_
  exact ⟨hdb, fun _ ht => (by cases ht), fun m hm hnew _ hst => absurd (hnew m hm rfl) hst⟩

/-- **'DELIVERED' MEANS ENQUEUED**: a message that has become 'delivered' has been
    written to a socket of its receiver, or is in the queue of a client of the
    receiver, or was in the hand of the pump whose write failed; and a message
    that no client of its receiver has taken is still 'sent' and pending. -/
theorem delivered_is_enqueued {db : Db} {who : ClientId → UUID × String} {s : Server}
    (hdb : Paired db) (h : Reach step DrainsArrive (start db who) s) {m : Message}
    (hm : m ∈ s.world.db.messages.rows) (hnew : Unsettled db m.id)
    (hself : (m.id, m.senderID) ∉ s.world.addressed) {receiver : UUID}
    (hmember : s.world.db.Member m.chatID receiver) (hother : receiver ≠ m.senderID) :
    (m.status = .delivered → ∃ c f, s.world.hub.userOf c = receiver ∧
      f.carries m.id = true ∧ Reached s c f) ∧
    ((∀ c f, s.world.hub.userOf c = receiver → f.carries m.id = true → ¬ Reached s c f) →
      m.status = .sent ∧
      ∀ env rows, s.world.db.getPendingMessages env receiver = .ok rows →
        (s.world.db.pendingRows receiver).length ≤ pendingLimit →
          ∃ p ∈ rows, p.message = m) := by
  have hi := tracked_of_reach hdb h
  have hc := conserved_of_reach (h.weaken fun _ _ _ => trivial)
  -- the other member whom it was enqueued for is the receiver
  have henq : m.status ≠ .sent → ∃ c f, s.world.hub.userOf c = receiver ∧
      f.carries m.id = true ∧ Reached s c f := by
    intro hst
    obtain ⟨u, hu, hus, c, hcu, e, he, hec, hcarries⟩ := hi.marked m hm hnew hself hst
    have hreceiver : receiver = u := by
      rcases hi.paired.two m.chatID m.senderID u receiver (Ne.symm hus)
        (hi.paired.senders m hm) hu hmember with heq | heq
      · exact absurd heq hother
      · exact heq
    refine ⟨c, e.2, hcu.trans hreceiver.symm, hcarries, (hc c e.2).mp ?_⟩
    rw [← hec]
    exact he
  refine ⟨?_, ?_⟩
  · intro hst
    refine henq ?_
    rw [hst]
    exact fun hbad => by cases hbad
  · intro hnone
    have hsent : m.status = .sent := by
      by_contra hst
      obtain ⟨c, f, hcu, hcarries, hreached⟩ := henq hst
      exact hnone c f hcu hcarries hreached
    refine ⟨hsent, ?_⟩
    intro env rows hrows hle
    obtain ⟨p, hp, hpm⟩ := exists_pendingRow hm hmember (Ne.symm hother) hsent
    exact ⟨p, (getPendingMessages_ok hrows).2.2 hle p hp, hpm⟩

/-- Bob's message is in Alice's queue and 'delivered'; the write of her pump
    fails, and the frame is gone with the pump. -/
theorem delivered_and_lost : ¬ ∀ s : Server,
    Reach step (fun _ a => DbUp a ∧ NoAck a) (start threeUsers oneUser) s →
      ∀ m ∈ s.world.db.messages.rows, m.status = .delivered →
        ∀ receiver, s.world.db.Member m.chatID receiver → receiver ≠ m.senderID →
          ∃ c f, s.world.hub.userOf c = receiver ∧ f.carries m.id = true ∧
            (f ∈ (s.sockets c).written ∨
              (f ∈ (s.world.hub.chan c).buf ∧ (s.sockets c).pump ≠ .stopped)) := by
  obtain ⟨s, hs, ⟨m, hm, hst, hmember, hother⟩, honly, hwritten, hpump⟩ :=
    exists_reach_of_replayGuarded step (fun _ a => DbUp a ∧ NoAck a)
      (start threeUsers oneUser)
      (aliceConnects ++ .dm bobsCall :: List.replicate 6 (.run 2 fineEnv) ++
        [.pumpWrite 0 false])
      (fun s => (∃ m ∈ s.world.db.messages.rows, m.status = .delivered ∧
          s.world.db.Member m.chatID ⟨1⟩ ∧ ⟨1⟩ ≠ m.senderID) ∧
        (∀ e ∈ s.world.hub.log, e.1 = 0) ∧ (s.sockets 0).written.isEmpty = true ∧
        (s.sockets 0).pump = .stopped)
      (by decide +kernel)
  have hc := conserved_of_reach (hs.weaken fun _ _ _ => trivial)
  intro hall
  obtain ⟨c, f, -, -, hf⟩ := hall s hs m hm hst ⟨1⟩ hmember hother
  -- the only client a frame was ever enqueued on is number 0
  have hzero : Reached s c f → c = 0 := fun hr => honly (c, f) ((hc c f).mpr hr)
  rcases hf with hin | ⟨hin, hrunning⟩
  · rw [hzero (Or.inl hin), List.isEmpty_iff.mp hwritten] at hin
    cases hin
  · rw [hzero (Or.inr (Or.inr hin))] at hrunning
    exact hrunning hpump

/-- Alice's pump has written Bob's message. -/
theorem delivered_is_enqueued_written : ∃ s : Server, ∃ m ∈ s.world.db.messages.rows,
    Reach step DrainsArrive (start threeUsers oneUser) s ∧ m.status = .delivered ∧
      ∃ c f, s.world.hub.userOf c = ⟨1⟩ ∧ f.carries m.id = true ∧ Reached s c f := by
  have hpaired : Paired threeUsers :=
    ⟨fun _ _ _ _ _ ha => (by cases ha), fun _ hm => (by cases hm)⟩
  obtain ⟨s, hs, m, hm, hst, hself, hmember, hother⟩ :=
    exists_reach_of_replayGuarded step DrainsArrive (start threeUsers oneUser)
      (aliceConnects ++ .dm bobsCall :: List.replicate 6 (.run 2 fineEnv) ++
        [.pumpWrite 0 true])
      (fun s => ∃ m ∈ s.world.db.messages.rows, m.status = .delivered ∧
        (m.id, m.senderID) ∉ s.world.addressed ∧ s.world.db.Member m.chatID ⟨1⟩ ∧
        ⟨1⟩ ≠ m.senderID) (by decide +kernel)
  exact ⟨s, m, hm, hs, hst, (delivered_is_enqueued hpaired hs hm
    (fun _ hm₀ => (by cases hm₀)) hself hmember hother).1 hst⟩

end PeerServer
