import PeerChat.MessagePathProofs

/-! # A sender's messages, in the order of their rows

    Each path into the queue keeps the order of one sender: `GetPendingMessages` sorts,
    an inbox is a FIFO, and a sender's calls come one after the other.  Nothing orders
    the paths among themselves, so a live message overtakes the backlog
    (`live_overtakes_backlog`); under `InTurn` the order holds (`sender_order`). -/

namespace PeerSenderOrder

open PeerEnv KeyedTable BufferedChan PeerHub PeerRouter PeerStore PeerFrame PeerWorld PeerHandler
open PeerServer Transition ThreadPool

variable {a u : UUID} {c : ClientId} {db db' : Db} {f g : Frame}

/-! ## The invariant -/

/-- Rows that a drain can push one after the other. -/
structure Drains (a : UUID) (db : Db) (rows : List PendingMessage) : Prop where
  genuine : ∀ p ∈ rows, Genuine db (drainFrame p)
  sorted : rows.Pairwise fun p q => Precedes a (drainFrame p) (drainFrame q)

/-- What a thread knows of the messages it has in hand. -/
def Sees (a u : UUID) (w : World) : Thread → Prop
  | .send (.dmLive call stored) _ => Newest a w.db call stored
  | .dmPublish call stored => Newest a w.db call stored
  | .connFile _ k => k < w.router.opened
  | .forward k => k < w.router.opened
  | .send (.forward k v f) _ => k < w.router.opened ∧
      (v = u → Genuine w.db f ∧ ∀ g ∈ (w.router.pubsub k).inbox, Precedes a f g)
  | .drain _ rows => Drains a w.db rows
  | .send (.drain _ _ row rest) _ => Drains a w.db (row :: rest)
  | .drainMark _ _ rest => Drains a w.db rest
  | _ => True

/-- It knows nothing of the rest of the world. -/
theorem Sees.same {w w' : World} {v : Thread} (hv : Sees a u w v) (hdb : w'.db = w.db)
    (hopened : w'.router.opened = w.router.opened)
    (hinbox : ∀ k, (w'.router.pubsub k).inbox = (w.router.pubsub k).inbox) : Sees a u w' v := by
  cases v with
  | send k pc =>
      cases k with
      | dmLive call stored =>
          rw [Sees, hdb]
          exact hv
      | drain d v row rest =>
          rw [Sees, hdb]
          exact hv
      | forward k v f =>
          rw [Sees, hdb, hopened, hinbox]
          exact hv
      | _ => trivial
  | dmPublish call stored =>
      rw [Sees, hdb]
      exact hv
  | drain d rows =>
      rw [Sees, hdb]
      exact hv
  | drainMark d row rest =>
      rw [Sees, hdb]
      exact hv
  | connFile d k =>
      rw [Sees, hopened]
      exact hv
  | forward k =>
      rw [Sees, hopened]
      exact hv
  | _ => trivial

/-- How many threads have the job. -/
def having (x : Job) : Thread → Nat := fun t => if job t = some x then 1 else 0

/-- **THE INVARIANT OF A RUN**; `u` is the user of `c`. -/
structure InOrder (a : UUID) (c : ClientId) (u : UUID) (s : Server) : Prop where
  user : s.world.hub.userOf c = u
  found : ∀ k d, .send k (.select d) ∈ s.threads → s.world.hub.userOf d = k.toID
  only : ∀ t ∈ s.threads, ∀ d, job t = some (.connect d) → d = c
  calling : total (having (.call a)) s.threads ≤ 1
  connecting : (if c ∈ s.conns then 0 else 1) + total (having (.connect c)) s.threads ≤ 1
  sees : ∀ t ∈ s.threads, Sees a u s.world t
  inboxes : ∀ k < s.world.router.opened, (s.world.router.pubsub k).userID = u →
    (∀ g ∈ (s.world.router.pubsub k).inbox, Genuine s.world.db g) ∧
    (s.world.router.pubsub k).inbox.Pairwise (Precedes a)
  genuine : ∀ f ∈ queued s.world c, Genuine s.world.db f
  before : ∀ f ∈ queued s.world c, BeforeBacklog a c s f ∧ BeforePublished a c s none f
  ordered : (queued s.world c).Pairwise (Precedes a)

theorem Drains.mono {rows : List PendingMessage} (h : Drains a db rows) (hk : Keeps db db') :
    Drains a db' rows :=
  ⟨fun p hp => (h.genuine p hp).mono hk, h.sorted⟩

/-- The snapshot is sorted. -/
theorem Drains.of_snapshot {env : Env} {rows : List PendingMessage}
    (h : db.getPendingMessages env u = .ok rows) : Drains a db rows := by
  refine ⟨fun p hp => Genuine.of_pending ((getPendingMessages_ok h).1 p hp), ?_⟩
  refine (getPendingMessages_sorted h).imp fun hle => ?_
  intro x hx y hy
  rw [(stamp_drainFrame hx).2, (stamp_drainFrame hy).2]
  exact hle

section Runs

variable {s : Server} {i : Nat} {env : Env} {t t' : Thread} {w' : World} {new : List Thread}

/-- A step of thread `i` that the guards let through. -/
structure Moves (a : UUID) (c : ClientId) (s : Server) (i : Nat) (env : Env) (t : Thread)
    (w' : World) (t' : Thread) (new : List Thread) : Prop where
  thread : s.threads[i]? = some t
  step : stepThread s.world env t = some (w', t', new)
  onTime : OnTime a s.world.db env t
  clear : Clear a c s t

/-- The server after it. -/
def after (s : Server) (i : Nat) (w' : World) (t' : Thread) (new : List Thread) : Server :=
  ⟨w', moved s.threads i t' new, startPump s.sockets t', s.conns⟩

namespace Moves

variable (hmove : Moves a c s i env t w' t' new)

include hmove

theorem mem : t ∈ s.threads := List.mem_of_getElem? hmove.thread

theorem threadStep : ThreadStep s.world env t w' t' new := threadStep_of_stepThread hmove.step

theorem keeps : Keeps s.world.db w'.db := (rows_of_step hmove.threadStep).1

theorem users (d : ClientId) : w'.hub.userOf d = s.world.hub.userOf d :=
  hmove.threadStep.grows.users d

/-- A thread was there before, or is the one that moved, or is a new forwarder. -/
theorem origin {v : Thread} (hv : v ∈ (after s i w' t' new).threads) :
    v ∈ s.threads ∨ v = t' ∨ ∃ k, v = .forward k := by
  rcases mem_moved hv with hold | hself | hnew
  · exact Or.inl hold
  · exact Or.inr (Or.inl hself)
  · exact Or.inr (Or.inr (started_of_step hmove.threadStep hnew))

/-- No job is taken up twice. -/
theorem having_le (x : Job) : total (having x) (after s i w' t' new).threads
    ≤ total (having x) s.threads := by
  refine total_moved_le hmove.thread ?_
  have hstarted : total (having x) new = 0 := by
    refine total_eq_zero fun v hv => ?_
    obtain ⟨k, rfl⟩ := started_of_step hmove.threadStep hv
    rfl
  rw [hstarted]
  rcases job_of_step hmove.threadStep with hsame | hdone
  · simp only [having, hsame]
    omega
  · simp only [having, hdone]
    simp

/-- Another thread does not do what this one does. -/
theorem alone {x : Job} (hx : job t = some x) (htotal : total (having x) s.threads ≤ 1) {v : Thread}
    (hv : v ∈ s.threads) (hne : v ≠ t) : job v ≠ some x := by
  intro hjob
  have hsum := add_le_total (having x) hv hmove.mem hne
  simp only [having, hjob, hx, if_true] at hsum
  omega

variable (hi : InOrder a c u s)

include hi

/-- What is genuine precedes what the thread is about to publish. -/
theorem precedes_payload {f g : Frame} (hf : Genuine s.world.db f) (hg : payload t = some g) :
    Precedes a f g := by
  have hsees := hi.sees t hmove.mem
  cases t with
  | dmPublish call stored =>
      cases hg
      exact Newest.precedes hsees hf
  | ackPublish senderID messageID =>
      cases hg
      exact Precedes.of_none rfl
  | _ => cases hg

theorem genuine_payload {g : Frame} (hg : payload t = some g) : Genuine s.world.db g := by
  have hsees := hi.sees t hmove.mem
  cases t with
  | dmPublish call stored =>
      cases hg
      exact Newest.genuine hsees
  | ackPublish senderID messageID =>
      cases hg
      trivial
  | _ => cases hg

/-- A genuine frame stays older than what follows it. -/
theorem before_step {f : Frame} (hf : Genuine s.world.db f)
    (hb : BeforeBacklog a c s f ∧ BeforePublished a c s none f) :
    BeforeBacklog a c (after s i w' t' new) f ∧
      BeforePublished a c (after s i w' t' new) none f := by
  obtain ⟨⟨hsnapshot, hdrain⟩, hinbox, hhand⟩ := hb
  have huser : (after s i w' t' new).world.hub.userOf c = s.world.hub.userOf c :=
    hmove.users c
  refine ⟨⟨?_, ?_⟩, ?_, ?_⟩
  · intro hahead p hp
    rw [huser] at hp
    have hold : Ahead c s.conns s.threads := by
      rcases hahead with hfresh | ⟨v, hv, hva⟩
      · exact Or.inl hfresh
      · rcases hmove.origin hv with hin | rfl | ⟨k, rfl⟩
        · exact Or.inr ⟨v, hin, hva⟩
        · exact Or.inr ⟨t, hmove.mem, ahead_before_step hmove.threadStep hva⟩
        · exact False.elim hva
    rcases pending_of_step hmove.threadStep hp with hpending | ⟨call, chatID, rfl, hsender, htime⟩
    · exact hsnapshot hold p hpending
    · intro x hx y hy
      obtain ⟨hfrom, rfl⟩ := stamp_drainFrame hy
      obtain ⟨m, hm, hma, rfl⟩ := hf.stamped hx
      rw [htime]
      exact le_of_lt (hmove.onTime (hsender.symm.trans hfrom) m hm hma)
  · intro v hv p hp
    rcases hmove.origin hv with hin | rfl | ⟨k, rfl⟩
    · exact hdrain v hin p hp
    · rcases remaining_of_step hmove.threadStep hp with hold | ⟨d, rfl, hpending⟩
      · exact hdrain t hmove.mem p hold
      · -- the snapshot is taken
        have hd := hi.only _ hmove.mem d rfl
        rw [hd] at hpending
        exact hsnapshot (Or.inr ⟨_, hmove.mem, hd⟩) p hpending
    · cases hp
  · intro k hk howner _ g hg
    rw [huser] at howner
    change g ∈ (w'.router.pubsub k).inbox at hg
    by_cases hold : k < s.world.router.opened
    · rw [show ((after s i w' t' new).world.router.pubsub k).userID
        = (s.world.router.pubsub k).userID from (kept_of_step hmove.step).owner k hold] at howner
      have hall := hinbox k hold howner (fun h => by cases h)
      cases inbox_of_step hmove.step hold with
      | same heq =>
          rw [heq] at hg
          exact hall g hg
      | got g' hpay heq =>
          rw [heq] at hg
          rcases List.mem_append.mp hg with hin | hlast
          · exact hall g hin
          · rw [List.mem_singleton.mp hlast]
            exact hmove.precedes_payload hi hf hpay
      | took _ g' heq =>
          refine hall g ?_
          rw [heq]
          exact List.mem_cons_of_mem _ hg
    · rw [inbox_opened hmove.step (Nat.le_of_not_lt hold) hk] at hg
      cases hg
  · intro v hv g hg
    rw [huser] at hg
    rcases hmove.origin hv with hin | rfl | ⟨k, rfl⟩
    · exact hhand v hin g hg
    · rcases hand_of_step hmove.step hg with hold | ⟨k, rfl, howner, hin⟩
      · exact hhand t hmove.mem g hold
      · exact hinbox k (hi.sees _ hmove.mem) howner (fun h => by cases h) g hin
    · cases hg

/-- What a thread sees stays so while another one moves. -/
theorem sees_mono {v : Thread} (hv : Sees a u s.world v)
    (hne : ∀ call chatID, t = .dmInsert call chatID → call.senderID = a →
      v = t ∨ job v ≠ some (.call a)) : Sees a u w' v := by
  have hkeeps := hmove.keeps
  have hopened := (kept_of_step hmove.step).opened
  -- the youngest of `a`'s stays the youngest: nobody else stores one
  have hnewest : ∀ call stored, (∀ call' chatID, v ≠ .dmInsert call' chatID) →
      job v = some (.call call.senderID) → Newest a s.world.db call stored →
      Newest a w'.db call stored := by
    intro call stored hlive hjob h
    refine ⟨?_, ?_⟩
    · obtain ⟨m, hm, hid, hsender, htime⟩ := h.row
      obtain ⟨m', hm', hid', hsender', htime'⟩ := hkeeps m hm
      exact ⟨m', hm', hid'.trans hid, hsender'.trans hsender, htime'.trans htime⟩
    · intro hcaller m' hm' hma
      rcases (rows_of_step hmove.threadStep).2 with hback |
        ⟨call', chatID, stored', rfl, -, hrows, hsender, -⟩
      · obtain ⟨m, hm, -, hsender, htime⟩ := hback m' hm'
        rw [← htime]
        exact h.last hcaller m hm (hsender.trans hma)
      · rw [hrows] at hm'
        rcases List.mem_append.mp hm' with hold | hlast
        · exact h.last hcaller m' hold hma
        · rw [List.mem_singleton.mp hlast] at hma
          rcases hne call' chatID rfl (hsender.symm.trans hma) with heq | hother
          · exact absurd heq (hlive call' chatID)
          · rw [hcaller] at hjob
            exact absurd hjob hother
  cases v with
  | dmPublish call stored => exact hnewest call stored (fun _ _ h => by cases h) rfl hv
  | connFile d k => exact Nat.lt_of_lt_of_le hv hopened
  | forward k => exact Nat.lt_of_lt_of_le hv hopened
  | drain d rows => exact Drains.mono hv hkeeps
  | drainMark d row rest => exact Drains.mono hv hkeeps
  | send k pc =>
      cases k with
      | dmLive call stored => exact hnewest call stored (fun _ _ h => by cases h) rfl hv
      | drain d v row rest => exact Drains.mono hv hkeeps
      | forward k v f =>
          obtain ⟨hk, hf⟩ := hv
          refine ⟨Nat.lt_of_lt_of_le hk hopened, fun hvu => ⟨(hf hvu).1.mono hkeeps, ?_⟩⟩
          intro g hg
          cases inbox_of_step hmove.step hk with
          | same heq =>
              rw [heq] at hg
              exact (hf hvu).2 g hg
          | got g' hpay heq =>
              rw [heq] at hg
              rcases List.mem_append.mp hg with hin | hlast
              · exact (hf hvu).2 g hin
              · rw [List.mem_singleton.mp hlast]
                exact hmove.precedes_payload hi (hf hvu).1 hpay
          | took _ g' heq =>
              refine (hf hvu).2 g ?_
              rw [heq]
              exact List.mem_cons_of_mem _ hg
      | _ => trivial
  | _ => trivial

/-- What the thread itself sees then. -/
theorem sees_self : Sees a u w' t' ∧ ∀ v ∈ new, Sees a u w' v := by
  have hsees := hi.sees t hmove.mem
  have hopened := (kept_of_step hmove.step).opened
  have hkeeps := hmove.keeps
  have hstep := hmove.step
  -- a thread of the same message
  have hgo : ∀ v, Sees a u s.world v → (∀ call chatID, t ≠ .dmInsert call chatID) →
      Sees a u w' v :=
    fun v hv hno => hmove.sees_mono hi hv fun call chatID heq _ => absurd heq (hno call chatID)
  cases hmove.threadStep with
  | quiet hdb hhub haddr hq =>
      cases hq with
      | opened e sub =>
          cases hstep
          exact ⟨Nat.lt_succ_self _, fun v hv => (by cases hv)⟩
      | filed e sub =>
          refine ⟨trivial, fun v hv => ?_⟩
          rw [List.mem_singleton.mp hv]
          exact Nat.lt_of_lt_of_le hsees hopened
      | drainNext e row rest => exact ⟨Drains.mono hsees hkeeps, fun v hv => (by cases hv)⟩
      | forwarded k v f =>
          refine ⟨⟨Nat.lt_of_lt_of_le hsees hopened, fun hvu => ?_⟩, fun v hv => (by cases hv)⟩
          simp only [stepThread] at hstep
          split at hstep
          · rename_i payload rest hin
            cases hstep
            obtain ⟨hgenuine, hsorted⟩ := hi.inboxes k hsees hvu
            rw [hin] at hgenuine hsorted
            refine ⟨hgenuine _ (List.mem_cons_self ..), fun g hg => ?_⟩
            simp only [Router.take, Function.update_self, hin] at hg
            exact List.rel_of_pairwise_cons hsorted hg
          · split at hstep <;> cases hstep
      | _ => exact ⟨trivial, fun v hv => (by cases hv)⟩
  | stored call chatID db stored hins =>
      obtain ⟨hrow, hst⟩ := insertMessage_ok hins
      have hlast : stored ∈ db.messages.rows := by
        rw [hst.messages]
        exact List.mem_concat_self
      refine ⟨⟨⟨stored, hlast, rfl, ?_, rfl⟩, fun hcaller m hm hma => ?_⟩, fun v hv => (by cases hv)⟩
      · rw [hrow]
        rfl
      · change m ∈ db.messages.rows at hm
        rw [hst.messages] at hm
        rcases List.mem_append.mp hm with hold | hnew
        · have hlt := hmove.onTime hcaller m hold hma
          rw [hrow]
          exact le_of_lt hlt
        · rw [List.mem_singleton.mp hnew]
  | sendGoto k pc pc' hub hs =>
      refine ⟨hgo _ ?_ fun _ _ h => (by cases h), fun v hv => (by cases hv)⟩
      cases k <;> exact hsees
  | sendReturned k pc hub ok hs =>
      refine ⟨?_, fun v hv => (by cases hv)⟩
      cases k with
      | dmLive call stored =>
          cases ok with
          | true => trivial
          | false => exact hgo (.dmPublish call stored) hsees fun _ _ h => (by cases h)
      | drain d v row rest =>
          exact ⟨fun p hp => hsees.genuine p (List.mem_cons_of_mem _ hp), hsees.sorted.of_cons⟩
      | forward k v f => exact hsees.1
      | ackNotify senderID messageID => cases ok <;> trivial
      | dmAck call stored => trivial
  | drainMarked d row rest => exact ⟨Drains.mono hsees hkeeps, fun v hv => (by cases hv)⟩
  | pending d rows hr => exact ⟨Drains.of_snapshot hr, fun v hv => (by cases hv)⟩
  | acked readerID call hok =>
      refine ⟨?_, fun v hv => (by cases hv)⟩
      rw [ackNext]
      split <;> trivial
  | _ => exact ⟨trivial, fun v hv => (by cases hv)⟩

/-- The one connection is drained by one thread, after its snapshot. -/
theorem drained_alone {k : Kont} {pc : SendPc} (ht : t = .send k pc)
    (hjob : job t = some (.connect c)) : ¬ Ahead c s.conns s.threads ∧
      ∀ v ∈ s.threads, v ≠ t → remaining v = [] := by
  have hconnecting := hi.connecting
  have hle : total (having (.connect c)) s.threads ≤ 1 := by omega
  refine ⟨?_, ?_⟩
  · rintro (hfresh | ⟨v, hv, hahead⟩)
    · have hself := le_total (having (.connect c)) hmove.mem
      rw [show having (.connect c) t = 1 from if_pos hjob] at hself
      rw [if_neg hfresh] at hconnecting
      omega
    · refine hmove.alone hjob hle hv ?_ (job_of_ahead hahead)
      rintro rfl
      rw [ht] at hahead
      exact hahead
  · intro v hv hne
    cases hrows : remaining v with
    | nil => rfl
    | cons p rest =>
        obtain ⟨d, hd⟩ := job_of_remaining hrows
        rw [hi.only v hv d hd] at hd
        exact absurd hd (hmove.alone hjob hle hv hne)

/-- **WHAT IS PUT ON THE QUEUE** follows what is there, and precedes what is still to
    come. -/
theorem pushed {k : Kont} (ht : t = .send k (.select c))
    (hopen : (s.world.hub.chan c).closed = false)
    (hroom : (s.world.hub.chan c).buf.length < (s.world.hub.chan c).cap) :
    Genuine s.world.db k.data ∧ (∀ e ∈ queued s.world c, Precedes a e k.data) ∧
      BeforeBacklog a c s k.data ∧ BeforePublished a c s none k.data := by
  subst ht
  have hclear : AheadOfOthers a c s k := hmove.clear rfl hopen hroom
  have hsees := hi.sees _ hmove.mem
  cases k with
  | dmLive call stored =>
      exact ⟨Newest.genuine hsees, fun e he => Newest.precedes hsees (hi.genuine e he), hclear⟩
  | drain d v row rest =>
      obtain ⟨hgenuine, hsorted⟩ := hsees
      have hself : row ∈ remaining (.send (.drain d v row rest) (.select c)) :=
        List.mem_cons_self ..
      have hd : d = c := hi.only _ hmove.mem d rfl
      have hjob : job (.send (.drain d v row rest) (.select c)) = some (.connect c) := by
        rw [← hd]
        rfl
      obtain ⟨hnotAhead, hothers⟩ := hmove.drained_alone hi rfl hjob
      refine ⟨hgenuine row (List.mem_cons_self ..),
        fun e he => (hi.before e he).1.2 _ hmove.mem row hself,
        ⟨fun hahead => absurd hahead hnotAhead, fun x hx p hp => ?_⟩, hclear⟩
      by_cases hxt : x = .send (.drain d v row rest) (.select c)
      · rw [hxt] at hp
        rcases List.mem_cons.mp hp with rfl | hrest
        · exact Precedes.refl a _
        · exact List.rel_of_pairwise_cons hsorted hrest
      · rw [hothers x hx hxt] at hp
        cases hp
  | forward j v f =>
      have hto : s.world.hub.userOf c = v := hi.found _ c hmove.mem
      obtain ⟨hgenuine, hinbox⟩ := hsees.2 (hto.symm.trans hi.user)
      have hself : f ∈ inHand (s.world.hub.userOf c) (.send (.forward j v f) (.select c)) :=
        if_pos hto.symm
      obtain ⟨hbacklog, hinboxes, hhands⟩ := hclear
      refine ⟨hgenuine, fun e he => (hi.before e he).2.2 _ hmove.mem f hself, hbacklog,
        fun k hk howner _ g hg => ?_, hhands⟩
      by_cases hkj : j = k
      · subst hkj
        exact hinbox g hg
      · exact hinboxes k hk howner (fun h => hkj (Option.some.inj h)) g hg
  | dmAck call stored =>
      exact ⟨trivial, fun e _ => Precedes.of_none rfl, before_of_none rfl⟩
  | ackNotify senderID messageID =>
      exact ⟨trivial, fun e _ => Precedes.of_none rfl, before_of_none rfl⟩

/-- The inboxes of the user after a step. -/
theorem inboxes_step : ∀ k < w'.router.opened, (w'.router.pubsub k).userID = u →
    (∀ g ∈ (w'.router.pubsub k).inbox, Genuine w'.db g) ∧
    (w'.router.pubsub k).inbox.Pairwise (Precedes a) := by
  intro k hk howner
  by_cases hold : k < s.world.router.opened
  · rw [(kept_of_step hmove.step).owner k hold] at howner
    obtain ⟨hgenuine, hsorted⟩ := hi.inboxes k hold howner
    cases inbox_of_step hmove.step hold with
    | same heq =>
        rw [heq]
        exact ⟨fun g hg => (hgenuine g hg).mono hmove.keeps, hsorted⟩
    | got g hpay heq =>
        rw [heq]
        refine ⟨fun g' hg' => ?_, List.pairwise_append.mpr ⟨hsorted, List.pairwise_singleton _ _, ?_⟩⟩
        · rcases List.mem_append.mp hg' with hin | hlast
          · exact (hgenuine g' hin).mono hmove.keeps
          · rw [List.mem_singleton.mp hlast]
            exact (hmove.genuine_payload hi hpay).mono hmove.keeps
        · intro f hf g' hg'
          rw [List.mem_singleton.mp hg']
          exact hmove.precedes_payload hi (hgenuine f hf) hpay
    | took _ g heq =>
        rw [heq] at hgenuine hsorted
        exact ⟨fun g' hg' => (hgenuine g' (List.mem_cons_of_mem _ hg')).mono hmove.keeps,
          hsorted.of_cons⟩
  · rw [inbox_opened hmove.step (Nat.le_of_not_lt hold) hk]
    exact ⟨fun g hg => (by cases hg), List.Pairwise.nil⟩

/-- What is on the queue after a step. -/
theorem queued_step {f : Frame} (hf : f ∈ queued w' c) :
    Genuine s.world.db f ∧ BeforeBacklog a c s f ∧ BeforePublished a c s none f := by
  rcases queued_of_step hmove.threadStep c with hsame | ⟨k, ht, hopen, hroom, hpush⟩
  · rw [hsame] at hf
    exact ⟨hi.genuine f hf, hi.before f hf⟩
  · rw [hpush] at hf
    rcases List.mem_append.mp hf with hold | hnew
    · exact ⟨hi.genuine f hold, hi.before f hold⟩
    · rw [List.mem_singleton.mp hnew]
      obtain ⟨hgenuine, -, hbefore⟩ := hmove.pushed hi ht hopen hroom
      exact ⟨hgenuine, hbefore⟩

/-- The order of the queue after a step. -/
theorem ordered_step : (queued w' c).Pairwise (Precedes a) := by
  rcases queued_of_step hmove.threadStep c with hsame | ⟨k, ht, hopen, hroom, hpush⟩
  · rw [hsame]
    exact hi.ordered
  · rw [hpush]
    refine List.pairwise_append.mpr ⟨hi.ordered, List.pairwise_singleton _ _, ?_⟩
    intro e he g hg
    rw [List.mem_singleton.mp hg]
    exact (hmove.pushed hi ht hopen hroom).2.1 e he

/-- **THE INVARIANT AFTER A STEP.** -/
theorem inOrder : InOrder a c u (after s i w' t' new) := by
  obtain ⟨hself, hstarted⟩ := hmove.sees_self hi
  refine ⟨(hmove.users c).trans hi.user, ?_, ?_, Nat.le_trans (hmove.having_le _) hi.calling, ?_, ?_,
    hmove.inboxes_step hi, ?_, ?_, hmove.ordered_step hi⟩
  · intro k d hin
    refine Eq.trans (hmove.users d) ?_
    rcases hmove.origin hin with hold | heq | ⟨j, hnew⟩
    · exact hi.found k d hold
    · exact found_of_step hmove.threadStep heq.symm
    · cases hnew
  · intro v hv d hd
    rcases hmove.origin hv with hold | rfl | ⟨k, rfl⟩
    · exact hi.only v hold d hd
    · rcases job_of_step hmove.threadStep with hsame | hnone
      · exact hi.only t hmove.mem d (hsame.symm.trans hd)
      · rw [hnone] at hd
        cases hd
    · cases hd
  · have hle := hmove.having_le (.connect c)
    have hconnecting := hi.connecting
    show (if c ∈ s.conns then 0 else 1) + _ ≤ 1
    omega
  · intro v hv
    rcases mem_moved hv with hold | rfl | hnew
    · refine hmove.sees_mono hi (hi.sees v hold) fun call chatID heq hcaller => ?_
      by_cases hvt : v = t
      · exact Or.inl hvt
      · right
        refine hmove.alone ?_ hi.calling hold hvt
        rw [heq, ← hcaller]
        rfl
    · exact hself
    · exact hstarted v hnew
  · exact fun f hf => (hmove.queued_step hi hf).1.mono hmove.keeps
  · intro f hf
    obtain ⟨hgenuine, hbefore⟩ := hmove.queued_step hi hf
    exact hmove.before_step hi hgenuine hbefore

end Moves

/-- What the pumps and Redis do changes nothing of it. -/
theorem inOrder_of_same {s' : Server} (hi : InOrder a c u s) (hdb : s'.world.db = s.world.db)
    (husers : ∀ d, s'.world.hub.userOf d = s.world.hub.userOf d)
    (hlog : s'.world.hub.log = s.world.hub.log)
    (hopened : s'.world.router.opened = s.world.router.opened)
    (howner : ∀ k, (s'.world.router.pubsub k).userID = (s.world.router.pubsub k).userID)
    (hinbox : ∀ k, (s'.world.router.pubsub k).inbox = (s.world.router.pubsub k).inbox)
    (hthreads : s'.threads = s.threads) (hconns : s'.conns = s.conns) : InOrder a c u s' := by
  have hqueued : queued s'.world c = queued s.world c := by rw [queued, hlog]; rfl
  refine ⟨(husers c).trans hi.user, ?_, ?_, ?_, ?_, ?_, ?_, ?_, ?_, ?_⟩
  · rw [hthreads]
    exact fun k d hin => (husers d).trans (hi.found k d hin)
  · rw [hthreads]
    exact hi.only
  · rw [hthreads]
    exact hi.calling
  · rw [hthreads, hconns]
    exact hi.connecting
  · rw [hthreads]
    exact fun v hv => (hi.sees v hv).same hdb hopened hinbox
  · intro k hk ho
    rw [hopened] at hk
    rw [howner] at ho
    rw [hinbox, hdb]
    exact hi.inboxes k hk ho
  · rw [hqueued, hdb]
    exact hi.genuine
  · rw [hqueued]
    intro f hf
    obtain ⟨hbacklog, hinboxes, hhands⟩ := hi.before f hf
    refine ⟨?_, ?_, ?_⟩
    · rw [BeforeBacklog, hdb, husers, hthreads, hconns]
      exact hbacklog
    · intro k hk ho hx g hg
      rw [hopened] at hk
      rw [howner, husers] at ho
      rw [hinbox] at hg
      exact hinboxes k hk ho hx g hg
    · rw [hthreads, husers]
      exact hhands
  · rw [hqueued]
    exact hi.ordered

/-- A handler that starts has nothing in hand yet. -/
structure Starts (a : UUID) (c : ClientId) (s : Server) (v : Thread) (conns : List ClientId) :
    Prop where
  sees : ∀ w, Sees a (s.world.hub.userOf c) w v
  rows : remaining v = []
  hand : ∀ x, inHand x v = none
  sends : ∀ k pc, v ≠ .send k pc
  only : ∀ d, job v = some (.connect d) → d = c
  calls : job v = some (.call a) → ∀ t ∈ s.threads, job t ≠ some (.call a)
  connects : (if c ∈ conns then 0 else 1) + having (.connect c) v ≤ if c ∈ s.conns then 0 else 1
  ahead : c ∉ conns ∨ v.ahead c → c ∉ s.conns

theorem inOrder_spawn {v : Thread} {conns : List ClientId} (hi : InOrder a c u s)
    (hv : Starts a c s v conns) :
    InOrder a c u { s with threads := s.threads ++ [v], conns := conns } := by
  have horigin : ∀ x ∈ s.threads ++ [v], x ∈ s.threads ∨ x = v :=
    fun x hx => (List.mem_append.mp hx).imp (fun h => h) List.mem_singleton.mp
  refine ⟨hi.user, ?_, ?_, ?_, ?_, ?_, hi.inboxes, hi.genuine, ?_, hi.ordered⟩
  · intro k d hin
    rcases horigin _ hin with hold | hnew
    · exact hi.found k d hold
    · exact absurd hnew.symm (hv.sends k _)
  · intro x hx d hd
    rcases horigin x hx with hold | rfl
    · exact hi.only x hold d hd
    · exact hv.only d hd
  · rw [total_append]
    by_cases hcalls : job v = some (.call a)
    · have hnone : total (having (.call a)) s.threads = 0 :=
        total_eq_zero fun x hx => if_neg (hv.calls hcalls x hx)
      have hself : having (.call a) v = 1 := if_pos hcalls
      simp [hnone, hself]
    · have hself : having (.call a) v = 0 := if_neg hcalls
      have hcalling := hi.calling
      simpa [hself] using hcalling
  · have hconnecting := hi.connecting
    have hconnects := hv.connects
    simp only [total_append, total_cons, total_nil]
    omega
  · intro x hx
    rcases horigin x hx with hold | rfl
    · exact hi.sees x hold
    · have hsees := hv.sees s.world
      rw [hi.user] at hsees
      exact hsees
  · intro f hf
    obtain ⟨⟨hsnapshot, hdrain⟩, hinboxes, hhands⟩ := hi.before f hf
    refine ⟨⟨fun hahead => ?_, fun x hx p hp => ?_⟩, hinboxes, fun x hx g hg => ?_⟩
    · refine hsnapshot ?_
      rcases hahead with hfresh | ⟨x, hx, hxa⟩
      · exact Or.inl (hv.ahead (Or.inl hfresh))
      · rcases horigin x hx with hold | rfl
        · exact Or.inr ⟨x, hold, hxa⟩
        · exact Or.inl (hv.ahead (Or.inr hxa))
    · rcases horigin x hx with hold | rfl
      · exact hdrain x hold p hp
      · rw [hv.rows] at hp
        cases hp
    · rcases horigin x hx with hold | rfl
      · exact hhands x hold g hg
      · rw [hv.hand] at hg
        cases hg

theorem inOrder_start (h : NewTo c s) (hu : s.world.hub.userOf c = u) : InOrder a c u s := by
  subst hu
  have hjob : ∀ t ∈ s.threads, job t = none := by
    intro t ht
    have hidle := h.idle t ht
    cases t with
    | live d => rfl
    | forward k => rfl
    | done => rfl
    | _ => exact False.elim hidle
  have htotal : ∀ x, total (having x) s.threads = 0 := by
    intro x
    refine total_eq_zero fun t ht => ?_
    simp only [having, hjob t ht]
    rfl
  refine ⟨rfl, ?_, ?_, ?_, ?_, ?_, ?_, ?_, ?_, ?_⟩
  · exact fun k d hin => False.elim (h.idle _ hin)
  · intro t ht d hd
    rw [hjob t ht] at hd
    cases hd
  · rw [htotal]
    omega
  · rw [htotal]
    split <;> omega
  · intro t ht
    have hidle := h.idle t ht
    cases t with
    | live d => trivial
    | forward k => exact h.forwards k ht
    | done => trivial
    | _ => exact False.elim hidle
  · intro k hk howner
    rw [h.quiet k hk howner]
    exact ⟨fun g hg => (by cases hg), List.Pairwise.nil⟩
  · rw [h.unsent]
    exact fun f hf => by cases hf
  · rw [h.unsent]
    exact fun f hf => by cases hf
  · rw [h.unsent]
    exact List.Pairwise.nil

theorem inOrder_step {s' : Server} {act : Action} (hi : InOrder a c u s)
    (hG : Successive a c s act ∧ InTurn a c s act) (h : PeerServer.step s act = some s') :
    InOrder a c u s' := by
  cases act with
  | run i env =>
      obtain ⟨t, w', t', new, hn, ht, rfl⟩ := run_cases h
      exact Moves.inOrder ⟨hn, ht, hG.1 t hn, hG.2 t hn⟩ hi
  | dm call =>
      cases PeerServer.step_cases h with
      | dm =>
          refine inOrder_spawn hi ⟨fun _ => trivial, rfl, fun _ => rfl, fun _ _ h => (by cases h),
            fun d hd => (by cases hd), fun hcalls => ?_, ?_, ?_⟩
          · exact hG.1 (Job.call.inj (Option.some.inj hcalls))
          · simp [having, job]
          · exact fun hor => hor.elim (fun h => h) False.elim
  | connect d =>
      have hd : d = c := hG.1
      subst hd
      cases PeerServer.step_cases h with
      | connect _ hfresh =>
          refine inOrder_spawn hi ⟨fun _ => trivial, rfl, fun _ => rfl, fun _ _ h => (by cases h),
            fun e he => (Job.connect.inj (Option.some.inj he)).symm, fun hcalls => (by cases hcalls),
            ?_, fun _ => hfresh⟩
          simp [having, job, hfresh]
  | ack readerID call =>
      cases PeerServer.step_cases h with
      | ack =>
          refine inOrder_spawn hi ⟨fun _ => trivial, rfl, fun _ => rfl, fun _ _ h => (by cases h),
            fun d hd => (by cases hd), fun hcalls => (by cases hcalls), ?_, ?_⟩
          · simp [having, job]
          · exact fun hor => hor.elim (fun h => h) False.elim
  | activate k =>
      cases PeerServer.step_cases h with
      | activate =>
          exact inOrder_of_same hi rfl (fun _ => rfl) rfl rfl (activate_userID _ k)
            (activate_inbox _ k) rfl rfl
  | pumpWrite d ok =>
      cases PeerServer.step_cases h with
      | pumpWrite _ _ f rest _ _ =>
          exact inOrder_of_same hi rfl (popHub_userOf s.world.hub d) rfl rfl (fun _ => rfl)
            (fun _ => rfl) rfl rfl
  | pumpStop d =>
      cases PeerServer.step_cases h with
      | pumpStop _ _ =>
          exact inOrder_of_same hi rfl (fun _ => rfl) rfl rfl (fun _ => rfl) (fun _ => rfl) rfl rfl

/-- **IN THE ORDER OF THEIR ROWS**: whatever is interleaved with the connect, the frames
    of one sender's messages stand in the queue of the connection in the order in which
    their rows were created, provided that nothing older of the sender is on its way by
    another path whenever one is put there. -/
theorem sender_order {s₀ : Server} (h₀ : NewTo c s₀)
    (h : Reach PeerServer.step (fun s act => Successive a c s act ∧ InTurn a c s act) s₀ s) :
    (queued s.world c).Pairwise (RowsInOrder a s.world.db) := by
  have hi : InOrder a c (s₀.world.hub.userOf c) s :=
    Reach.invariant (fun _ _ _ hs hG hstep => inOrder_step hs hG hstep) h (inOrder_start h₀ rfl)
  refine hi.ordered.imp_of_mem fun hf hg hprec => ?_
  intro m hm m' hm' hma hma' hcarries hcarries'
  refine hprec _ ?_ _ ?_
  · rw [← hma]
    exact (hi.genuine _ hf).stamp_eq hm hcarries
  · rw [← hma']
    exact (hi.genuine _ hg).stamp_eq hm' hcarries'

end Runs

/-! ## Alice connects while bob writes -/

section Alice

instance (db : Db) (env : Env) (t : Thread) : Decidable (OnTime a db env t) :=
  match t with
  | .dmInsert call _ => inferInstanceAs (Decidable (call.senderID = a →
      ∀ m ∈ db.messages.rows, m.senderID = a → m.createdAt < env.now))
  | .dmFind _ | .dmCreate _ | .dmPublish _ _ | .dmMark _ _ | .connRegister _ | .connOnline _
  | .connOpen _ | .connFile _ _ | .connPending _ | .drain _ _ | .drainMark _ _ _ | .live _
  | .connOffline _ | .connUnfile _ | .connClose _ | .forward _ | .ackUpdate _ _
  | .ackPublish _ _ | .send _ _ | .done => isTrue trivial

instance (s : Server) (act : Action) : Decidable (Successive a c s act) :=
  match act with
  | .dm call => inferInstanceAs (Decidable (call.senderID = a →
      ∀ t ∈ s.threads, job t ≠ some (.call a)))
  | .connect d => inferInstanceAs (Decidable (d = c))
  | .run i env => inferInstanceAs (Decidable (∀ t ∈ s.threads[i]?, OnTime a s.world.db env t))
  | .ack _ _ | .activate _ | .pumpWrite _ _ | .pumpStop _ => isTrue trivial

instance (s : Server) (f : Frame) : Decidable (BeforeBacklog a c s f) :=
  inferInstanceAs (Decidable (_ ∧ _))

instance (s : Server) (x : Option SubId) (f : Frame) : Decidable (BeforePublished a c s x f) :=
  inferInstanceAs (Decidable (_ ∧ _))

instance (s : Server) (k : Kont) : Decidable (AheadOfOthers a c s k) :=
  match k with
  | .dmLive call stored => inferInstanceAs (Decidable
      (BeforeBacklog a c s (call.outbound stored) ∧
        BeforePublished a c s none (call.outbound stored)))
  | .drain _ _ row _ => inferInstanceAs (Decidable (BeforePublished a c s none (drainFrame row)))
  | .forward j _ f => inferInstanceAs (Decidable
      (BeforeBacklog a c s f ∧ BeforePublished a c s (some j) f))
  | .dmAck _ _ | .ackNotify _ _ => isTrue trivial

instance (s : Server) (t : Thread) : Decidable (Clear a c s t) :=
  match t with
  | .send k (.select d) => inferInstanceAs (Decidable (d = c →
      (s.world.hub.chan c).closed = false →
      (s.world.hub.chan c).buf.length < (s.world.hub.chan c).cap → AheadOfOthers a c s k))
  | .send _ .lookup | .send _ (.evict _) | .dmFind _ | .dmCreate _ | .dmInsert _ _
  | .dmPublish _ _ | .dmMark _ _ | .connRegister _ | .connOnline _ | .connOpen _ | .connFile _ _
  | .connPending _ | .drain _ _ | .drainMark _ _ _ | .live _ | .connOffline _ | .connUnfile _
  | .connClose _ | .forward _ | .ackUpdate _ _ | .ackPublish _ _ | .done => isTrue trivial

instance (s : Server) (act : Action) : Decidable (InTurn a c s act) :=
  match act with
  | .run i _ => inferInstanceAs (Decidable (∀ t ∈ s.threads[i]?, Clear a c s t))
  | .dm _ | .connect _ | .ack _ _ | .activate _ | .pumpWrite _ _ | .pumpStop _ => isTrue trivial

end Alice

/-- Bob's second message, a second later. -/
def laterEnv : Env := Env.fine ⟨10⟩ ⟨21⟩ 2

theorem start_new : NewTo 0 (start threeUsers oneUser) where
  idle := fun _ ht => by cases ht
  forwards := fun _ hin => by cases hin
  fresh := by decide
  unsent := rfl
  quiet := fun _ hk => by cases hk

/-- Bob's first message is drained before he writes the second. -/
theorem sender_order_drained : ∃ s : Server,
    Reach PeerServer.step (fun s act => Successive ⟨2⟩ 0 s act ∧ InTurn ⟨2⟩ 0 s act)
      (start threeUsers oneUser) s ∧
    (queued s.world 0).length = 2 ∧
    (queued s.world 0).Pairwise (RowsInOrder ⟨2⟩ s.world.db) := by
  obtain ⟨s, hs, hlength⟩ := exists_reach_of_replayGuarded PeerServer.step
    (fun s act => Successive ⟨2⟩ 0 s act ∧ InTurn ⟨2⟩ 0 s act) (start threeUsers oneUser)
    (.dm bobsCall :: List.replicate 6 (.run 0 fineEnv) ++
      .connect 0 :: List.replicate 10 (.run 1 fineEnv) ++
      .dm bobsCall :: List.replicate 6 (.run 3 laterEnv))
    (fun s => (queued s.world 0).length = 2) (by decide +kernel)
  exact ⟨s, hs, hlength, sender_order start_new hs⟩

/-- **THE LIVE MESSAGE OVERTAKES**: bob's second message is sent while his first is in
    the drain's hands. -/
theorem live_overtakes_backlog : ¬ ∀ s : Server,
    Reach PeerServer.step (fun s act => Successive ⟨2⟩ 0 s act ∧ DbUp act)
      (start threeUsers oneUser) s →
    (queued s.world 0).Pairwise (RowsInOrder ⟨2⟩ s.world.db) := by
  intro hall
  obtain ⟨s, hs, hwrong⟩ := exists_reach_of_replayGuarded PeerServer.step
    (fun s act => Successive ⟨2⟩ 0 s act ∧ DbUp act) (start threeUsers oneUser)
    (.dm bobsCall :: List.replicate 6 (.run 0 fineEnv) ++
      .connect 0 :: List.replicate 5 (.run 1 fineEnv) ++
      .dm bobsCall :: List.replicate 6 (.run 3 laterEnv) ++ List.replicate 5 (.run 1 fineEnv))
    (fun s => ¬ (queued s.world 0).Pairwise (RowsInOrder ⟨2⟩ s.world.db)) (by decide +kernel)
  exact hwrong (hall s hs)

end PeerSenderOrder
