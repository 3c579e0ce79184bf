import PeerChat.ServerProofs

/-! # Messages on their way

    What the delivery results share: which messages a thread may still enqueue
    (its POTS), how often a message has been enqueued so far, and how the world
    GROWS: whatever a step does, rows keep their identity, members stay members
    and the log of channel sends only gets longer. -/

namespace PeerServer

open PeerEnv KeyedTable BufferedChan PeerHub PeerStore PeerFrame PeerWorld PeerHandler
open Transition ThreadPool

/-- The statements of `HandleDM` and of the drain. -/
def dbStmts : List Stmt :=
  [.findChat, .beginTx, .insertChat, .insertMembers, .commit, .insertMessage,
    .updateStatus, .pending]

/-- Database statements succeed. -/
def DbUp : Action → Prop
  | .run _ env => ∀ st ∈ dbStmts, env.ok st = true
  | _ => True

instance (a : Action) : Decidable (DbUp a) :=
  match a with
  | .run _ _ => inferInstanceAs (Decidable (∀ st ∈ dbStmts, _))
  | .dm _ | .connect _ | .ack _ _ | .activate _ | .pumpWrite _ _ | .pumpStop _ =>
      isTrue trivial

/-- No read acks. -/
def NoAck : Action → Prop
  | .ack _ _ => False
  | _ => True

instance (a : Action) : Decidable (NoAck a) :=
  match a with
  | .ack _ _ => isFalse id
  | .dm _ | .connect _ | .run _ _ | .activate _ | .pumpWrite _ _ | .pumpStop _ =>
      isTrue trivial

/-- The messages of a list of pending rows. -/
def rowIds (rows : List PendingMessage) : List UUID := rows.map fun p => p.message.id

/-- The message a `Send` enqueues for the path it is on. -/
def Kont.pot : Kont → List UUID
  | .dmLive _ stored => [stored.id]
  | .drain _ _ row _ => [row.message.id]
  | _ => []

/-- The messages that come after it. -/
def Kont.rest : Kont → List UUID
  | .drain _ _ _ rest => rowIds rest
  | _ => []

/-- What a `Send` at `pc` may still enqueue: nothing once its channel was full. -/
def sendPot (k : Kont) : SendPc → List UUID
  | .evict _ => []
  | _ => k.pot

/-- The messages a thread may still enqueue. -/
def Thread.pots : Thread → List UUID
  | .send k pc => sendPot k pc ++ k.rest
  | .drain _ rows => rowIds rows
  | .drainMark _ _ rest => rowIds rest
  | _ => []

/-- How often the frame of a message has been enqueued. -/
def logged (w : World) (id : UUID) : Nat := w.hub.log.countP fun e => e.2.carries id

/-! ## The frames of the `Send`s -/

/-- Is it the frame of a direct message? -/
def isDM : Frame → Bool
  | .message .. => true
  | _ => false

/-- Only direct messages carry an id. -/
theorem carries_of_not_dm {f : Frame} (h : isDM f = false) (id : UUID) :
    f.carries id = false := by
  cases f with
  | message _ _ _ _ _ => cases h
  | _ => rfl

@[simp] theorem outbound_carries (call : DmCall) (stored : Message) (id : UUID) :
    (call.outbound stored).carries id = decide (stored.id = id) := rfl

@[simp] theorem drainFrame_carries (row : PendingMessage) (id : UUID) :
    (drainFrame row).carries id = decide (row.message.id = id) := rfl

theorem logged_push (w : World) (c : ClientId) (ch : Chan Frame) (f : Frame) (id : UUID) :
    logged { w with hub := w.hub.push c ch f } id
      = logged w id + if f.carries id then 1 else 0 := by
  simp only [logged, push_log, List.countP_append, List.countP_singleton]

/-- A `Send` that has returned leaves the messages after it. -/
theorem pots_resume (k : Kont) (ok : Bool) : (k.resume ok).pots = k.rest := by
  cases k with
  | dmLive call stored => cases ok <;> rfl
  | ackNotify senderID messageID => cases ok <;> rfl
  | _ => rfl

/-- A quiet step leaves the pots as they were. -/
theorem pots_quiet {w : World} {t t' : Thread} {new : List Thread}
    (h : Quiet w t t' new) : t'.pots = t.pots ∧ ∀ u ∈ new, u.pots = [] := by
  cases h with
  | filed c sub =>
      refine ⟨rfl, ?_⟩
      intro u hu
      rw [List.mem_singleton.mp hu]
      rfl
  | _ => exact ⟨rfl, fun u hu => (by cases hu)⟩

/-- The frame of a `Send` is the frame of the message in its pot. -/
theorem carries_of_pot {k : Kont} {id : UUID} (h : id ∈ k.pot) : k.data.carries id = true := by
  cases k with
  | dmLive call stored =>
      rw [List.mem_singleton.mp h]
      exact decide_eq_true rfl
  | drain c u row rest =>
      rw [List.mem_singleton.mp h]
      exact decide_eq_true rfl
  | _ => cases h

/-! ## What every step keeps -/

/-- The world after a step, as far as identities and histories go. -/
structure Grows (w w' : World) : Prop where
  users : ∀ c, w'.hub.userOf c = w.hub.userOf c
  keys : ∀ id ∈ w.db.messages.keys, id ∈ w'.db.messages.keys
  members : ∀ c u, w.db.Member c u → w'.db.Member c u
  log : ∀ e ∈ w.hub.log, e ∈ w'.hub.log
  record : ∀ p ∈ w.addressed, p ∈ w'.addressed
  addressed : ∀ p ∈ w'.addressed, p ∈ w.addressed ∨
    (p.1 ∉ w.db.messages.keys ∧ p.1 ∈ w'.db.messages.keys)

/-- A step that leaves rows, members and addressees alone. -/
theorem Grows.of_same {w w' : World} (hmessages : w'.db.messages.keys = w.db.messages.keys)
    (hmembers : w'.db.chatMembers = w.db.chatMembers)
    (husers : ∀ c, w'.hub.userOf c = w.hub.userOf c)
    (hlog : ∀ e ∈ w.hub.log, e ∈ w'.hub.log) (haddr : w'.addressed = w.addressed) :
    Grows w w' where
  users := husers
  keys := by
    intro id hid
    rw [hmessages]
    exact hid
  members := by
    intro c u hm
    rw [Db.Member, hmembers]
    exact hm
  log := hlog
  record := by
    rw [haddr]
    exact fun _ hp => hp
  addressed := by
    rw [haddr]
    exact fun _ hp => Or.inl hp

theorem Grows.of_mark (w : World) (env : Env) (id : UUID) :
    Grows w (markDelivered w env id) := by
  refine Grows.of_same ?_ ?_ ?_ ?_ (markDelivered_addressed w env id)
  · exact markDelivered_keys w env id
  · exact markDelivered_chatMembers w env id
  · intro c
    rw [markDelivered_hub]
  · intro e he
    rw [markDelivered_hub]
    exact he

/-- No step of a goroutine loses anything. -/
theorem ThreadStep.grows {w w' : World} {env : Env} {t t' : Thread} {new : List Thread}
    (h : ThreadStep w env t w' t' new) : Grows w w' := by
  cases h with
  | quiet hdb hhub haddr hq =>
      refine Grows.of_same (by rw [hdb]) (by rw [hdb]) (by rw [hhub]; exact fun _ => rfl) ?_ haddr
      rw [hhub]
      exact fun _ he => he
  | created call db hc =>
      have hcr := createChat_ok hc
      refine ⟨fun _ => rfl, ?_, ?_, fun _ he => he, fun _ hp => hp, fun _ hp => Or.inl hp⟩
      · intro id hid
        show id ∈ db.messages.keys
        rw [hcr.messages]
        exact hid
      · intro c u hm
        exact (hcr.members c u).mpr (Or.inl hm)
  | stored call chatID db stored hi =>
      obtain ⟨-, hst⟩ := insertMessage_ok hi
      have hkeys : ∀ m ∈ db.messages.rows, m.id ∈ db.messages.keys :=
        fun _ hm => key_mem_keys hm
      rw [hst.messages] at hkeys
      refine ⟨fun _ => rfl, ?_, ?_, fun _ he => he,
        fun _ hp => List.mem_append_left _ hp, ?_⟩
      · intro id hid
        obtain ⟨m, hm, rfl⟩ := mem_keys.mp hid
        exact hkeys m (List.mem_append_left _ hm)
      · intro c u hm
        show _ ∈ db.chatMembers.rows
        rw [hst.chatMembers]
        exact hm
      · intro p hp
        rcases List.mem_append.mp hp with hold | hnew
        · exact Or.inl hold
        · rw [List.mem_singleton.mp hnew]
          exact Or.inr ⟨hst.fresh, hkeys stored
            List.mem_concat_self⟩
  | sendGoto k pc pc' hub hs => exact Grows.of_same rfl rfl hs.userOf hs.log_mono rfl
  | sendReturned k pc hub ok hs => exact Grows.of_same rfl rfl hs.userOf hs.log_mono rfl
  | marked call stored => exact Grows.of_mark w env stored.id
  | drainMarked c row rest => exact Grows.of_mark w env row.message.id
  | acked readerID call hok =>
      exact Grows.of_same (setStatus_keys w.db call.messageID .read) rfl (fun _ => rfl)
        (fun _ he => he) rfl
  | ended c =>
      refine Grows.of_same rfl rfl (fun d => unregister_userOf w.hub c d) ?_ rfl
      intro e he
      show e ∈ (w.hub.unregister c).log
      rw [unregister_log]
      exact he
  | _ => exact Grows.of_same rfl rfl (fun _ => rfl) (fun _ he => he) rfl

/-- The frame of the message has been enqueued on `c`. -/
def Enqueued (w : World) (c : ClientId) (id : UUID) : Prop :=
  ∃ e ∈ w.hub.log, e.1 = c ∧ e.2.carries id = true

/-- What was enqueued stays enqueued. -/
theorem Enqueued.mono {w w' : World} {c : ClientId} {id : UUID} (h : Enqueued w c id)
    (hg : Grows w w') : Enqueued w' c id := by
  obtain ⟨e, he, hc, hid⟩ := h
  exact ⟨e, hg.log e he, hc, hid⟩

/-- A `Send` that goes through enqueues the message in its pot. -/
theorem enqueued_of_push (w : World) (c : ClientId) (ch : Chan Frame) {k : Kont} {id : UUID}
    (hid : id ∈ k.pot) : Enqueued { w with hub := w.hub.push c ch k.data } c id := by
  refine ⟨(c, k.data), ?_, rfl, carries_of_pot hid⟩
  show (c, k.data) ∈ (w.hub.push c ch k.data).log
  rw [push_log]
  exact List.mem_concat_self

/-! ## The record of addressees -/

/-- A stored message gets no new addressee. -/
theorem Grows.addressed_of {w w' : World} (hg : Grows w w') {id v : UUID}
    (hid : id ∈ w.db.messages.keys) (h : (id, v) ∈ w'.addressed) : (id, v) ∈ w.addressed := by
  rcases hg.addressed _ h with hold | ⟨hfresh, -⟩
  · exact hold
  · exact absurd hid hfresh

/-- Whoever a message is addressed to is in the message's chat, and so is the
    sender of a message about to be stored. -/
structure Ledger (s : Server) : Prop where
  known : ∀ p ∈ s.world.addressed, p.1 ∈ s.world.db.messages.keys
  members : ∀ m ∈ s.world.db.messages.rows, ∀ v, (m.id, v) ∈ s.world.addressed →
    s.world.db.Member m.chatID v
  inserting : ∀ call chatID, .dmInsert call chatID ∈ s.threads →
    s.world.db.Member chatID call.senderID ∧ s.world.db.Member chatID call.receiverID

/-- A step of a thread, with what the others do not see of it. -/
theorem Ledger.grow {s : Server} {w' : World} {ts : List Thread} (hl : Ledger s)
    (hg : Grows s.world w')
    (hrows : ∀ m' ∈ w'.db.messages.rows, ∀ v, (m'.id, v) ∈ w'.addressed →
      (∃ m ∈ s.world.db.messages.rows, m.id = m'.id ∧ m.chatID = m'.chatID) ∨
        w'.db.Member m'.chatID v)
    (hinserting : ∀ call chatID, .dmInsert call chatID ∈ ts →
      .dmInsert call chatID ∈ s.threads ∨
        (w'.db.Member chatID call.senderID ∧ w'.db.Member chatID call.receiverID))
    {sockets : ClientId → Socket} {conns : List ClientId} :
    Ledger ⟨w', ts, sockets, conns⟩ where
  known := by
    intro p hp
    rcases hg.addressed p hp with hold | ⟨-, hkey⟩
    · exact hg.keys _ (hl.known p hold)
    · exact hkey
  members := by
    intro m' hm' v hv
    rcases hrows m' hm' v hv with ⟨m, hm, hid, hchat⟩ | hmember
    · rw [← hid] at hv
      rw [← hchat]
      exact hg.members _ _ (hl.members m hm v (hg.addressed_of (key_mem_keys hm) hv))
    · exact hmember
  inserting := by
    intro call chatID hin
    rcases hinserting call chatID hin with hold | hmember
    · obtain ⟨hsender, hreceiver⟩ := hl.inserting call chatID hold
      exact ⟨hg.members _ _ hsender, hg.members _ _ hreceiver⟩
    · exact hmember

/-- A step outside the threads, or one that starts a thread. -/
theorem Ledger.keep {s t : Server} (hl : Ledger s) (hdb : t.world.db = s.world.db)
    (haddr : t.world.addressed = s.world.addressed)
    (hts : ∀ call chatID, .dmInsert call chatID ∈ t.threads →
      .dmInsert call chatID ∈ s.threads) : Ledger t where
  known := by
    intro p hp
    rw [hdb]
    exact hl.known p (haddr ▸ hp)
  members := by
    intro m hm v hv
    rw [hdb] at hm ⊢
    exact hl.members m hm v (haddr ▸ hv)
  inserting := by
    intro call chatID hin
    rw [hdb]
    exact hl.inserting call chatID (hts call chatID hin)

/-- What a step of a thread leads to inserting. -/
theorem inserting_of_step {w w' : World} {env : Env} {t t' : Thread} {new : List Thread}
    (h : ThreadStep w env t w' t' new) :
    (∀ call chatID, t' = .dmInsert call chatID →
      w'.db.Member chatID call.senderID ∧ w'.db.Member chatID call.receiverID) ∧
    ∀ call chatID, .dmInsert call chatID ∉ new := by
  cases h with
  | quiet hdb hhub haddr hq =>
      cases hq with
      | filed c sub =>
          refine ⟨fun _ _ heq => (by cases heq), ?_⟩
          intro call chatID hin
          cases List.mem_singleton.mp hin
      | _ => exact ⟨fun _ _ heq => (by cases heq), fun _ _ hin => (by cases hin)⟩
  | found call chatID hf =>
      refine ⟨?_, fun _ _ hin => (by cases hin)⟩
      intro call' chatID' heq
      cases heq
      exact findChat_ok hf
  | created call db hc =>
      refine ⟨?_, fun _ _ hin => (by cases hin)⟩
      intro call' chatID' heq
      cases heq
      have hmembers := (createChat_ok hc).members
      exact ⟨(hmembers _ _).mpr (Or.inr ⟨rfl, Or.inl rfl⟩),
        (hmembers _ _).mpr (Or.inr ⟨rfl, Or.inr rfl⟩)⟩
  | sendReturned k pc hub ok hs =>
      refine ⟨?_, fun _ _ hin => (by cases hin)⟩
      intro call chatID heq
      cases k <;> cases ok <;> cases heq
  | acked readerID call hok =>
      refine ⟨?_, fun _ _ hin => (by cases hin)⟩
      intro call' chatID heq
      rw [ackNext] at heq
      split at heq
      · cases heq
      · cases heq
  | _ => exact ⟨fun _ _ heq => (by cases heq), fun _ _ hin => (by cases hin)⟩

/-- Every step keeps the ledger. -/
theorem ledger_step {s t : Server} {a : Action} (hl : Ledger s) (h : Stepped s a t) :
    Ledger t := by
  -- the threads that an action starts insert nothing yet
  have hspawn : ∀ u, (∀ call chatID, u ≠ .dmInsert call chatID) → ∀ call chatID,
      .dmInsert call chatID ∈ s.threads ++ [u] → .dmInsert call chatID ∈ s.threads := by
    intro u hu call chatID hin
    rcases List.mem_append.mp hin with hold | hnew
    · exact hold
    · exact absurd (List.mem_singleton.mp hnew).symm (hu call chatID)
  cases h with
  | dm call => exact hl.keep rfl rfl (hspawn (.dmFind call) fun _ _ heq => (by cases heq))
  | connect c _ => exact hl.keep rfl rfl (hspawn (.connRegister c) fun _ _ heq => (by cases heq))
  | ack readerID call =>
      exact hl.keep rfl rfl (hspawn (.ackUpdate readerID call) fun _ _ heq => (by cases heq))
  | run i env th w th' new hth hstep =>
      refine hl.grow hstep.grows ?_ ?_
      · intro m' hm' v hv
        rcases row_of_step hstep hm' with ⟨m, hm, hid, hchat, -⟩ |
          ⟨call, rfl, -, hfresh, -, -, haddr⟩
        · exact Or.inl ⟨m, hm, hid, hchat⟩
        · right
          rw [haddr] at hv
          rcases List.mem_append.mp hv with hold | hnew
          · exact absurd (hl.known _ hold) hfresh
          · have hto : v = call.receiverID := congrArg Prod.snd (List.mem_singleton.mp hnew)
            rw [hto]
            exact hstep.grows.members _ _
              (hl.inserting call m'.chatID (List.mem_of_getElem? hth)).2
      · intro call chatID hin
        obtain ⟨hself, hnew⟩ := inserting_of_step hstep
        rcases mem_moved hin with hold | heq | hstarted
        · exact Or.inl hold
        · exact Or.inr (hself call chatID heq.symm)
        · exact absurd hstarted (hnew call chatID)
  | activate sub => exact hl.keep rfl rfl fun _ _ hin => hin
  | pumpWrite c ok f rest _ _ => exact hl.keep rfl rfl fun _ _ hin => hin
  | pumpStop c _ => exact hl.keep rfl rfl fun _ _ hin => hin

/-- Every server that was started keeps its ledger. -/
theorem ledger_of_reach {db : Db} {who : ClientId → UUID × String} {s : Server}
    (h : Reach step anyStep (start db who) s) : Ledger s := by
  refine Reach.invariant (fun _ _ _ hs _ ht => ledger_step hs (step_cases ht)) h ?_
  exact ⟨fun _ hp => (by cases hp), fun _ _ _ hv => (by cases hv), fun _ _ hin => (by cases hin)⟩

end PeerServer
