import PeerChat.ClusterProofs
import PeerChat.DeliveryProofs
import PeerChat.ChatPairProofs

/-! # The chats, and whose message is pending

    Every chat has two members, its messages are theirs, and so a message that is
    still 'sent' is pending for exactly one user: the member who did not write it.
    It holds over every interleaving of the handlers and the history requests of
    all instances, whichever of their statements fail. -/

namespace PeerChatStore

open PeerEnv KeyedTable PeerHub PeerStore PeerWorld PeerHandler PeerServer PeerCluster PeerChatPair
open Transition ThreadPool

/-- **THE LAW OF THE CHAT TABLES.** -/
structure ChatLaw (db : Db) : Prop where
  pairs : ∀ c ∈ db.chats.rows, ∃ a b, a ≠ b ∧ ∀ u, db.Member c u ↔ u = a ∨ u = b
  senders : ∀ m ∈ db.messages.rows, db.Member m.chatID m.senderID
  pending : ∀ m ∈ db.messages.rows, m.status = .sent →
    ∃ r, r ≠ m.senderID ∧
      ∀ u, (db.pendingRows u).countP (fun p => p.message = m) = if u = r then 1 else 0

/-- The part of it that the statements keep. -/
structure ChatRows (db : Db) : Prop where
  pairs : ∀ c ∈ db.chats.rows, ∃ a b, a ≠ b ∧ ∀ u, db.Member c u ↔ u = a ∨ u = b
  senders : ∀ m ∈ db.messages.rows, db.Member m.chatID m.senderID

/-! ## `GET /messages` -/

/-- Where a `GET /messages` request stands. -/
inductive Request where
  | lookup (l : Lookup)
  | history (chatID : UUID)
  | answered (rows : List PendingMessage)
  | failed

/-- One statement of the request: `FindOrCreateChat`, then the `SELECT`. -/
def stepRequest (db : Db) (env : Env) : Request → Option (Db × Request)
  | .lookup (.returned _ _ chatID) => some (db, .history chatID)
  | .lookup (.failed _ _) => some (db, .failed)
  | .lookup l => (stepLookup db env l).map fun (db, l) => (db, .lookup l)
  | .history chatID =>
      if env.ok .history then
        some (db, .answered ((db.historyRows chatID).take historyLimit))
      else some (db, .failed)
  | .answered _ => none
  | .failed => none

/-- What a `GET /messages` request has come to. -/
def answer : Except HttpError (List PendingMessage) → Request
  | .ok rows => .answered (rows.take historyLimit)
  | .error _ => .failed

/-- The lookup of a request is a call of `FindOrCreateChat`. -/
theorem lookup_runs {env : Env} {s t : Db × Lookup}
    (h : Runs (fun s => stepLookup s.1 env s.2) s t) :
    Runs (fun s => stepRequest s.1 env s.2) (s.1, .lookup s.2) (t.1, .lookup t.2) := by
  induction h with
  | refl => exact Runs.refl _
  | tail _ hstep ih =>
      rename_i b c _
      refine Relation.ReflTransGen.tail ih ?_
      obtain ⟨db, l⟩ := b
      cases l with
      | find x y => simp only [stepRequest, hstep, Option.map_some]
      | create x y => simp only [stepRequest, hstep, Option.map_some]
      | returned x y chatID => cases hstep
      | failed x y => cases hstep

/-- **A REQUEST THAT NOBODY INTERRUPTS IS THE HANDLER**, up to its `LIMIT`. -/
theorem request_alone (w : World) (env : Env) (myID partnerID : UUID) :
    Runs (fun s => stepRequest s.1 env s.2) (w.db, .lookup (.find myID partnerID))
      ((selectHistory w env myID partnerID).1.db,
        answer (selectHistory w env myID partnerID).2) := by
  refine Relation.ReflTransGen.trans
    (lookup_runs (PeerChatPair.running_alone w.db env myID partnerID)) ?_
  rw [selectHistory]
  cases hf : w.db.findOrCreateChat env myID partnerID with
  | mk db result =>
      cases result with
      | error e => exact Runs.step rfl (Runs.refl _)
      | ok chatID =>
          refine Runs.step rfl (Runs.step (t := (db, answer (if env.ok .history then
            .ok (db.historyRows chatID) else .error ⟨500, "history fetch failed"⟩))) ?_ ?_)
          · simp only [stepRequest]
            split <;> rfl
          · simp only
            split <;> exact Runs.refl _

/-! ## The system -/

variable {ι : Type} [DecidableEq ι]

/-- The instances, and the history requests they serve. -/
structure State (ι : Type) extends Deployment ι where
  requests : List Request

inductive Act (ι : Type) where
  | serve (i : ι) (a : Action)
  | get (myID partnerID : UUID)
  | run (i : Nat) (env : Env)

def step (s : State ι) : Act ι → Option (State ι)
  | .serve i a => (PeerCluster.step s.toDeployment (i, a)).map fun d => { s with toDeployment := d }
  | .get myID partnerID =>
      some { s with requests := s.requests ++ [.lookup (.find myID partnerID)] }
  | .run i env =>
      match s.requests[i]? with
      | none => none
      | some r =>
          match stepRequest s.db env r with
          | none => none
          | some (db, r') => some { s with db := db, requests := moved s.requests i r' [] }

def start (db : Db) (who : ι → ClientId → UUID × String) : State ι :=
  ⟨PeerCluster.start db who, []⟩

/-! ## Pending for exactly one user -/

/-- A message is pending for `u` once if it passes the filter, and else not. -/
theorem count_pending {db : Db} {m : Message} (hm : m ∈ db.messages.rows)
    (hst : m.status = .sent) (u : UUID) :
    (db.pendingRows u).countP (fun p => p.message = m)
      = if db.Member m.chatID u ∧ m.senderID ≠ u then 1 else 0 := by
  have hle : (db.pendingRows u).countP (fun p => p.message = m) ≤ 1 := by
    have hcount := List.nodup_iff_count_le_one.mp (pendingRows_nodup db u) m.id
    rw [List.count, List.countP_map] at hcount
    refine le_trans (List.countP_mono_left ?_) hcount
    intro p _ hp
    simp only [Function.comp, beq_iff_eq]
    rw [of_decide_eq_true hp]
  by_cases hu : db.Member m.chatID u ∧ m.senderID ≠ u
  · obtain ⟨p, hp, hpm⟩ := exists_pendingRow hm hu.1 hu.2 hst
    have hpos : 0 < (db.pendingRows u).countP (fun p => p.message = m) :=
      List.countP_pos_iff.mpr ⟨p, hp, decide_eq_true hpm⟩
    rw [if_pos hu]
    omega
  · rw [if_neg hu, List.countP_eq_zero]
    intro p hp hpm
    obtain ⟨-, hmember, hother, -⟩ := mem_pendingRows.mp hp
    rw [of_decide_eq_true hpm] at hmember hother
    exact hu ⟨hmember, hother⟩

theorem law_of_rows {db : Db} (h : ChatRows db) : ChatLaw db where
  pairs := h.pairs
  senders := h.senders
  pending := by
    intro m hm hst
    obtain ⟨a, b, hab, hmembers⟩ := h.pairs m.chatID (db.message_chat m hm)
    -- the receiver is whoever of the two did not write it
    have hone : ∀ r, r ≠ m.senderID → (∀ u, db.Member m.chatID u ↔ u = m.senderID ∨ u = r) →
        ∃ r, r ≠ m.senderID ∧ ∀ u,
          (db.pendingRows u).countP (fun p => p.message = m) = if u = r then 1 else 0 := by
      intro r hr hboth
      refine ⟨r, hr, fun u => ?_⟩
      rw [count_pending hm hst u]
      refine if_congr ?_ rfl rfl
      rw [hboth u]
      constructor
      · rintro ⟨hu | hu, hne⟩
        · exact absurd hu.symm hne
        · exact hu
      · intro hu
        rw [hu]
        exact ⟨Or.inr rfl, Ne.symm hr⟩
    rcases (hmembers m.senderID).mp (h.senders m hm) with hs | hs
    · exact hone b (by rw [hs]; exact Ne.symm hab) (by rw [hs]; exact hmembers)
    · refine hone a (by rw [hs]; exact hab) fun u => ?_
      rw [hs, hmembers u]
      exact Or.comm

/-! ## What the statements keep -/

/-- A statement that leaves the chats and their members alone. -/
theorem ChatRows.keep {db db' : Db} (h : ChatRows db) (hchats : db'.chats = db.chats)
    (hmembers : db'.chatMembers = db.chatMembers)
    (hsenders : ∀ m' ∈ db'.messages.rows, db'.Member m'.chatID m'.senderID) : ChatRows db' where
  pairs := by
    intro c hc
    rw [hchats] at hc
    obtain ⟨a, b, hab, hiff⟩ := h.pairs c hc
    refine ⟨a, b, hab, fun u => ?_⟩
    rw [Db.Member, hmembers]
    exact hiff u
  senders := hsenders

/-- A committed chat transaction. -/
theorem ChatRows.created {db db' : Db} {env : Env} {a b : UUID} (h : ChatRows db)
    (hc : db.createChat env a b = .ok db') : ChatRows db' where
  pairs := by
    have hcr := createChat_ok hc
    intro c hin
    rw [createChat_chats hc] at hin
    rcases List.mem_append.mp hin with hold | hnew
    · obtain ⟨x, y, hxy, hiff⟩ := h.pairs c hold
      refine ⟨x, y, hxy, fun u => ?_⟩
      rw [hcr.members c u, ← hiff u]
      refine ⟨?_, Or.inl⟩
      rintro (hm | ⟨rfl, -⟩)
      · exact hm
      · -- an old chat has a member, the new one had none
        exact absurd ((hiff x).mpr (Or.inl rfl)) (hcr.fresh x)
    · rw [List.mem_singleton.mp hnew]
      refine ⟨a, b, hcr.distinct, fun u => ?_⟩
      rw [hcr.members env.newChat u]
      constructor
      · rintro (hm | ⟨-, hu⟩)
        · exact absurd hm (hcr.fresh u)
        · exact hu
      · exact fun hu => Or.inr ⟨rfl, hu⟩
  senders := by
    have hcr := createChat_ok hc
    intro m hm
    rw [hcr.messages] at hm
    exact (hcr.members _ _).mpr (Or.inl (h.senders m hm))

/-- What a step of a thread does to the chats. -/
theorem chats_of_step {w w' : World} {env : Env} {t t' : Thread} {new : List Thread}
    (h : ThreadStep w env t w' t' new) :
    (w'.db.chats = w.db.chats ∧ w'.db.chatMembers = w.db.chatMembers) ∨
      ∃ a b, w.db.createChat env a b = .ok w'.db := by
  cases h with
  | quiet hdb hhub haddr hq => exact Or.inl (by rw [hdb]; exact ⟨rfl, rfl⟩)
  | created call db hc => exact Or.inr ⟨_, _, hc⟩
  | stored call chatID db stored hi =>
      exact Or.inl ⟨insertMessage_chats hi, (insertMessage_ok hi).2.chatMembers⟩
  | marked call stored =>
      exact Or.inl ⟨markDelivered_chats w env _, markDelivered_chatMembers w env _⟩
  | drainMarked c row rest =>
      exact Or.inl ⟨markDelivered_chats w env _, markDelivered_chatMembers w env _⟩
  | _ => exact Or.inl ⟨rfl, rfl⟩

/-- A thread that inserts does so for a chat its sender is in. -/
theorem ChatRows.of_threadStep {w w' : World} {env : Env} {t t' : Thread} {new : List Thread}
    (h : ChatRows w.db) (hstep : ThreadStep w env t w' t' new)
    (hinserting : ∀ call chatID, t = .dmInsert call chatID →
      w.db.Member chatID call.senderID) : ChatRows w'.db := by
  rcases chats_of_step hstep with ⟨hchats, hmembers⟩ | ⟨a, b, hc⟩
  · refine h.keep hchats hmembers ?_
    intro m' hm'
    rw [Db.Member, hmembers]
    rcases row_of_step hstep hm' with ⟨m, hm, -, hchat, hsender, -⟩ |
      ⟨call, hcall, -, -, -, hsender, -⟩
    · rw [← hchat, ← hsender]
      exact h.senders m hm
    · rw [hsender]
      exact hinserting call m'.chatID hcall
  · exact h.created hc

theorem ChatRows.of_request {db db' : Db} {env : Env} {r r' : Request} (h : ChatRows db)
    (hstep : stepRequest db env r = some (db', r')) :
    ChatRows db' ∧ ∀ c u, db.Member c u → db'.Member c u := by
  have hlookup : ∀ l l', stepLookup db env l = some (db', l') →
      ChatRows db' ∧ ∀ c u, db.Member c u → db'.Member c u := by
    intro l l' hl
    cases lookupStep_of_stepLookup hl with
    | created a b db' hc =>
        exact ⟨h.created hc, fun c u hm => ((createChat_ok hc).members c u).mpr (Or.inl hm)⟩
    | _ => exact ⟨h, fun _ _ hm => hm⟩
  have hsame : db = db' → ChatRows db' ∧ ∀ c u, db.Member c u → db'.Member c u := by
    rintro rfl
    exact ⟨h, fun _ _ hm => hm⟩
  cases r with
  | lookup l =>
      cases l with
      | returned a b c =>
          cases hstep
          exact hsame rfl
      | failed a b =>
          cases hstep
          exact hsame rfl
      | find a b =>
          obtain ⟨p, hp, heq⟩ := Option.map_eq_some_iff.mp hstep
          cases heq
          exact hlookup _ _ hp
      | create a b =>
          obtain ⟨p, hp, heq⟩ := Option.map_eq_some_iff.mp hstep
          cases heq
          exact hlookup _ _ hp
  | history chatID =>
      simp only [stepRequest] at hstep
      split at hstep
      · cases hstep
        exact hsame rfl
      · cases hstep
        exact hsame rfl
  | answered rows => cases hstep
  | failed => cases hstep

/-! ## Every run -/

/-- Whoever is about to insert is in the chat. -/
def Inserting (db : Db) (ts : List Thread) : Prop :=
  ∀ call chatID, .dmInsert call chatID ∈ ts → db.Member chatID call.senderID

/-- **ONE STEP OF ONE INSTANCE.** -/
theorem server_step {s t : Server} {a : Action} (hrows : ChatRows s.world.db)
    (hin : Inserting s.world.db s.threads) (h : Stepped s a t) :
    ChatRows t.world.db ∧ Inserting t.world.db t.threads ∧
      ∀ c u, s.world.db.Member c u → t.world.db.Member c u := by
  have hspawn : ∀ u, (∀ call chatID, u ≠ .dmInsert call chatID) →
      Inserting s.world.db (s.threads ++ [u]) := by
    intro u hu call chatID hmem
    rcases List.mem_append.mp hmem with hold | hnew
    · exact hin call chatID hold
    · exact absurd (List.mem_singleton.mp hnew).symm (hu call chatID)
  cases h with
  | dm call =>
      exact ⟨hrows, hspawn (.dmFind call) fun _ _ heq => (by cases heq), fun _ _ hm => hm⟩
  | connect c hc =>
      exact ⟨hrows, hspawn (.connRegister c) fun _ _ heq => (by cases heq), fun _ _ hm => hm⟩
  | ack readerID call =>
      exact ⟨hrows, hspawn (.ackUpdate readerID call) fun _ _ heq => (by cases heq),
        fun _ _ hm => hm⟩
  | run i env th w th' new hth hstep =>
      refine ⟨hrows.of_threadStep hstep ?_, ?_, hstep.grows.members⟩
      · intro call chatID hcall
        exact hin call chatID (hcall ▸ List.mem_of_getElem? hth)
      · intro call chatID hmem
        obtain ⟨hself, hnew⟩ := inserting_of_step hstep
        rcases mem_moved hmem with hold | heq | hstarted
        · exact hstep.grows.members _ _ (hin call chatID hold)
        · exact (hself call chatID heq.symm).1
        · exact absurd hstarted (hnew call chatID)
  | activate sub => exact ⟨hrows, hin, fun _ _ hm => hm⟩
  | pumpWrite c ok f rest hp hb => exact ⟨hrows, hin, fun _ _ hm => hm⟩
  | pumpStop c hp => exact ⟨hrows, hin, fun _ _ hm => hm⟩

/-- What holds in every state. -/
structure Kept (s : State ι) : Prop where
  rows : ChatRows s.db
  inserting : ∀ i, Inserting s.db (s.threads i)

theorem kept_step {s t : State ι} {a : Act ι} (hk : Kept s) (h : step s a = some t) :
    Kept t := by
  cases a with
  | serve i a =>
      obtain ⟨d, hd, rfl⟩ := Option.map_eq_some_iff.mp h
      obtain ⟨s', hs', rfl⟩ := PeerCluster.step_cases hd
      obtain ⟨hrows, hin, hmembers⟩ :=
        server_step hk.rows (hk.inserting i) (PeerServer.step_cases hs')
      refine ⟨hrows, fun j => ?_⟩
      by_cases hj : j = i
      · rw [hj, put_threads]
        exact hin
      · rw [put_threads_ne s.toDeployment hj]
        exact fun call chatID hmem => hmembers _ _ (hk.inserting j call chatID hmem)
  | get myID partnerID =>
      cases h
      exact ⟨hk.rows, hk.inserting⟩
  | run i env =>
      simp only [step] at h
      split at h
      · cases h
      · split at h
        · cases h
        · rename_i r hr db r' hstep
          cases h
          obtain ⟨hrows, hmembers⟩ := hk.rows.of_request hstep
          exact ⟨hrows, fun j call chatID hmem => hmembers _ _ (hk.inserting j call chatID hmem)⟩

/-- **TWO MEMBERS, THEIR MESSAGES, ONE TO WHOM EACH IS PENDING**: in every state that
    instances can reach from a store without chats. -/
theorem chat_law {db : Db} {who : ι → ClientId → UUID × String} {s : State ι}
    (hdb : db.chats.rows = []) (h : Reach step anyStep (start db who) s) : ChatLaw s.db := by
  have hstart : Kept (start db who) := by
    refine ⟨⟨?_, ?_⟩, fun _ _ _ hmem => (by cases hmem)⟩
    · intro c hc
      change c ∈ db.chats.rows at hc
      rw [hdb] at hc
      cases hc
    · intro m hm
      have hchat := db.message_chat m hm
      rw [hdb] at hchat
      cases hchat
  have hk : Kept s := Reach.invariant (fun _ _ _ hs _ ht => kept_step hs ht) h hstart
  exact law_of_rows hk.rows

/-- Bob writes to alice on one instance while she reads their history on another; the
    message is pending for her. -/
theorem chat_law_first_contact : ∃ s : State (Fin 2),
    (Reach step anyStep (start threeUsers fun _ => oneUser) s ∧
      (s.db.pendingRows ⟨1⟩).length = 1 ∧ s.requests.length = 1) ∧ ChatLaw s.db := by
  obtain ⟨s, hs, hrows⟩ := exists_reach_of_replayGuarded step (fun _ _ => True)
    (start threeUsers fun _ : Fin 2 => oneUser)
    [.serve 0 (.dm bobsCall), .get ⟨1⟩ ⟨2⟩, .serve 0 (.run 0 fineEnv), .run 0 fineEnv,
      .serve 0 (.run 0 fineEnv), .run 0 (.fine ⟨11⟩ ⟨21⟩ 2), .serve 0 (.run 0 fineEnv),
      .run 0 (.fine ⟨11⟩ ⟨21⟩ 2), .run 0 (.fine ⟨11⟩ ⟨21⟩ 3)]
    (fun s => (s.db.pendingRows ⟨1⟩).length = 1 ∧ s.requests.length = 1) (by decide +kernel)
  exact ⟨s, ⟨hs, hrows⟩, chat_law rfl hs⟩

end PeerChatStore
