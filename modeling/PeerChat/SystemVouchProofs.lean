import PeerChat.SystemTruthProofs

/-! # What each goroutine may rely on

    A goroutine carries what it was started with from one statement to the next.
    `Vouched` says, program counter by program counter, what is known of what it
    carries: that its sender is somebody a token was handed out to, that its
    receiver is a member of the chat it found, that the frame in its hand is
    `Told`.  One step keeps it, whatever the others do in between
    (`vouched_socket`, `vouched_group`, `vouched_request`). -/

namespace PeerSystem

open PeerEnv KeyedTable PeerHub PeerRouter PeerStore PeerFrame PeerRedis PeerWorld PeerHandler
open PeerAuth PeerCluster Transition ThreadPool

/-- A token was handed out to the user of this id and this name. -/
def Speaks (issued : List (Claims × String)) (id : UUID) (name : String) : Prop :=
  ∃ e ∈ issued, e.1.userID = id ∧ e.1.username = name

/-- What the goroutines of one instance know: the tables, who has been in which group, the
    tokens handed out, whose every client is and which connections have been accepted. -/
structure Ctx where
  fmt : Formats
  db : Db
  ever : UUID → UUID → Prop
  issued : List (Claims × String)
  who : ClientId → UUID × String
  conns : List ClientId

/-- Later on the same is known, and more. -/
structure Ctx.Le (x y : Ctx) : Prop where
  fmt : y.fmt = x.fmt
  who : y.who = x.who
  db : Grows x.db y.db
  ever : ∀ g u, x.ever g u → y.ever g u
  issued : ∀ e ∈ x.issued, e ∈ y.issued
  conns : ∀ c ∈ x.conns, c ∈ y.conns

namespace Ctx

def Told (x : Ctx) (u : UUID) (f : Frame) : Prop := PeerSystem.Told x.fmt x.ever x.db u f

def Speaks (x : Ctx) (id : UUID) (name : String) : Prop := PeerSystem.Speaks x.issued id name

/-- The rows can be shown to the user of `c`. -/
def Rows (x : Ctx) (u : UUID) (rows : List PendingMessage) : Prop :=
  ∀ row ∈ rows, x.Told u (PeerServer.drainFrame row)

/-- What is owed for the time after a `Send`. -/
def Owes (x : Ctx) : PeerServer.Kont → Prop
  | .drain c _ _ rest => c ∈ x.conns ∧ x.Rows (x.who c).1 rest
  | _ => True

/-- What is known of a goroutine of a connection. -/
def Socket (x : Ctx) : PeerServer.Thread → Prop
  | .dmFind call => x.Speaks call.senderID call.senderName
  | .dmCreate call => x.Speaks call.senderID call.senderName
  | .dmInsert call chatID =>
      x.Speaks call.senderID call.senderName ∧ x.db.Member chatID call.senderID ∧
        x.db.Member chatID call.receiverID
  | .dmPublish call stored => x.Told call.receiverID (call.outbound stored)
  | .connRegister c => c ∈ x.conns
  | .connOnline c => c ∈ x.conns
  | .connOpen c => c ∈ x.conns
  | .connFile c _ => c ∈ x.conns
  | .connPending c => c ∈ x.conns
  | .live c => c ∈ x.conns
  | .drain c rows => c ∈ x.conns ∧ x.Rows (x.who c).1 rows
  | .drainMark c _ rest => c ∈ x.conns ∧ x.Rows (x.who c).1 rest
  | .send k pc =>
      x.Told k.toID k.data ∧ (∀ c, pc = .select c → (x.who c).1 = k.toID) ∧ x.Owes k
  | _ => True

/-- What is known of a group handler. -/
def Group (x : Ctx) : PeerGroupRun.Thread → Prop
  | .msgCheck senderID senderName _ => x.Speaks senderID senderName
  | .msgInsert senderID senderName _ => x.Speaks senderID senderName
  | .msgMembers _ senderName call stored =>
      Attributed x.fmt x.db (groupOutbound senderName call stored)
  | .msgFanOut _ outbound _ members => ∀ m ∈ members, x.Told m.userID outbound
  | .send toID data next => x.Told toID data ∧ x.Group next
  | _ => True

/-- What is known of a `GET /messages` of the caller. -/
def Request (x : Ctx) (callerID : UUID) : PeerChatStore.Request → Prop
  | .lookup (.find userA _) => userA = callerID
  | .lookup (.create userA _) => userA = callerID
  | .lookup (.returned _ _ chatID) => x.db.Member chatID callerID
  | .history chatID => x.db.Member chatID callerID
  | .answered rows => x.Rows callerID rows
  | _ => True

/-- What is known of a goroutine. -/
def Vouched (x : Ctx) : Task → Prop
  | .socket t => x.Socket t
  | .group t => x.Group t
  | .request callerID r => (∃ name, x.Speaks callerID name) ∧ x.Request callerID r

/-! ## Later it is still known -/

variable {x y : Ctx}

/-- What is told truly is told truly where more is known. -/
theorem Told.le {u : UUID} {f : Frame} (h : x.Told u f) (hle : x.Le y) : y.Told u f := by
  rw [Ctx.Told, hle.fmt]
  exact PeerSystem.Told.mono h hle.db hle.ever

theorem Speaks.le {id : UUID} {name : String} (h : x.Speaks id name) (hle : x.Le y) :
    y.Speaks id name := by
  obtain ⟨e, he, hid⟩ := h
  exact ⟨e, hle.issued e he, hid⟩

theorem Rows.le {u : UUID} {rows : List PendingMessage} (h : x.Rows u rows) (hle : x.Le y) :
    y.Rows u rows := fun row hrow => Told.le (h row hrow) hle

/-- What a `Send` owes it owes where more is known. -/
theorem Owes.le {k : PeerServer.Kont} (h : x.Owes k) (hle : x.Le y) : y.Owes k := by
  cases k with
  | drain c userID row rest =>
      obtain ⟨hc, hrows⟩ := h
      refine ⟨hle.conns c hc, ?_⟩
      rw [hle.who]
      exact hrows.le hle
  | _ => trivial

/-- What is vouched of a connection's goroutine is so where more is known. -/
theorem Socket.le {t : PeerServer.Thread} (h : x.Socket t) (hle : x.Le y) : y.Socket t := by
  cases t with
  | dmFind call => exact Speaks.le h hle
  | dmCreate call => exact Speaks.le h hle
  | dmInsert call chatID =>
      obtain ⟨hspeaks, hsender, hreceiver⟩ := h
      exact ⟨hspeaks.le hle, hle.db.members _ _ hsender, hle.db.members _ _ hreceiver⟩
  | dmPublish call stored => exact Told.le h hle
  | connRegister c => exact hle.conns c h
  | connOnline c => exact hle.conns c h
  | connOpen c => exact hle.conns c h
  | connFile c sub => exact hle.conns c h
  | connPending c => exact hle.conns c h
  | live c => exact hle.conns c h
  | drain c rows =>
      refine ⟨hle.conns c h.1, ?_⟩
      rw [hle.who]
      exact h.2.le hle
  | drainMark c row rest =>
      refine ⟨hle.conns c h.1, ?_⟩
      rw [hle.who]
      exact h.2.le hle
  | send k pc =>
      obtain ⟨htold, hselect, howes⟩ := h
      refine ⟨Told.le htold hle, ?_, howes.le hle⟩
      rw [hle.who]
      exact hselect
  | _ => trivial

/-- What is vouched of a group handler is so where more is known. -/
theorem Group.le {t : PeerGroupRun.Thread} (h : x.Group t) (hle : x.Le y) : y.Group t := by
  induction t with
  | msgCheck senderID senderName call => exact Speaks.le h hle
  | msgInsert senderID senderName call => exact Speaks.le h hle
  | msgMembers senderID senderName call stored =>
      have hsaid := Attributed.mono h hle.db
      rw [← hle.fmt] at hsaid
      exact hsaid
  | msgFanOut senderID outbound messageID members => exact fun m hm => Told.le (h m hm) hle
  | send toID data next ih => exact ⟨Told.le h.1 hle, ih h.2⟩
  | _ => trivial

theorem Request.le {callerID : UUID} {r : PeerChatStore.Request} (h : x.Request callerID r)
    (hle : x.Le y) : y.Request callerID r := by
  cases r with
  | lookup l =>
      cases l with
      | find userA userB => exact h
      | create userA userB => exact h
      | returned userA userB chatID => exact hle.db.members _ _ h
      | failed userA userB => trivial
  | history chatID => exact hle.db.members _ _ h
  | answered rows => exact Rows.le h hle
  | failed => trivial

/-- What is vouched of a task is so where more is known. -/
theorem Vouched.le {t : Task} (h : x.Vouched t) (hle : x.Le y) : y.Vouched t := by
  cases t with
  | socket t => exact Socket.le h hle
  | group t => exact Group.le h hle
  | request callerID r =>
      obtain ⟨⟨name, hspeaks⟩, hrequest⟩ := h
      exact ⟨⟨name, hspeaks.le hle⟩, Request.le hrequest hle⟩

/-- The tables have grown. -/
theorem le_db {db : Db} (hg : Grows x.db db) : x.Le { x with db := db } :=
  ⟨rfl, rfl, hg, fun _ _ hin => hin, fun _ he => he, fun _ hc => hc⟩

end Ctx

/-! ## What a step of a connection's goroutine does to the world -/

variable {w w' : World} {env : Env} {P : UUID → Frame → Prop}

/-- What the next step of a thread may enqueue or publish, and for whom. -/
def onAir : PeerServer.Thread → Option (UUID × Frame)
  | .dmPublish call stored => some (call.receiverID, call.outbound stored)
  | .ackPublish senderID messageID => some (senderID, .read messageID)
  | .send k _ => some (k.toID, k.data)
  | _ => none

/-- A hub operation that adds nothing to the log. -/
theorem emits_of_log {hub : Hub Frame} (husers : ∀ c, hub.userOf c = w.hub.userOf c)
    (hlog : hub.log = w.hub.log) : Emits P w { w with hub := hub } where
  users := husers
  log := ⟨[], by rw [hlog, List.append_nil], by intro e he; cases he⟩
  published := ⟨[], by rw [List.append_nil], by intro e he; cases he⟩

/-- One step of a `Send` enqueues its frame for its addressee, or nothing. -/
theorem emits_sendStep {k : PeerServer.Kont} {pc : SendPc} {hub : Hub Frame} {next : SendNext}
    (hs : SendStep w.hub k.toID k.data pc hub next) (hp : P k.toID k.data)
    (hselect : ∀ c, pc = .select c → w.hub.userOf c = k.toID) :
    Emits P w { w with hub := hub } := by
  cases hs with
  | offline hno => exact Emits.refl w
  | found c hc => exact Emits.refl w
  | sent c ch hch =>
      refine ⟨fun d => push_userOf w.hub c d ch k.data, ⟨[(c, k.data)], push_log _ _ _ _, ?_⟩,
        ⟨[], by rw [List.append_nil], by intro e he; cases he⟩⟩
      intro e he
      rw [List.mem_singleton.mp he]
      show P (w.hub.userOf c) k.data
      rw [hselect c rfl]
      exact hp
  | full c hopen hfull => exact Emits.refl w
  | panic c hclosed => exact emits_of_log (fun _ => rfl) rfl
  | evict c => exact emits_of_log (fun d => unregister_userOf w.hub c d) (unregister_log w.hub c)

theorem emits_mark (w : World) (env : Env) (id : UUID) : Emits P w (markDelivered w env id) :=
  Emits.of_quiet (markDelivered_hub w env id) (markDelivered_published w env id)

/-- **A STEP PUTS ON THE AIR** what the thread has in hand, and nothing else. -/
theorem emits_socket {t t' : PeerServer.Thread} {new : List PeerServer.Thread}
    (h : PeerServer.stepThread w env t = some (w', t', new))
    (hp : ∀ e ∈ onAir t, P e.1 e.2)
    (hselect : ∀ k c, t = .send k (.select c) → w.hub.userOf c = k.toID) : Emits P w w' := by
  cases t with
  | dmFind call =>
      simp only [PeerServer.stepThread] at h
      split at h <;> cases h <;> exact Emits.refl w
  | dmCreate call =>
      simp only [PeerServer.stepThread] at h
      split at h
      · cases h
        exact Emits.of_quiet rfl rfl
      · cases h
        exact Emits.refl w
  | dmInsert call chatID =>
      simp only [PeerServer.stepThread] at h
      split at h
      · cases h
        exact Emits.of_quiet rfl rfl
      · cases h
        exact Emits.refl w
  | dmPublish call stored =>
      simp only [PeerServer.stepThread] at h
      split at h
      · rename_i hpub
        cases h
        exact emits_publish hpub (hp _ rfl)
      · cases h
        exact Emits.refl w
  | dmMark call stored =>
      cases h
      exact emits_mark w env stored.id
  | connRegister c =>
      cases h
      exact emits_of_log (fun d => register_userOf w.hub c d) (register_log w.hub c)
  | connPending c =>
      simp only [PeerServer.stepThread] at h
      split at h <;> cases h <;> exact Emits.refl w
  | drain c rows =>
      cases rows with
      | nil =>
          cases h
          exact Emits.refl w
      | cons row rest =>
          cases h
          exact Emits.refl w
  | drainMark c row rest =>
      cases h
      exact emits_mark w env row.message.id
  | live c =>
      cases h
      exact emits_of_log (fun d => unregister_userOf w.hub c d) (unregister_log w.hub c)
  | connClose sub =>
      cases sub with
      | some sub =>
          cases h
          exact Emits.of_quiet rfl rfl
      | none =>
          cases h
          exact Emits.refl w
  | forward sub =>
      simp only [PeerServer.stepThread] at h
      split at h
      · cases h
        exact Emits.of_quiet rfl rfl
      · split at h
        · cases h
          exact Emits.refl w
        · cases h
  | ackUpdate readerID call =>
      simp only [PeerServer.stepThread] at h
      split at h
      · split at h <;> cases h <;> exact Emits.of_quiet rfl rfl
      · cases h
        exact Emits.refl w
  | ackPublish senderID messageID =>
      cases h
      cases hpub : w.publish env senderID (.read messageID) with
      | none => exact Emits.refl w
      | some w₁ => exact emits_publish hpub (hp _ rfl)
  | send k pc =>
      have hs := stepSend_sendStep w.hub k.toID k.data pc
      simp only [PeerServer.stepThread] at h
      cases hn : stepSend w.hub k.toID k.data pc with
      | mk hub next =>
          rw [hn] at hs h
          have hemits := emits_sendStep hs (hp _ rfl) fun c hc => hselect k c (by rw [hc])
          cases next with
          | goto pc' =>
              cases h
              exact hemits
          | returned ok =>
              cases h
              exact hemits
  | done => cases h
  | _ =>
      cases h
      exact Emits.of_quiet rfl rfl

/-- The subscriptions hear what was published, and forget what is taken. -/
theorem heard_socket {t t' : PeerServer.Thread} {new : List PeerServer.Thread}
    (h : PeerServer.stepThread w env t = some (w', t', new))
    (hp : ∀ e ∈ onAir t, P e.1 e.2) (hheard : Heard P w.router) : Heard P w'.router := by
  rw [PeerServer.router_of_step h]
  cases t with
  | dmPublish call stored =>
      simp only [PeerServer.routerAfter]
      split
      · exact hheard.publish (hp _ rfl)
      · exact hheard
  | ackPublish senderID messageID =>
      simp only [PeerServer.routerAfter]
      split
      · exact hheard.publish (hp _ rfl)
      · exact hheard
  | connOpen c => exact hheard.openSub _
  | connFile c sub => exact hheard
  | connUnfile c => exact hheard
  | connClose sub =>
      cases sub with
      | some sub => exact hheard.close sub
      | none => exact hheard
  | forward sub =>
      simp only [PeerServer.routerAfter]
      split
      · exact hheard
      · exact hheard.take sub
  | _ => exact hheard

/-- No statement of a connection loses a user or a message. -/
theorem grows_socket {t t' : PeerServer.Thread} {new : List PeerServer.Thread}
    (h : PeerServer.ThreadStep w env t w' t' new) : Grows w.db w'.db := by
  have hmark : ∀ id, Grows w.db (markDelivered w env id).db := fun id =>
    markDelivered_of (P := Grows w.db) env id (Grows.refl w.db) (setStatus_grows w.db id _)
  cases h with
  | quiet hdb hhub haddr hq =>
      rw [hdb]
      exact Grows.refl w.db
  | created call db hc => exact createChat_grows hc
  | stored call chatID db stored hi => exact insertMessage_grows hi
  | marked call stored => exact hmark stored.id
  | drainMarked c row rest => exact hmark row.message.id
  | acked readerID call hok => exact setStatus_grows w.db call.messageID .read
  | _ => exact Grows.refl w.db

/-- No statement of a connection writes a group message. -/
theorem groupMessages_socket {t t' : PeerServer.Thread} {new : List PeerServer.Thread}
    (h : PeerServer.ThreadStep w env t w' t' new) :
    w'.db.groupMessages = w.db.groupMessages := by
  have hmark : ∀ id, (markDelivered w env id).db.groupMessages = w.db.groupMessages := fun id =>
    markDelivered_of (P := fun db => db.groupMessages = w.db.groupMessages) env id rfl rfl
  cases h with
  | quiet hdb hhub haddr hq => rw [hdb]
  | created call db hc => exact createChat_groupMessages hc
  | stored call chatID db stored hi => exact insertMessage_groupMessages hi
  | marked call stored => exact hmark stored.id
  | drainMarked c row rest => exact hmark row.message.id
  | _ => rfl

/-! ## What is known of it afterwards -/

/-- What is known fits the world of the instance. -/
structure Fits (x : Ctx) (w : World) : Prop where
  db : w.db = x.db
  users : ∀ c, w.hub.userOf c = (x.who c).1
  airs : Airs x.Told w
  named : ∀ id name, x.Speaks id name → Named x.db id name
  grouped : ∀ g u, x.db.InGroup g u → x.ever g u

/-- What is known once the tables are `db`. -/
def Ctx.withDb (x : Ctx) (db : Db) : Ctx := { x with db := db }

variable {x : Ctx}

/-- A stored call has a frame for its receiver. -/
theorem told_of_stored {db : Db} {call : DmCall} {chatID : UUID} {stored : Message}
    (hnamed : Named x.db call.senderID call.senderName)
    (hmember : x.db.Member chatID call.receiverID)
    (hi : x.db.insertMessage env chatID call.senderID call.body = .ok (db, stored)) :
    (x.withDb db).Told call.receiverID (call.outbound stored) := by
  have hgrows := insertMessage_grows hi
  obtain ⟨hrow, hst⟩ := insertMessage_ok hi
  have hstored : stored ∈ db.messages.rows := by
    rw [hst.messages]
    exact List.mem_concat_self
  have hchat : stored.chatID = chatID := by rw [hrow]; rfl
  have hsender : stored.senderID = call.senderID := by rw [hrow]; rfl
  refine ⟨⟨hnamed.mono hgrows, stored, hstored, rfl, hsender, rfl, rfl⟩,
    ⟨stored, hstored, rfl, ?_⟩, trivial⟩
  rw [hchat]
  exact hgrows.members _ _ hmember

/-- The rows of the backlog can be shown to its user. -/
theorem rows_of_pending {u : UUID} {rows : List PendingMessage}
    (h : x.db.getPendingMessages env u = .ok rows) : x.Rows u rows := by
  obtain ⟨hrows, -, -⟩ := getPendingMessages_ok h
  intro p hp
  obtain ⟨hm, hmember, -, -, hsender⟩ := mem_pendingRows.mp (hrows p hp)
  exact told_of_row hm hmember hsender

/-- What a forwarder takes was heard. -/
theorem told_of_forwarded {sub : SubId} {userID : UUID} {payload : Frame}
    {new : List PeerServer.Thread} (hheard : Heard P w.router)
    (h : PeerServer.stepThread w env (.forward sub)
      = some (w', .send (.forward sub userID payload) .lookup, new)) : P userID payload := by
  simp only [PeerServer.stepThread] at h
  split at h
  · rename_i f rest hinbox
    cases h
    refine hheard sub payload ?_
    rw [hinbox]
    exact List.mem_cons_self
  · split at h <;> cases h

/-- The only goroutine that another starts is a forwarder. -/
theorem new_of_step {t t' n : PeerServer.Thread} {new : List PeerServer.Thread}
    (h : PeerServer.ThreadStep w env t w' t' new) (hn : n ∈ new) : ∃ sub, n = .forward sub := by
  cases h with
  | quiet hdb hhub haddr hq =>
      cases hq with
      | filed c sub => exact ⟨sub, List.mem_singleton.mp hn⟩
      | _ => cases hn
  | _ => cases hn

/-- What comes after a `Send` is known before it. -/
theorem socket_resume {k : PeerServer.Kont} {pc : SendPc} (ok : Bool)
    (h : x.Socket (.send k pc)) : x.Socket (k.resume ok) := by
  obtain ⟨htold, -, howes⟩ := h
  cases k with
  | dmLive call stored =>
      cases ok with
      | true => trivial
      | false => exact htold
  | dmAck call stored => trivial
  | drain c userID row rest => exact howes
  | forward sub userID payload => trivial
  | ackNotify senderID messageID => cases ok <;> trivial

/-- A `Send` begins. -/
theorem socket_lookup {k : PeerServer.Kont} (htold : x.Told k.toID k.data) (howes : x.Owes k) :
    x.Socket (.send k .lookup) :=
  ⟨htold, (fun c hc => by cases hc), howes⟩

/-- **WHAT A GOROUTINE OF A CONNECTION RELIES ON** still holds after its step. -/
theorem vouched_socket {t t' : PeerServer.Thread} {new : List PeerServer.Thread}
    (hfit : Fits x w) (hv : x.Socket t)
    (h : PeerServer.stepThread w env t = some (w', t', new)) : (x.withDb w'.db).Socket t' := by
  have hstep := PeerServer.threadStep_of_stepThread h
  have hle : x.Le (x.withDb w'.db) := Ctx.le_db (hfit.db ▸ grows_socket hstep)
  cases hstep with
  | quiet hdb hhub haddr hq =>
      cases hq with
      | notFound call => exact Ctx.Speaks.le hv hle
      | published call stored => exact socket_lookup (told_of_silent rfl) trivial
      | online c => exact hle.conns c hv
      | opened c sub => exact hle.conns c hv
      | filed c sub => exact hle.conns c hv
      | drained c => exact hle.conns c hv.1
      | drainNext c row rest =>
          obtain ⟨hc, hrows⟩ := Ctx.Socket.le hv hle
          have htold := hrows row List.mem_cons_self
          refine socket_lookup ?_ ⟨hc, fun r hr => hrows r (List.mem_cons_of_mem _ hr)⟩
          rw [PeerServer.Kont.toID, hfit.users]
          exact htold
      | forwarded sub userID payload =>
          exact socket_lookup (Ctx.Told.le (told_of_forwarded hfit.airs.heard h) hle) trivial
      | _ => trivial
  | found call chatID hf =>
      rw [hfit.db] at hf
      obtain ⟨hsender, hreceiver⟩ := findChat_ok hf
      exact ⟨Ctx.Speaks.le hv hle, hle.db.members _ _ hsender, hle.db.members _ _ hreceiver⟩
  | created call db hc =>
      have hmembers := (createChat_ok hc).members
      exact ⟨Ctx.Speaks.le hv hle, (hmembers _ _).mpr (Or.inr ⟨rfl, Or.inl rfl⟩),
        (hmembers _ _).mpr (Or.inr ⟨rfl, Or.inr rfl⟩)⟩
  | stored call chatID db stored hi =>
      obtain ⟨hspeaks, -, hmember⟩ := hv
      rw [hfit.db] at hi
      exact socket_lookup (told_of_stored (hfit.named _ _ hspeaks) hmember hi) trivial
  | sendGoto k pc pc' hub hs =>
      obtain ⟨htold, hselect, howes⟩ := Ctx.Socket.le hv hle
      refine ⟨htold, ?_, howes⟩
      intro c hpc
      show (x.who c).1 = k.toID
      cases hs with
      | found d hd =>
          cases hpc
          rw [← hfit.users]
          exact w.hub.owned k.toID c hd
      | full d hopen hfull => cases hpc
  | sendReturned k pc hub ok hs => exact socket_resume ok (Ctx.Socket.le hv hle)
  | marked call stored => exact socket_lookup (told_of_silent rfl) trivial
  | drainMarked c row rest =>
      obtain ⟨hc, hrows⟩ := Ctx.Socket.le hv hle
      exact ⟨hc, hrows⟩
  | registered c => exact hle.conns c hv
  | pending c rows hr =>
      rw [hfit.db, hfit.users] at hr
      exact ⟨hle.conns c hv, Ctx.Rows.le (rows_of_pending hr) hle⟩
  | pendingFailed c hoff => exact hle.conns c hv
  | ended c => trivial
  | acked readerID call hok =>
      rw [PeerServer.ackNext]
      split
      · exact socket_lookup (told_of_silent rfl) trivial
      · trivial

/-! ## The group handlers, and `GET /messages` -/

/-- No statement of a group handler loses a user or a message. -/
theorem grows_group {db db' : Db} {hub hub' : Hub Frame} {t t' : PeerGroupRun.Thread}
    (h : PeerGroupRun.ThreadStep db hub env t db' hub' t') : Grows db db' := by
  cases h with
  | stored senderID senderName call db' stored hi => exact insertGroupMessage_grows hi
  | created creatorID name db' group hc => exact (createGroup_sameRows hc).grows
  | added adderID groupID userID db' ha => exact (addGroupMember_sameRows ha).grows
  | left userID groupID => exact (deleteGroupMember_sameRows db groupID userID).grows
  | _ => exact Grows.refl db

/-- No statement of a group handler writes a direct message. -/
theorem messages_group {db db' : Db} {hub hub' : Hub Frame} {t t' : PeerGroupRun.Thread}
    (h : PeerGroupRun.ThreadStep db hub env t db' hub' t') : db'.messages = db.messages := by
  cases h with
  | stored senderID senderName call db' stored hi => exact (insertGroupMessage_tables hi).2.2
  | created creatorID name db' group hc => exact (createGroup_sameRows hc).messages
  | added adderID groupID userID db' ha => exact (addGroupMember_sameRows ha).messages
  | _ => rfl

/-- A row of `group_messages` was there, or the handler has just stored it. -/
theorem groupRow_of_step {db db' : Db} {hub hub' : Hub Frame} {t t' : PeerGroupRun.Thread}
    (h : PeerGroupRun.ThreadStep db hub env t db' hub' t') {m : GroupMessage}
    (hm : m ∈ db'.groupMessages.rows) :
    m ∈ db.groupMessages.rows ∨ ∃ name call, t = .msgInsert m.senderID name call := by
  cases h with
  | stored senderID senderName call db' stored hi =>
      obtain ⟨hrow, hrows, -, -, -⟩ := insertGroupMessage_ok hi
      rw [hrows] at hm
      rcases List.mem_append.mp hm with hold | hnew
      · exact Or.inl hold
      · rw [List.mem_singleton.mp hnew, hrow]
        exact Or.inr ⟨senderName, call, rfl⟩
  | created creatorID name db' group hc =>
      rw [(createGroup_sameRows hc).groupMessages] at hm
      exact Or.inl hm
  | added adderID groupID userID db' ha =>
      rw [(addGroupMember_sameRows ha).groupMessages] at hm
      exact Or.inl hm
  | _ => exact Or.inl hm

/-- What a stored group message shows is stored. -/
theorem attributed_of_groupStored {db : Db} {senderID : UUID} {senderName : String}
    {call : GroupCall} {stored : GroupMessage} (hnamed : Named x.db senderID senderName)
    (hi : x.db.insertGroupMessage env call.groupID senderID call.body = .ok (db, stored)) :
    Attributed x.fmt db (groupOutbound senderName call stored) := by
  have hgrows := insertGroupMessage_grows hi
  obtain ⟨hrow, hrows, -, -, -⟩ := insertGroupMessage_ok hi
  have hstored : stored ∈ db.groupMessages.rows := by
    rw [hrows]
    exact List.mem_concat_self
  have hsender : stored.senderID = senderID := by rw [hrow]; rfl
  have hgroup : stored.groupID = call.groupID := by rw [hrow]; rfl
  refine ⟨?_, stored, hstored, rfl, hgroup, rfl, rfl, rfl⟩
  rw [hsender]
  exact hnamed.mono hgrows

/-- A member the group is read from has been in it. -/
theorem told_of_listed {senderName : String} {call : GroupCall} {stored : GroupMessage}
    {members : List GroupMemberInfo} (hgrouped : ∀ g u, x.db.InGroup g u → x.ever g u)
    (hsaid : Attributed x.fmt x.db (groupOutbound senderName call stored))
    (hl : x.db.getGroupMembers env call.groupID = .ok members) :
    ∀ m ∈ members, x.Told m.userID (groupOutbound senderName call stored) := by
  intro m hm
  have hin := ((getGroupMembers_ok hl).1 m.userID).mp ⟨m, hm, rfl⟩
  exact ⟨hsaid, trivial, hgrouped _ _ hin⟩

/-- **WHAT A GROUP HANDLER RELIES ON** still holds after its step. -/
theorem vouched_group {hub hub' : Hub Frame} {db' : Db} {t t' : PeerGroupRun.Thread}
    (hnamed : ∀ id name, x.Speaks id name → Named x.db id name)
    (hgrouped : ∀ g u, x.db.InGroup g u → x.ever g u) (hv : x.Group t)
    (h : PeerGroupRun.ThreadStep x.db hub env t db' hub' t') : (x.withDb db').Group t' := by
  have hle : x.Le (x.withDb db') := Ctx.le_db (grows_group h)
  cases h with
  | quiet hq =>
      cases hq with
      | failed t => trivial
      | refused t userID text => exact ⟨told_of_silent rfl, trivial⟩
      | fannedOut senderID outbound messageID => exact ⟨told_of_silent rfl, trivial⟩
      | fanNext senderID outbound messageID m members hne =>
          exact ⟨hv m List.mem_cons_self, fun m' hm => hv m' (List.mem_cons_of_mem _ hm)⟩
      | fanSkip senderID outbound messageID m members heq =>
          exact fun m' hm => hv m' (List.mem_cons_of_mem _ hm)
  | sent toID data next => exact hv.2
  | msgAllowed senderID senderName call hin => exact hv
  | stored senderID senderName call db' stored hi =>
      exact attributed_of_groupStored (x := x) (hnamed senderID senderName hv) hi
  | listed senderID senderName call stored members hl => exact told_of_listed hgrouped hv hl
  | created creatorID name db' group hc => exact ⟨told_of_silent rfl, trivial⟩
  | addAllowed adderID groupID userID hin => trivial
  | added adderID groupID userID db' ha => exact ⟨told_of_silent rfl, trivial⟩
  | left userID groupID => exact ⟨told_of_silent rfl, trivial⟩

/-- A statement of `FindOrCreateChat` writes chats only. -/
theorem lookup_steps {db db' : Db} {l l' : PeerChatPair.Lookup}
    (h : PeerChatPair.stepLookup db env l = some (db', l')) :
    Grows db db' ∧ db'.messages = db.messages ∧ db'.groupMessages = db.groupMessages := by
  cases PeerChatPair.lookupStep_of_stepLookup h with
  | created a b db' hc =>
      exact ⟨createChat_grows hc, (createChat_ok hc).messages, createChat_groupMessages hc⟩
  | _ => exact ⟨Grows.refl db, rfl, rfl⟩

/-- A `GET /messages` may create the chat, and stores no message. -/
theorem grows_request {db db' : Db} {r r' : PeerChatStore.Request}
    (h : PeerChatStore.stepRequest db env r = some (db', r')) :
    Grows db db' ∧ db'.messages = db.messages ∧ db'.groupMessages = db.groupMessages := by
  cases r with
  | lookup l =>
      cases l with
      | returned a b c =>
          cases h
          exact ⟨Grows.refl db, rfl, rfl⟩
      | failed a b =>
          cases h
          exact ⟨Grows.refl db, rfl, rfl⟩
      | _ =>
          obtain ⟨p, hp, heq⟩ := Option.map_eq_some_iff.mp h
          cases heq
          exact lookup_steps hp
  | history chatID =>
      simp only [PeerChatStore.stepRequest] at h
      split at h <;> (cases h; exact ⟨Grows.refl db, rfl, rfl⟩)
  | answered rows => cases h
  | failed => cases h

/-- A lookup for a `GET /messages` stays vouched. -/
theorem vouched_lookup {db' : Db} {callerID : UUID} {l l' : PeerChatPair.Lookup}
    (hv : x.Request callerID (.lookup l))
    (h : PeerChatPair.stepLookup x.db env l = some (db', l')) :
    (x.withDb db').Request callerID (.lookup l') := by
  cases PeerChatPair.lookupStep_of_stepLookup h with
  | found a b c hc =>
      cases hv
      exact hc.1
  | missing a b hnone => exact hv
  | created a b db' hc =>
      cases hv
      exact ((createChat_ok hc).members _ _).mpr (Or.inr ⟨rfl, Or.inl rfl⟩)
  | failed l a b => trivial

/-- **WHAT A `GET /messages` RELIES ON** still holds after its step: what it answers is the
    caller's to see. -/
theorem vouched_request {db' : Db} {callerID : UUID} {r r' : PeerChatStore.Request}
    (hv : x.Request callerID r)
    (h : PeerChatStore.stepRequest x.db env r = some (db', r')) :
    (x.withDb db').Request callerID r' := by
  cases r with
  | lookup l =>
      cases l with
      | returned a b c =>
          cases h
          exact hv
      | failed a b =>
          cases h
          trivial
      | _ =>
          obtain ⟨p, hp, heq⟩ := Option.map_eq_some_iff.mp h
          cases heq
          exact vouched_lookup hv hp
  | history chatID =>
      simp only [PeerChatStore.stepRequest] at h
      split at h
      · cases h
        intro row hrow
        obtain ⟨hm, hchat, hsender⟩ := mem_historyRows.mp (List.mem_of_mem_take hrow)
        refine told_of_row hm ?_ hsender
        rw [hchat]
        exact hv
      · cases h
        trivial
  | answered rows => cases h
  | failed => cases h

end PeerSystem
