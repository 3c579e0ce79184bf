import PeerChat.WorldProofs

/-! # Direct messages, read receipts and history

    `HandleDM` and `HandleAck` of `chat/dm.go`, and `GET /messages` of `main.go`.
    Each handler decodes its payload, then works on the decoded request; the
    two halves are kept apart so that the interleaved server can take the second
    one step at a time. -/

namespace PeerHandler

open PeerEnv JsonDecode PeerHub PeerStore PeerFrame PeerWorld

/-! ## `HandleDM` -/

/-- A decoded `dmInbound` with its sender. -/
structure DmCall where
  senderID : UUID
  senderName : String
  receiverID : UUID
  body : String
  id : String
  deriving DecidableEq

/-- The decoding half of `HandleDM`. -/
def parseDM (fmt : Formats) (senderID : UUID) (senderName : String)
    (raw : List UInt8) : Except HandlerError DmCall :=
  match structEntries raw with
  | none => .error ⟨"invalid dm payload: ", .json⟩
  | some es =>
      let type := stringField "type" es
      let receiver := stringField "to" es
      let body := stringField "body" es
      let id := stringField "id" es
      if type.ok && receiver.ok && body.ok && id.ok then
        match fmt.uuidParse receiver.value with
        | none => .error ⟨"invalid receiver id: ", .uuid⟩
        | some receiverID => .ok ⟨senderID, senderName, receiverID, body.value, id.value⟩
      else .error ⟨"invalid dm payload: ", .json⟩

/-- `outbound`. -/
def DmCall.outbound (call : DmCall) (stored : Message) : Frame :=
  .message call.senderName call.senderID stored.body stored.id stored.createdAt

/-- `ack`. -/
def DmCall.ack (call : DmCall) (stored : Message) : Frame := .sent stored.id call.id

/-- `InsertMessage`. -/
def insertDM (w : World) (env : Env) (call : DmCall) (chatID : UUID) :
    World × Except HandlerError Message :=
  match w.db.insertMessage env chatID call.senderID call.body with
  | .error e => (w, .error ⟨"insert message: ", .db e⟩)
  | .ok (db, stored) =>
      ({ w with db := db, addressed := w.addressed ++ [(stored.id, call.receiverID)] },
        .ok stored)

/-- `FindOrCreateChat` and `InsertMessage`. -/
def storeDM (w : World) (env : Env) (call : DmCall) :
    World × Except HandlerError Message :=
  match w.db.findOrCreateChat env call.senderID call.receiverID with
  | (db, .error e) => ({ w with db := db }, .error ⟨"find/create chat: ", .db e⟩)
  | (db, .ok chatID) => insertDM { w with db := db } env call chatID

/-- `db.UpdateMessageStatus(ctx, pool, id, "delivered")`, its error ignored. -/
def markDelivered (w : World) (env : Env) (id : UUID) : World :=
  match w.db.updateMessageStatus env id .delivered with
  | .ok db => { w with db := db }
  | .error _ => w

/-- Local delivery, the fallback to pub/sub, the status update and the ack. -/
def deliverDM (w : World) (env : Env) (call : DmCall) (stored : Message) :
    World × Except HandlerError Unit :=
  let (w, delivered) := w.send call.receiverID (call.outbound stored)
  match if delivered then some w else w.publish env call.receiverID (call.outbound stored) with
  | none => (w, .error ⟨"pub/sub delivery failed: ", .redis⟩)
  | some w =>
      let w := if delivered then markDelivered w env stored.id else w
      ((w.send call.senderID (call.ack stored)).1, .ok ())

/-- `HandleDM` on a decoded request. -/
def runDM (w : World) (env : Env) (call : DmCall) : World × Except HandlerError Unit :=
  match storeDM w env call with
  | (w, .error e) => (w, .error e)
  | (w, .ok stored) => deliverDM w env call stored

/-- `HandleDM`. -/
def handleDM (fmt : Formats) (w : World) (env : Env) (senderID : UUID)
    (senderName : String) (raw : List UInt8) : World × Except HandlerError Unit :=
  match parseDM fmt senderID senderName raw with
  | .error e => (w, .error e)
  | .ok call => runDM w env call

/-! ## `HandleAck` -/

/-- A decoded ack: the message, and the sender to notify if one is named. -/
structure AckCall where
  messageID : UUID
  senderID : Option UUID
  deriving DecidableEq

/-- The decoding half of `HandleAck`; a sender id that does not parse is as good
    as none. -/
def parseAck (fmt : Formats) (raw : List UInt8) : Except HandlerError AckCall :=
  match structEntries raw with
  | none => .error ⟨"", .json⟩
  | some es =>
      let messageID := stringField "message_id" es
      let senderID := stringField "sender_id" es
      if messageID.ok && senderID.ok then
        match fmt.uuidParse messageID.value with
        | none => .error ⟨"", .uuid⟩
        | some msgID => .ok ⟨msgID,
            if senderID.value = "" then none else fmt.uuidParse senderID.value⟩
      else .error ⟨"", .json⟩

/-- `HandleAck` on a decoded ack. -/
def runAck (w : World) (env : Env) (call : AckCall) : World × Except HandlerError Unit :=
  match w.db.updateMessageStatus env call.messageID .read with
  | .error e => (w, .error ⟨"", .db e⟩)
  | .ok db =>
      let w := { w with db := db }
      match call.senderID with
      | none => (w, .ok ())
      | some senderID =>
          (w.sendOrPublish env senderID (.read call.messageID), .ok ())

/-- `HandleAck`.  The reader is an argument of the source's function, which never
    looks at it. -/
def handleAck (fmt : Formats) (w : World) (env : Env) (_readerID : UUID)
    (raw : List UInt8) : World × Except HandlerError Unit :=
  match parseAck fmt raw with
  | .error e => (w, .error e)
  | .ok call => runAck w env call

/-! ## `GET /messages` -/

/-- An HTTP error response. -/
structure HttpError where
  status : Nat
  error : String
  deriving DecidableEq

/-- `limit := 50`. -/
def historyLimit : Nat := 50

/-- The rows `GET /messages` selects for the caller, before its `LIMIT`. -/
def selectHistory (w : World) (env : Env) (myID partnerID : UUID) :
    World × Except HttpError (List PendingMessage) :=
  match w.db.findOrCreateChat env myID partnerID with
  | (db, .error _) => ({ w with db := db }, .error ⟨500, "chat lookup failed"⟩)
  | (db, .ok chatID) =>
      if env.ok .history then ({ w with db := db }, .ok (db.historyRows chatID))
      else ({ w with db := db }, .error ⟨500, "history fetch failed"⟩)

/-- `GET /messages?partner_id=…`. -/
def getMessages (fmt : Formats) (w : World) (env : Env) (myID : UUID)
    (partnerIDStr : String) : World × Except HttpError (List PendingMessage) :=
  match fmt.uuidParse partnerIDStr with
  | none => (w, .error ⟨400, "invalid partner_id"⟩)
  | some partnerID =>
      match selectHistory w env myID partnerID with
      | (w, .error e) => (w, .error e)
      | (w, .ok rows) => (w, .ok (rows.take historyLimit))

/-! ## What the handlers do to the tables -/

@[simp] theorem markDelivered_addressed (w : World) (env : Env) (id : UUID) :
    (markDelivered w env id).addressed = w.addressed := by
  rw [markDelivered]
  split <;> rfl

@[simp] theorem markDelivered_hub (w : World) (env : Env) (id : UUID) :
    (markDelivered w env id).hub = w.hub := by
  rw [markDelivered]
  split <;> rfl

@[simp] theorem markDelivered_published (w : World) (env : Env) (id : UUID) :
    (markDelivered w env id).published = w.published := by
  rw [markDelivered]
  split <;> rfl

/-- `markDelivered` leaves the tables alone or sets the one status. -/
theorem markDelivered_db (w : World) (env : Env) (id : UUID) :
    (markDelivered w env id).db = w.db ∨
      (markDelivered w env id).db = w.db.setStatus id .delivered := by
  rw [markDelivered]
  rcases updateMessageStatus_cases w.db env id .delivered with ⟨-, hu⟩ | ⟨-, hu⟩
  · rw [hu]
    exact Or.inr rfl
  · rw [hu]
    exact Or.inl rfl

/-- What holds of the tables with the update and without it holds after the mark. -/
theorem markDelivered_of {P : Db → Prop} {w : World} (env : Env) (id : UUID) (hsame : P w.db)
    (hset : P (w.db.setStatus id .delivered)) : P (markDelivered w env id).db := by
  rcases markDelivered_db w env id with hdb | hdb
  · rw [hdb]
    exact hsame
  · rw [hdb]
    exact hset

@[simp] theorem markDelivered_chats (w : World) (env : Env) (id : UUID) :
    (markDelivered w env id).db.chats = w.db.chats :=
  markDelivered_of (P := fun db => db.chats = w.db.chats) env id rfl rfl

@[simp] theorem markDelivered_chatMembers (w : World) (env : Env) (id : UUID) :
    (markDelivered w env id).db.chatMembers = w.db.chatMembers :=
  markDelivered_of (P := fun db => db.chatMembers = w.db.chatMembers) env id rfl rfl

@[simp] theorem markDelivered_users (w : World) (env : Env) (id : UUID) :
    (markDelivered w env id).db.users = w.db.users :=
  markDelivered_of (P := fun db => db.users = w.db.users) env id rfl rfl

@[simp] theorem markDelivered_keys (w : World) (env : Env) (id : UUID) :
    (markDelivered w env id).db.messages.keys = w.db.messages.keys :=
  markDelivered_of (P := fun db => db.messages.keys = w.db.messages.keys) env id rfl
    (setStatus_keys w.db id .delivered)

theorem markDelivered_row_of {w : World} (env : Env) (id : UUID) {m : Message}
    (hm : m ∈ w.db.messages.rows) :
    ∃ m' ∈ (markDelivered w env id).db.messages.rows, m'.id = m.id ∧
      ((m.id = id ∧ m'.status = .delivered) ∨ m'.status = m.status) := by
  rcases markDelivered_db w env id with hdb | hdb
  · rw [hdb]
    exact ⟨m, hm, rfl, Or.inr rfl⟩
  · rw [hdb]
    obtain ⟨m', hm', hid, hcase⟩ := setStatus_row_of id .delivered hm
    exact ⟨m', hm', hid, hcase.imp (fun h => h) fun h => h.2⟩

/-- **`storeDM`, case by case**: nothing is stored, though a chat may have been
    created; or the message is stored in a chat of both users. -/
theorem storeDM_cases (w : World) (env : Env) (call : DmCall) :
    (∃ e db, storeDM w env call = ({ w with db := db }, .error e) ∧
      (db = w.db ∨
        ((∀ c, ¬ (w.db.Member c call.senderID ∧ w.db.Member c call.receiverID)) ∧
          ChatCreated w.db db env.newChat call.senderID call.receiverID))) ∨
    (∃ db stored db', storeDM w env call = ({ w with
          db := db'
          addressed := w.addressed ++ [(stored.id, call.receiverID)] }, .ok stored) ∧
      (db = w.db ∨
        ((∀ c, ¬ (w.db.Member c call.senderID ∧ w.db.Member c call.receiverID)) ∧
          ChatCreated w.db db env.newChat call.senderID call.receiverID)) ∧
      db.Member stored.chatID call.senderID ∧ db.Member stored.chatID call.receiverID ∧
      stored.senderID = call.senderID ∧ stored.body = call.body ∧
      MessageStored db db' stored) := by
  rw [storeDM]
  rcases findOrCreateChat_cases w.db env call.senderID call.receiverID with
    ⟨e, hf⟩ | ⟨c, hf, ha, hb⟩ | ⟨db, hf, hnone, hcr⟩
  · rw [hf]
    exact Or.inl ⟨_, _, rfl, Or.inl rfl⟩
  · rw [hf]
    simp only [insertDM]
    cases hins : w.db.insertMessage env c call.senderID call.body with
    | error e =>
        simp only
        exact Or.inl ⟨_, _, rfl, Or.inl rfl⟩
    | ok p =>
        obtain ⟨db', stored⟩ := p
        obtain ⟨hm, hst⟩ := insertMessage_ok hins
        simp only
        refine Or.inr ⟨w.db, stored, db', rfl, Or.inl rfl, ?_, ?_, ?_, ?_, hst⟩
        · rw [hm]; exact ha
        · rw [hm]; exact hb
        · rw [hm]; rfl
        · rw [hm]; rfl
  · rw [hf]
    simp only [insertDM]
    cases hins : db.insertMessage env env.newChat call.senderID call.body with
    | error e =>
        simp only
        exact Or.inl ⟨_, _, rfl, Or.inr ⟨hnone, hcr⟩⟩
    | ok p =>
        obtain ⟨db', stored⟩ := p
        obtain ⟨hm, hst⟩ := insertMessage_ok hins
        simp only
        refine Or.inr ⟨db, stored, db', rfl, Or.inr ⟨hnone, hcr⟩, ?_, ?_, ?_, ?_, hst⟩
        · rw [hm]; exact (hcr.members _ _).mpr (Or.inr ⟨rfl, Or.inl rfl⟩)
        · rw [hm]; exact (hcr.members _ _).mpr (Or.inr ⟨rfl, Or.inr rfl⟩)
        · rw [hm]; rfl
        · rw [hm]; rfl

/-- What is stored has gone through the `SELECT` and the `INSERT`. -/
theorem storeDM_stmts {w w' : World} {env : Env} {call : DmCall} {stored : Message}
    (h : storeDM w env call = (w', .ok stored)) :
    env.ok .findChat = true ∧ env.ok .insertMessage = true ∧ NulFree call.body := by
  rw [storeDM] at h
  cases hf : w.db.findOrCreateChat env call.senderID call.receiverID with
  | mk db r =>
      rw [hf] at h
      cases r with
      | error e => cases congrArg Prod.snd h
      | ok c =>
          refine ⟨findOrCreateChat_stmt hf, ?_⟩
          simp only [insertDM] at h
          cases hins : db.insertMessage env c call.senderID call.body with
          | error e =>
              rw [hins] at h
              cases congrArg Prod.snd h
          | ok p => exact insertMessage_stmt hins

/-- `deliverDM` changes at most the status of the stored message, and keeps the
    history of addressees. -/
theorem deliverDM_db (w : World) (env : Env) (call : DmCall) (stored : Message) :
    ((deliverDM w env call stored).1.db = w.db ∨
      (deliverDM w env call stored).1.db = w.db.setStatus stored.id .delivered) ∧
    (deliverDM w env call stored).1.addressed = w.addressed := by
  rw [deliverDM]
  cases hs : w.send call.receiverID (call.outbound stored) with
  | mk w₁ delivered =>
      have hdb : w₁.db = w.db := by
        have := send_db w call.receiverID (call.outbound stored)
        rw [hs] at this
        exact this
      have haddr : w₁.addressed = w.addressed := by
        have := send_addressed w call.receiverID (call.outbound stored)
        rw [hs] at this
        exact this
      cases delivered with
      | true =>
          simp only [if_true, send_db, send_addressed, markDelivered_addressed]
          refine ⟨?_, haddr⟩
          rw [← hdb]
          exact markDelivered_db w₁ env stored.id
      | false =>
          simp only [Bool.false_eq_true, if_false]
          cases hp : w₁.publish env call.receiverID (call.outbound stored) with
          | none => exact ⟨Or.inl hdb, haddr⟩
          | some w₂ =>
              obtain ⟨hdb₂, -, haddr₂, -⟩ := publish_some hp
              exact ⟨Or.inl (hdb₂.trans hdb), haddr₂.trans haddr⟩

/-- **`deliverDM` WHEN ITS CALLS SUCCEED**: the message is marked 'delivered' when
    the local hub took it, and published when not; then comes the ack. -/
theorem deliverDM_up {w : World} {env : Env} (call : DmCall) (stored : Message)
    (hup : env.ok .updateStatus = true) (hpub : env.ok .publish = true) :
    (deliverDM w env call stored).1.hub =
      (((w.hub.send call.receiverID (call.outbound stored)).1).send call.senderID
        (call.ack stored)).1 ∧
    (Enqueues w.hub call.receiverID →
      (deliverDM w env call stored).1.db = w.db.setStatus stored.id .delivered ∧
      (deliverDM w env call stored).1.router = w.router) ∧
    (¬ Enqueues w.hub call.receiverID →
      (deliverDM w env call stored).1.db = w.db ∧
      (deliverDM w env call stored).1.router =
        w.router.publish call.receiverID (call.outbound stored)) := by
  obtain ⟨hyes, hno⟩ := send_enqueues w.hub call.receiverID (call.outbound stored)
  rw [deliverDM]
  cases hs : w.send call.receiverID (call.outbound stored) with
  | mk w₁ delivered =>
      obtain ⟨rfl, hdel⟩ : { w with
          hub := (w.hub.send call.receiverID (call.outbound stored)).1 } = w₁ ∧
          (w.hub.send call.receiverID (call.outbound stored)).2 = delivered :=
        Prod.mk.inj hs
      rw [hdel] at hyes hno
      cases delivered with
      | true =>
          simp only [if_true, markDelivered, Db.updateMessageStatus, hup]
          refine ⟨rfl, fun _ => ⟨rfl, rfl⟩, fun he => ?_⟩
          cases (hno he).1
      | false =>
          simp only [Bool.false_eq_true, if_false, World.publish, hpub, if_true]
          refine ⟨rfl, fun he => ?_, fun _ => ⟨rfl, rfl⟩⟩
          cases (hyes he).1

/-! ## What the handlers emit -/

variable {Q : UUID → Frame → Prop}

/-- `deliverDM` emits the message's frame for the receiver and its ack for the
    sender. -/
theorem emits_deliverDM (w : World) (env : Env) {call : DmCall} {stored : Message}
    (hout : Q call.receiverID (call.outbound stored))
    (hack : Q call.senderID (call.ack stored)) :
    Emits Q w (deliverDM w env call stored).1 := by
  have hsend := emits_send w hout
  rw [deliverDM]
  cases hs : w.send call.receiverID (call.outbound stored) with
  | mk w₁ delivered =>
      rw [hs] at hsend
      cases delivered with
      | true =>
          simp only [if_true]
          have hmark : Emits Q w₁ (markDelivered w₁ env stored.id) :=
            Emits.of_quiet (markDelivered_hub w₁ env stored.id)
              (markDelivered_published w₁ env stored.id)
          exact (hsend.trans hmark).trans (emits_send _ hack)
      | false =>
          simp only [Bool.false_eq_true, if_false]
          cases hp : w₁.publish env call.receiverID (call.outbound stored) with
          | none => exact hsend
          | some w₂ => exact (hsend.trans (emits_publish hp hout)).trans (emits_send _ hack)

/-- The rows `deliverDM` starts from are still there when it is done, but for
    their status. -/
theorem mem_deliverDM {w : World} (env : Env) (call : DmCall) (stored : Message)
    {m : Message} (hm : m ∈ w.db.messages.rows) :
    ∃ m' ∈ (deliverDM w env call stored).1.db.messages.rows,
      m'.id = m.id ∧ m'.senderID = m.senderID ∧ m'.body = m.body := by
  rcases (deliverDM_db w env call stored).1 with hdb | hdb
  · rw [hdb]
    exact ⟨m, hm, rfl, rfl, rfl⟩
  · rw [hdb]
    refine ⟨_, mem_setStatus.mpr ⟨m, hm, rfl⟩, ?_, ?_, ?_⟩ <;>
      · split <;> rfl

/-- A call is made in the name of the connection's user. -/
theorem parseDM_ok {fmt : Formats} {senderID : UUID} {senderName : String} {raw : List UInt8}
    {call : DmCall} (h : parseDM fmt senderID senderName raw = .ok call) :
    call.senderID = senderID ∧ call.senderName = senderName := by
  rw [parseDM] at h
  split at h
  · cases h
  · simp only at h
    split at h
    · split at h
      · cases h
      · rw [← Except.ok.inj h]
        exact ⟨rfl, rfl⟩
    · cases h

/-- **`HandleDM` EMITS ONE STORED ROW**: the frame of a message it stored for its
    caller, for the receiver, and that message's ack, for the caller. -/
theorem emits_handleDM {fmt : Formats} {w : World} {env : Env} {senderID : UUID}
    {senderName : String} {raw : List UInt8}
    (hack : ∀ f, Q senderID f)
    (hrow : ∀ m ∈ (handleDM fmt w env senderID senderName raw).1.db.messages.rows,
      m.senderID = senderID → ∀ u ts,
        Q u (.message senderName senderID m.body m.id ts)) :
    Emits Q w (handleDM fmt w env senderID senderName raw).1 := by
  rw [handleDM] at hrow ⊢
  cases hp : parseDM fmt senderID senderName raw with
  | error e => exact Emits.refl w
  | ok call =>
      have hcall := parseDM_ok hp
      simp only [hp] at hrow ⊢
      rw [runDM] at hrow ⊢
      rcases storeDM_cases w env call with ⟨e, db, hs, -⟩ |
        ⟨db, stored, db', hs, -, -, -, hsender, -, hst⟩
      · rw [hs]
        exact Emits.of_quiet rfl rfl
      · rw [hs] at hrow ⊢
        simp only at hrow ⊢
        have hin : stored ∈ db'.messages.rows := by
          rw [hst.messages]
          exact List.mem_concat_self
        obtain ⟨m, hm, hid, hsnd, hbody⟩ := mem_deliverDM (w := { w with
            db := db', addressed := w.addressed ++ [(stored.id, call.receiverID)] })
          env call stored hin
        have hQ := hrow m hm (by rw [hsnd, hsender, hcall.1])
        have hout : Q call.receiverID (call.outbound stored) := by
          rw [DmCall.outbound]
          rw [hcall.1, hcall.2, ← hid, ← hbody]
          exact hQ _ _
        have hreply : Q call.senderID (call.ack stored) := by
          rw [hcall.1]
          exact hack _
        have hstep := emits_deliverDM { w with
          db := db', addressed := w.addressed ++ [(stored.id, call.receiverID)] } env
          hout hreply
        exact ⟨hstep.users, hstep.log, hstep.published⟩

end PeerHandler
