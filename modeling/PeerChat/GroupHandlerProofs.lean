import PeerChat.HandlerProofs

/-! # The group handlers of `chat/group.go`

    Each decodes its payload, asks the membership it needs, works on the tables
    and answers the user who asked; a group message is sent to every other
    member the hub holds. -/

namespace PeerHandler

open PeerEnv JsonDecode PeerHub PeerStore PeerFrame PeerWorld

/-- `sendError`. -/
def sendError (w : World) (userID : UUID) (msg : String) : World :=
  (w.send userID (.error msg)).1

/-- A decoded `string` field of a payload, a UUID. -/
def uuidField (fmt : Formats) (text : String) (f : FieldValue String) :
    Except HandlerError UUID :=
  match fmt.uuidParse f.value with
  | some id => .ok id
  | none => .error ⟨text, .uuid⟩

/-! ## `HandleGroupMessage` -/

/-- A decoded `groupMsgInbound`. -/
structure GroupCall where
  groupID : UUID
  body : String

def parseGroupMessage (fmt : Formats) (raw : List UInt8) : Except HandlerError GroupCall :=
  match structEntries raw with
  | none => .error ⟨"invalid group_message payload: ", .json⟩
  | some es =>
      let type := stringField "type" es
      let groupID := stringField "group_id" es
      let body := stringField "body" es
      if type.ok && groupID.ok && body.ok then
        match uuidField fmt "invalid group_id: " groupID with
        | .error e => .error e
        | .ok id => .ok ⟨id, body.value⟩
      else .error ⟨"invalid group_message payload: ", .json⟩

/-- The loop over the members: everybody but the sender. -/
def fanOut (w : World) (senderID : UUID) (outbound : Frame) :
    List GroupMemberInfo → World
  | [] => w
  | m :: members =>
      let w := if m.userID ≠ senderID then (w.send m.userID outbound).1 else w
      fanOut w senderID outbound members

/-- `outbound`. -/
def groupOutbound (senderName : String) (call : GroupCall) (stored : GroupMessage) : Frame :=
  .groupMessage call.groupID senderName stored.senderID stored.body stored.id
    stored.createdAt

/-- The part of `HandleGroupMessage` after the message is stored. -/
def deliverGroup (w : World) (env : Env) (senderID : UUID) (senderName : String)
    (call : GroupCall) (stored : GroupMessage) : World × Except HandlerError Unit :=
  match w.db.getGroupMembers env call.groupID with
  | .error e => (w, .error ⟨"", .db e⟩)
  | .ok members =>
      let w := fanOut w senderID (groupOutbound senderName call stored) members
      ((w.send senderID (.groupSent stored.id)).1, .ok ())

/-- `HandleGroupMessage`. -/
def handleGroupMessage (fmt : Formats) (w : World) (env : Env) (senderID : UUID)
    (senderName : String) (raw : List UInt8) : World × Except HandlerError Unit :=
  match parseGroupMessage fmt raw with
  | .error e => (w, .error e)
  | .ok call =>
      match w.db.isGroupMember env call.groupID senderID with
      | .error e => (w, .error ⟨"", .db e⟩)
      | .ok false => (sendError w senderID "not a member of this group", .ok ())
      | .ok true =>
          match w.db.insertGroupMessage env call.groupID senderID call.body with
          | .error e => (w, .error ⟨"insert group message: ", .db e⟩)
          | .ok (db, stored) =>
              deliverGroup { w with db := db } env senderID senderName call stored

/-! ## `HandleCreateGroup` -/

def parseCreateGroup (raw : List UInt8) : Except HandlerError String :=
  match structEntries raw with
  | none => .error ⟨"", .json⟩
  | some es =>
      let name := stringField "name" es
      if name.ok then .ok name.value else .error ⟨"", .json⟩

/-- `HandleCreateGroup`. -/
def handleCreateGroup (w : World) (env : Env) (creatorID : UUID) (raw : List UInt8) :
    World × Except HandlerError Unit :=
  match parseCreateGroup raw with
  | .error e => (w, .error e)
  | .ok name =>
      match w.db.createGroup env name creatorID with
      | .error .uniqueViolation =>
          (sendError w creatorID "group name already taken", .ok ())
      | .error e => (w, .error ⟨"create group: ", .db e⟩)
      | .ok (db, group) =>
          let w := { w with db := db }
          ((w.send creatorID (.groupCreated group.id group.name)).1, .ok ())

/-! ## `HandleAddMember` and `HandleLeaveGroup` -/

def parseAddMember (fmt : Formats) (raw : List UInt8) :
    Except HandlerError (UUID × UUID) :=
  match structEntries raw with
  | none => .error ⟨"", .json⟩
  | some es =>
      let groupID := stringField "group_id" es
      let userID := stringField "user_id" es
      if groupID.ok && userID.ok then do
        let group ← uuidField fmt "" groupID
        let user ← uuidField fmt "" userID
        return (group, user)
      else .error ⟨"", .json⟩

/-- `HandleAddMember`. -/
def handleAddMember (fmt : Formats) (w : World) (env : Env) (adderID : UUID)
    (raw : List UInt8) : World × Except HandlerError Unit :=
  match parseAddMember fmt raw with
  | .error e => (w, .error e)
  | .ok (groupID, userID) =>
      match w.db.isGroupMember env groupID adderID with
      | .error e => (w, .error ⟨"", .db e⟩)
      | .ok false => (sendError w adderID "you are not a member of this group", .ok ())
      | .ok true =>
          match w.db.addGroupMember env groupID userID .member with
          | .error _ => (sendError w adderID "failed to add member", .ok ())
          | .ok db =>
              let w := { w with db := db }
              ((w.send adderID (.memberAdded groupID userID)).1, .ok ())

def parseLeaveGroup (fmt : Formats) (raw : List UInt8) : Except HandlerError UUID :=
  match structEntries raw with
  | none => .error ⟨"", .json⟩
  | some es =>
      let groupID := stringField "group_id" es
      if groupID.ok then uuidField fmt "" groupID else .error ⟨"", .json⟩

/-- `HandleLeaveGroup`. -/
def handleLeaveGroup (fmt : Formats) (w : World) (env : Env) (userID : UUID)
    (raw : List UInt8) : World × Except HandlerError Unit :=
  match parseLeaveGroup fmt raw with
  | .error e => (w, .error e)
  | .ok groupID =>
      match w.db.removeGroupMember env groupID userID with
      | .error e => (w, .error ⟨"", .db e⟩)
      | .ok (_, false) => (sendError w userID "you are not a member of this group", .ok ())
      | .ok (db, true) =>
          let w := { w with db := db }
          ((w.send userID (.leftGroup groupID)).1, .ok ())

/-! ## What they emit -/

variable {Q : UUID → Frame → Prop}

/-- A fan-out sends the one frame, to members. -/
theorem emits_fanOut {senderID : UUID} {outbound : Frame} (hQ : ∀ u, Q u outbound) :
    ∀ (members : List GroupMemberInfo) (w : World),
      Emits Q w (fanOut w senderID outbound members) := by
  intro members
  induction members with
  | nil => intro w; exact Emits.refl w
  | cons m members ih =>
      intro w
      rw [fanOut]
      refine Emits.trans ?_ (ih _)
      split
      · exact emits_send w (hQ m.userID)
      · exact Emits.refl w

/-- A fan-out writes no row. -/
@[simp] theorem fanOut_db (senderID : UUID) (outbound : Frame) :
    ∀ (members : List GroupMemberInfo) (w : World),
      (fanOut w senderID outbound members).db = w.db := by
  intro members
  induction members with
  | nil => intro w; rfl
  | cons m members ih =>
      intro w
      rw [fanOut]
      rw [ih]
      split <;> rfl

/-- After the insert, a group message's frames carry the stored row. -/
theorem emits_deliverGroup (w : World) (env : Env) (senderID : UUID)
    {senderName : String} {call : GroupCall} {stored : GroupMessage}
    (hout : ∀ u, Q u (groupOutbound senderName call stored))
    (hack : ∀ u, Q u (.groupSent stored.id)) :
    Emits Q w (deliverGroup w env senderID senderName call stored).1 ∧
      (deliverGroup w env senderID senderName call stored).1.db = w.db := by
  rw [deliverGroup]
  cases w.db.getGroupMembers env call.groupID with
  | error e => exact ⟨Emits.refl w, rfl⟩
  | ok members =>
      refine ⟨(emits_fanOut hout members w).trans (emits_send _ (hack senderID)), ?_⟩
      simp

/-- **`HandleGroupMessage` EMITS ANSWERS AND STORED ROWS**: an error to the
    sender, or frames of the one row it stored. -/
theorem emits_handleGroupMessage {fmt : Formats} {w : World} {env : Env}
    {senderID : UUID} {senderName : String} {raw : List UInt8}
    (herr : ∀ u msg, Q u (.error msg))
    (hrow : ∀ call stored, stored.senderID = senderID →
      stored ∈ (handleGroupMessage fmt w env senderID senderName raw).1.db.groupMessages.rows →
      ∀ u, Q u (groupOutbound senderName call stored) ∧ Q u (.groupSent stored.id)) :
    Emits Q w (handleGroupMessage fmt w env senderID senderName raw).1 := by
  rw [handleGroupMessage] at hrow ⊢
  cases hp : parseGroupMessage fmt raw with
  | error e => exact Emits.refl w
  | ok call =>
      simp only [hp] at hrow ⊢
      cases hm : w.db.isGroupMember env call.groupID senderID with
      | error e => exact Emits.refl w
      | ok member =>
          simp only [hm] at hrow ⊢
          cases member with
          | false => exact emits_send w (herr senderID _)
          | true =>
              simp only at hrow ⊢
              cases hi : w.db.insertGroupMessage env call.groupID senderID call.body with
              | error e => exact Emits.refl w
              | ok p =>
                  obtain ⟨db, stored⟩ := p
                  simp only [hi] at hrow ⊢
                  obtain ⟨hstored, hrows, -, -⟩ := insertGroupMessage_ok hi
                  have hdb : (deliverGroup { w with db := db } env senderID senderName
                      call stored).1.db = db :=
                    (emits_deliverGroup (Q := fun _ _ => True) { w with db := db } env
                      senderID (fun _ => trivial) (fun _ => trivial)).2
                  have hin : stored ∈ (deliverGroup { w with db := db } env senderID
                      senderName call stored).1.db.groupMessages.rows := by
                    rw [hdb, hrows]
                    exact List.mem_concat_self
                  have hs : stored.senderID = senderID := by
                    rw [hstored]
                    rfl
                  have hQ := hrow call stored hs hin
                  exact (emits_deliverGroup _ env senderID (fun u => (hQ u).1)
                    (fun u => (hQ u).2)).1.ofDb

/-- The other group handlers answer the user who asked, and nobody else. -/
theorem emits_handleCreateGroup {w : World} {env : Env} {creatorID : UUID}
    {raw : List UInt8} (hQ : ∀ f, Q creatorID f) :
    Emits Q w (handleCreateGroup w env creatorID raw).1 := by
  rw [handleCreateGroup]
  cases parseCreateGroup raw with
  | error e => exact Emits.refl w
  | ok name =>
      simp only
      split
      · exact emits_send w (hQ _)
      · exact Emits.refl w
      · exact (emits_send _ (hQ _)).ofDb

/-- `HandleAddMember` answers whoever adds. -/
theorem emits_handleAddMember {fmt : Formats} {w : World} {env : Env} {adderID : UUID}
    {raw : List UInt8} (hQ : ∀ f, Q adderID f) :
    Emits Q w (handleAddMember fmt w env adderID raw).1 := by
  rw [handleAddMember]
  split
  · exact Emits.refl w
  · split
    · exact Emits.refl w
    · exact emits_send w (hQ _)
    · split
      · exact emits_send w (hQ _)
      · exact (emits_send _ (hQ _)).ofDb

/-- `HandleLeaveGroup` answers whoever leaves. -/
theorem emits_handleLeaveGroup {fmt : Formats} {w : World} {env : Env} {userID : UUID}
    {raw : List UInt8} (hQ : ∀ f, Q userID f) :
    Emits Q w (handleLeaveGroup fmt w env userID raw).1 := by
  rw [handleLeaveGroup]
  split
  · exact Emits.refl w
  · split
    · exact Emits.refl w
    · exact emits_send w (hQ _)
    · exact (emits_send _ (hQ _)).ofDb

end PeerHandler
