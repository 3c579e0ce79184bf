import PeerChat.EnvProofs
import PeerChat.KeyedTableProofs

/-! # The Postgres schema and the queries of package `db`

    The tables of `migrations/000001_init.up.sql` with their primary keys,
    unique columns and foreign keys as fields of the state, so that a store
    the schema forbids cannot be built; and the statements of
    `db/messages.go`, `db/groups.go` and `db/users.go` over them.

    A statement fails when its environment says so, when a text among its
    parameters holds a NUL, or when a constraint is violated.  A failed transaction
    leaves the tables as they were. -/

namespace PeerStore

open PeerEnv KeyedTable

/-- `messages.status`, with its `CHECK`. -/
inductive Status where
  | sent
  | delivered
  | read
  deriving DecidableEq, Repr

/-- The order of the ticks a message collects. -/
def Status.rank : Status → Nat
  | .sent => 0
  | .delivered => 1
  | .read => 2

/-- `group_members.role`. -/
inductive Role where
  | member
  | admin
  deriving DecidableEq, Repr

structure User where
  id : UUID
  username : String
  passwordHash : String
  deriving DecidableEq, Repr

structure ChatMember where
  chatID : UUID
  userID : UUID
  deriving DecidableEq, Repr

structure Message where
  id : UUID
  chatID : UUID
  senderID : UUID
  body : String
  status : Status
  createdAt : Nat
  deriving DecidableEq, Repr

/-- The row after `SET status = st`. -/
def Message.withStatus (m : Message) (st : Status) : Message := { m with status := st }

@[simp] theorem withStatus_id (m : Message) (st : Status) :
    (m.withStatus st).id = m.id := rfl
@[simp] theorem withStatus_chatID (m : Message) (st : Status) :
    (m.withStatus st).chatID = m.chatID := rfl
@[simp] theorem withStatus_senderID (m : Message) (st : Status) :
    (m.withStatus st).senderID = m.senderID := rfl
@[simp] theorem withStatus_status (m : Message) (st : Status) :
    (m.withStatus st).status = st := rfl

structure Group where
  id : UUID
  name : String
  createdBy : UUID
  createdAt : Nat
  deriving DecidableEq, Repr

structure GroupMember where
  groupID : UUID
  userID : UUID
  role : Role
  joinedAt : Nat
  deriving DecidableEq, Repr

structure GroupMessage where
  id : UUID
  groupID : UUID
  senderID : UUID
  body : String
  createdAt : Nat
  deriving DecidableEq, Repr

/-- The store.  The propositional fields are the schema's unique columns and
    its foreign keys. -/
structure Db where
  users : Table User UUID User.id
  chats : Table UUID UUID id
  chatMembers : Table ChatMember ChatMember id
  messages : Table Message UUID Message.id
  groups : Table Group UUID Group.id
  groupMembers : Table GroupMember (UUID × UUID) (fun r => (r.groupID, r.userID))
  groupMessages : Table GroupMessage UUID GroupMessage.id
  username_unique : (users.rows.map User.username).Nodup
  groupName_unique : (groups.rows.map Group.name).Nodup
  member_chat : ∀ r ∈ chatMembers.rows, r.chatID ∈ chats.rows
  member_user : ∀ r ∈ chatMembers.rows, r.userID ∈ users.keys
  message_chat : ∀ m ∈ messages.rows, m.chatID ∈ chats.rows
  message_sender : ∀ m ∈ messages.rows, m.senderID ∈ users.keys
  groupMember_group : ∀ r ∈ groupMembers.rows, r.groupID ∈ groups.keys
  groupMember_user : ∀ r ∈ groupMembers.rows, r.userID ∈ users.keys

/-- What a failed statement reports. -/
inductive DbError where
  | failed
  | noRows
  | uniqueViolation
  | foreignKeyViolation
  deriving DecidableEq, Repr

/-- A call that fails exactly when its environment says so. -/
def guardOk (env : Env) (st : Stmt) : Except DbError Unit :=
  if env.ok st then .ok () else .error .failed

/-- A `TEXT` or `VARCHAR` value holds no NUL character. -/
def NulFree (s : String) : Prop := Char.ofNat 0 ∉ s.toList

instance (s : String) : Decidable (NulFree s) := inferInstanceAs (Decidable (¬ _))

/-- A call with a text among its parameters: Postgres refuses a NUL. -/
def guardText (env : Env) (st : Stmt) (s : String) : Except DbError Unit :=
  if env.ok st ∧ NulFree s then .ok () else .error .failed

/-- A store with users and nothing else. -/
def Db.ofUsers (users : Table User UUID User.id)
    (hname : (users.rows.map User.username).Nodup) : Db where
  users := users
  chats := KeyedTable.empty
  chatMembers := KeyedTable.empty
  messages := KeyedTable.empty
  groups := KeyedTable.empty
  groupMembers := KeyedTable.empty
  groupMessages := KeyedTable.empty
  username_unique := hname
  groupName_unique := List.nodup_nil
  member_chat := by intro r hr; cases hr
  member_user := by intro r hr; cases hr
  message_chat := by intro m hm; cases hm
  message_sender := by intro m hm; cases hm
  groupMember_group := by intro r hr; cases hr
  groupMember_user := by intro r hr; cases hr

/-- Three accounts; the concrete runs start from this store. -/
def threeUsers : Db :=
  Db.ofUsers ⟨[⟨⟨1⟩, "alice", ""⟩, ⟨⟨2⟩, "bob", ""⟩, ⟨⟨3⟩, "carol", ""⟩], by decide⟩
    (by decide)

/-- `u` is a member of the chat. -/
def Db.Member (db : Db) (chat u : UUID) : Prop := ⟨chat, u⟩ ∈ db.chatMembers.rows

instance (db : Db) (chat u : UUID) : Decidable (db.Member chat u) :=
  inferInstanceAs (Decidable (_ ∈ _))

/-! ## `db/messages.go` -/

/-- The self-join of `FindOrCreateChat`: one row for every pair of membership
    rows `cm1`, `cm2` of one chat with `cm1.user_id = userA` and
    `cm2.user_id = userB`. -/
def Db.selectChat (db : Db) (userA userB : UUID) : List UUID :=
  db.chatMembers.rows.flatMap fun cm1 =>
    (db.chatMembers.rows.filter fun cm2 =>
      cm1.chatID = cm2.chatID ∧ cm1.userID = userA ∧ cm2.userID = userB).map
      fun _ => cm1.chatID

/-- `INSERT INTO chats DEFAULT VALUES RETURNING id`. -/
def Db.insertChat (db : Db) (chat : UUID) : Except DbError Db :=
  match h : db.chats.insert chat with
  | none => .error .uniqueViolation
  | some t => .ok { db with
      chats := t
      member_chat := by
        intro r hr
        rw [(insert_eq_some h).2]
        exact List.mem_append_left _ (db.member_chat r hr)
      message_chat := by
        intro m hm
        rw [(insert_eq_some h).2]
        exact List.mem_append_left _ (db.message_chat m hm) }

/-- One row of `INSERT INTO chat_members`. -/
def Db.insertChatMember (db : Db) (chat user : UUID) : Except DbError Db :=
  if hc : chat ∈ db.chats.rows ∧ user ∈ db.users.keys then
    match h : db.chatMembers.insert ⟨chat, user⟩ with
    | none => .error .uniqueViolation
    | some t => .ok { db with
        chatMembers := t
        member_chat := by
          intro r hr
          rw [(insert_eq_some h).2] at hr
          rcases List.mem_append.mp hr with hold | hnew
          · exact db.member_chat r hold
          · rw [List.mem_singleton.mp hnew]; exact hc.1
        member_user := by
          intro r hr
          rw [(insert_eq_some h).2] at hr
          rcases List.mem_append.mp hr with hold | hnew
          · exact db.member_user r hold
          · rw [List.mem_singleton.mp hnew]; exact hc.2 }
  else .error .foreignKeyViolation

/-- The transaction of `FindOrCreateChat`: begin, insert the chat, insert both
    members in one statement, commit. -/
def Db.createChat (db : Db) (env : Env) (userA userB : UUID) : Except DbError Db := do
  guardOk env .beginTx
  guardOk env .insertChat
  let tx ← db.insertChat env.newChat
  guardOk env .insertMembers
  let tx ← tx.insertChatMember env.newChat userA
  let tx ← tx.insertChatMember env.newChat userB
  guardOk env .commit
  return tx

/-- The lookup of `FindOrCreateChat`: an answer, or `noRows`. -/
def Db.findChat (db : Db) (env : Env) (userA userB : UUID) : Except DbError UUID := do
  guardOk env .findChat
  match limitOne env.pick (db.selectChat userA userB) with
  | some chat => return chat
  | none => throw .noRows

/-- `FindOrCreateChat`: the tables afterwards and the returned chat id. -/
def Db.findOrCreateChat (db : Db) (env : Env) (userA userB : UUID) :
    Db × Except DbError UUID :=
  match db.findChat env userA userB with
  | .ok chat => (db, .ok chat)
  | .error .noRows =>
      match db.createChat env userA userB with
      | .ok db' => (db', .ok env.newChat)
      -- `defer tx.Rollback(ctx)`
      | .error e => (db, .error e)
  | .error e => (db, .error e)

/-- The row `InsertMessage` asks for. -/
def newMessage (env : Env) (chatID senderID : UUID) (body : String) : Message :=
  ⟨env.newMessage, chatID, senderID, body, .sent, env.now⟩

/-- `InsertMessage`: the stored row. -/
def Db.insertMessage (db : Db) (env : Env) (chatID senderID : UUID) (body : String) :
    Except DbError (Db × Message) :=
  if env.ok .insertMessage ∧ NulFree body then
    if hr : chatID ∈ db.chats.rows ∧ senderID ∈ db.users.keys then
      match h : db.messages.insert (newMessage env chatID senderID body) with
      | none => .error .uniqueViolation
      | some t => .ok ({ db with
          messages := t
          message_chat := by
            intro m hm
            rw [(insert_eq_some h).2] at hm
            rcases List.mem_append.mp hm with hold | hnew
            · exact db.message_chat m hold
            · rw [List.mem_singleton.mp hnew]; exact hr.1
          message_sender := by
            intro m hm
            rw [(insert_eq_some h).2] at hm
            rcases List.mem_append.mp hm with hold | hnew
            · exact db.message_sender m hold
            · rw [List.mem_singleton.mp hnew]; exact hr.2 },
          newMessage env chatID senderID body)
    else .error .foreignKeyViolation
  else .error .failed

/-- The rewriting of `UPDATE messages SET status = $1 WHERE id = $2`. -/
def Db.setStatus (db : Db) (messageID : UUID) (status : Status) : Db :=
  { db with
    messages := db.messages.update messageID (fun m => m.withStatus status)
      (fun m => withStatus_id m status)
    message_chat := by
      intro m hm
      obtain ⟨m₀, h₀, heq⟩ := (mem_update _).mp hm
      have hchat : m.chatID = m₀.chatID := by
        rw [heq]; split <;> rfl
      rw [hchat]
      exact db.message_chat m₀ h₀
    message_sender := by
      intro m hm
      obtain ⟨m₀, h₀, heq⟩ := (mem_update _).mp hm
      have hsender : m.senderID = m₀.senderID := by
        rw [heq]; split <;> rfl
      rw [hsender]
      exact db.message_sender m₀ h₀ }

/-- `UpdateMessageStatus`.  The `UPDATE` has no guard on the old status, and
    no row with the id is no error. -/
def Db.updateMessageStatus (db : Db) (env : Env) (messageID : UUID)
    (status : Status) : Except DbError Db :=
  if env.ok .updateStatus then .ok (db.setStatus messageID status)
  else .error .failed

/-- `PendingMessage`: a message with its sender's name. -/
structure PendingMessage where
  message : Message
  senderUsername : String
  deriving DecidableEq, Repr

/-- The joins and the `WHERE` of `GetPendingMessages`, before `ORDER BY` and
    `LIMIT`. -/
def Db.pendingRows (db : Db) (userID : UUID) : List PendingMessage :=
  (db.messages.rows.filter fun m => m.senderID ≠ userID ∧ m.status = .sent).flatMap
    fun m => (db.chatMembers.rows.filter fun cm =>
        cm = ⟨m.chatID, userID⟩).flatMap fun _ =>
      (db.users.rows.filter fun u => u.id = m.senderID).map fun u => ⟨m, u.username⟩

/-- The `LIMIT` of `GetPendingMessages`. -/
def pendingLimit : Nat := 100

/-- `GetPendingMessages`. -/
def Db.getPendingMessages (db : Db) (env : Env) (userID : UUID) :
    Except DbError (List PendingMessage) :=
  if env.ok .pending then
    .ok ((orderBy (fun p => p.message.createdAt) (db.pendingRows userID)).take pendingLimit)
  else .error .failed

/-- The rows `GET /messages` selects for a chat, before its `LIMIT`. -/
def Db.historyRows (db : Db) (chatID : UUID) : List PendingMessage :=
  orderBy (fun p => p.message.createdAt)
    ((db.messages.rows.filter fun m => m.chatID = chatID).flatMap fun m =>
      (db.users.rows.filter fun u => u.id = m.senderID).map fun u => ⟨m, u.username⟩)

/-- `GetChatHistory`. -/
def Db.getChatHistory (db : Db) (env : Env) (chatID : UUID) (limit offset : Nat) :
    Except DbError (List Message) :=
  if env.ok .history then
    .ok (((orderByDesc Message.createdAt
      (db.messages.rows.filter fun m => m.chatID = chatID)).drop offset).take limit)
  else .error .failed

/-! ## What the statements do -/

/-- A statement sequence succeeds when its first statement does and the rest
    succeeds after it. -/
theorem bind_eq_ok {ε α β : Type} {x : Except ε α} {f : α → Except ε β} {b : β}
    (h : (x >>= f) = .ok b) : ∃ a, x = .ok a ∧ f a = .ok b := by
  cases x with
  | error e => cases h
  | ok a => exact ⟨a, rfl, h⟩

@[simp] theorem chats_keys (db : Db) : db.chats.keys = db.chats.rows :=
  List.map_id _

@[simp] theorem chatMembers_keys (db : Db) : db.chatMembers.keys = db.chatMembers.rows :=
  List.map_id _

/-- A guarded call succeeds when its environment says so. -/
theorem guardOk_ok {env : Env} {st : Stmt} : guardOk env st = .ok () ↔ env.ok st = true := by
  rw [guardOk]
  split
  · rename_i hok
    exact iff_of_true rfl hok
  · rename_i hok
    exact iff_of_false (fun h => by cases h) hok

/-- The tables a chat insert leaves alone, and the one it extends. -/
theorem insertChat_ok {db db' : Db} {c : UUID} (h : db.insertChat c = .ok db') :
    c ∉ db.chats.rows ∧ db'.chats.rows = db.chats.rows ++ [c] ∧
      db'.chatMembers = db.chatMembers ∧ db'.messages = db.messages ∧
      db'.users = db.users := by
  rw [Db.insertChat] at h
  split at h
  · cases h
  · rename_i t hins
    have hdb := Except.ok.inj h
    obtain ⟨hfree, hrows⟩ := insert_eq_some hins
    rw [chats_keys] at hfree
    exact ⟨hfree, by rw [← hdb]; exact hrows, by rw [← hdb], by rw [← hdb], by rw [← hdb]⟩

/-- A row that is inserted was not there, and is the only one. -/
theorem insertChatMember_ok {db db' : Db} {c u : UUID}
    (h : db.insertChatMember c u = .ok db') :
    ¬ db.Member c u ∧ db'.chatMembers.rows = db.chatMembers.rows ++ [⟨c, u⟩] ∧
      db'.chats = db.chats ∧ db'.messages = db.messages ∧ db'.users = db.users := by
  rw [Db.insertChatMember] at h
  split at h
  · split at h
    · cases h
    · rename_i t hins
      have hdb := Except.ok.inj h
      obtain ⟨hfree, hrows⟩ := insert_eq_some hins
      rw [chatMembers_keys] at hfree
      exact ⟨hfree, by rw [← hdb]; exact hrows, by rw [← hdb], by rw [← hdb], by rw [← hdb]⟩
  · cases h

/-- **What a committed chat transaction did**: a chat nobody was in now has
    exactly two members, who differ; messages and users are untouched. -/
structure ChatCreated (db db' : Db) (c a b : UUID) : Prop where
  distinct : a ≠ b
  fresh : ∀ u, ¬ db.Member c u
  members : ∀ chat u, db'.Member chat u ↔
    db.Member chat u ∨ (chat = c ∧ (u = a ∨ u = b))
  messages : db'.messages = db.messages
  users : db'.users = db.users

/-- **What a committed transaction went through**: its statements, in order. -/
structure ChatTransaction (db db' : Db) (env : Env) (a b : UUID) : Prop where
  up : env.ok .beginTx = true ∧ env.ok .insertChat = true ∧ env.ok .insertMembers = true ∧
    env.ok .commit = true
  inserts : ∃ d1 d2, db.insertChat env.newChat = .ok d1 ∧
    d1.insertChatMember env.newChat a = .ok d2 ∧ d2.insertChatMember env.newChat b = .ok db'

/-- A transaction that commits has gone through all its statements. -/
theorem createChat_transaction {db db' : Db} {env : Env} {a b : UUID}
    (h : db.createChat env a b = .ok db') : ChatTransaction db db' env a b := by
  rw [Db.createChat] at h
  obtain ⟨⟨⟩, hbegin, h⟩ := bind_eq_ok h
  obtain ⟨⟨⟩, hchat, h⟩ := bind_eq_ok h
  obtain ⟨d1, h1, h⟩ := bind_eq_ok h
  obtain ⟨⟨⟩, hmembers, h⟩ := bind_eq_ok h
  obtain ⟨d2, h2, h⟩ := bind_eq_ok h
  obtain ⟨d3, h3, h⟩ := bind_eq_ok h
  obtain ⟨⟨⟩, hcommit, h⟩ := bind_eq_ok h
  rw [← Except.ok.inj h]
  exact ⟨⟨guardOk_ok.mp hbegin, guardOk_ok.mp hchat, guardOk_ok.mp hmembers,
    guardOk_ok.mp hcommit⟩, d1, d2, h1, h2, h3⟩

/-- **A COMMITTED TRANSACTION CREATES A CHAT OF TWO**. -/
theorem createChat_ok {db d3 : Db} {env : Env} {a b : UUID}
    (h : db.createChat env a b = .ok d3) : ChatCreated db d3 env.newChat a b := by
  obtain ⟨d1, d2, h1, h2, h3⟩ := (createChat_transaction h).inserts
  obtain ⟨hfree, -, hm1, hmsg1, hu1⟩ := insertChat_ok h1
  obtain ⟨-, hm2, -, hmsg2, hu2⟩ := insertChatMember_ok h2
  obtain ⟨hb, hm3, -, hmsg3, hu3⟩ := insertChatMember_ok h3
  have hrows : d3.chatMembers.rows
      = db.chatMembers.rows ++ [⟨env.newChat, a⟩] ++ [⟨env.newChat, b⟩] := by
    rw [hm3, hm2, hm1]
  refine ⟨?_, ?_, ?_, ?_, ?_⟩
  · intro hab
    refine hb ?_
    rw [Db.Member]
    rw [hm2, hab]
    exact List.mem_concat_self
  · intro u hu
    exact hfree (db.member_chat _ hu)
  · intro chat u
    rw [Db.Member]
    rw [hrows]
    simp only [List.mem_append, List.mem_singleton, ChatMember.mk.injEq]
    tauto
  · rw [hmsg3, hmsg2, hmsg1]
  · rw [hu3, hu2, hu1]

/-- The committed transaction's one new chat. -/
theorem createChat_chats {db db' : Db} {env : Env} {a b : UUID}
    (h : db.createChat env a b = .ok db') :
    db'.chats.rows = db.chats.rows ++ [env.newChat] := by
  obtain ⟨d1, d2, h1, h2, h3⟩ := (createChat_transaction h).inserts
  obtain ⟨-, hchats, -⟩ := insertChat_ok h1
  obtain ⟨-, -, hchats2, -⟩ := insertChatMember_ok h2
  obtain ⟨-, -, hchats3, -⟩ := insertChatMember_ok h3
  rw [hchats3, hchats2, hchats]

/-- The self-join finds exactly the chats both users are members of. -/
theorem mem_selectChat {db : Db} {a b c : UUID} :
    c ∈ db.selectChat a b ↔ db.Member c a ∧ db.Member c b := by
  rw [Db.selectChat, Db.Member]
  simp only [List.mem_flatMap, List.mem_map, List.mem_filter, decide_eq_true_eq]
  constructor
  · rintro ⟨cm1, h1, cm2, ⟨h2, hc, ha, hb⟩, rfl⟩
    refine ⟨?_, ?_⟩
    · rw [← ha]; exact h1
    · rw [hc, ← hb]; exact h2
  · rintro ⟨ha, hb⟩
    exact ⟨⟨c, a⟩, ha, ⟨c, b⟩, ⟨hb, rfl, rfl, rfl⟩, rfl⟩

/-- A chat that is found is one of both. -/
theorem findChat_ok {db : Db} {env : Env} {a b c : UUID}
    (h : db.findChat env a b = .ok c) : db.Member c a ∧ db.Member c b := by
  rw [Db.findChat] at h
  obtain ⟨-, -, h⟩ := bind_eq_ok h
  split at h
  · rename_i c' hpick
    have hc : c' = c := Except.ok.inj h
    rw [← hc]
    exact mem_selectChat.mp (limitOne_mem hpick)
  · cases h

/-- A lookup that finds no row has run. -/
theorem findChat_stmt {db : Db} {env : Env} {a b : UUID}
    (h : db.findChat env a b ≠ .error .failed) : env.ok .findChat = true := by
  by_contra hok
  refine h ?_
  rw [Db.findChat, guardOk, if_neg hok]
  rfl

/-- Where no row is found there is no chat of both. -/
theorem findChat_noRows {db : Db} {env : Env} {a b : UUID}
    (h : db.findChat env a b = .error .noRows) :
    ∀ c, ¬ (db.Member c a ∧ db.Member c b) := by
  rw [Db.findChat, guardOk] at h
  cases hok : env.ok .findChat with
  | false =>
      rw [hok] at h
      cases h
  | true =>
      rw [hok] at h
      cases hpick : limitOne env.pick (db.selectChat a b) with
      | some c =>
          simp only [if_true, hpick] at h
          cases h
      | none =>
          intro c hc
          have hmem := mem_selectChat.mpr hc
          rw [limitOne_eq_none.mp hpick] at hmem
          cases hmem

/-- **`FindOrCreateChat`, case by case**: it fails and changes nothing, or it
    finds a chat both users are in, or no chat has them both and it creates
    one. -/
theorem findOrCreateChat_cases (db : Db) (env : Env) (a b : UUID) :
    (∃ e, db.findOrCreateChat env a b = (db, .error e)) ∨
    (∃ c, db.findOrCreateChat env a b = (db, .ok c) ∧
      db.Member c a ∧ db.Member c b) ∨
    (∃ db', db.findOrCreateChat env a b = (db', .ok env.newChat) ∧
      (∀ c, ¬ (db.Member c a ∧ db.Member c b)) ∧
      ChatCreated db db' env.newChat a b) := by
  rw [Db.findOrCreateChat]
  cases hfind : db.findChat env a b with
  | ok c => exact Or.inr (Or.inl ⟨c, rfl, findChat_ok hfind⟩)
  | error e =>
      cases e with
      | noRows =>
          cases hcreate : db.createChat env a b with
          | ok db' =>
              exact Or.inr (Or.inr ⟨db', rfl,
                findChat_noRows hfind, createChat_ok hcreate⟩)
          | error e => exact Or.inl ⟨e, rfl⟩
      | failed => exact Or.inl ⟨.failed, rfl⟩
      | uniqueViolation => exact Or.inl ⟨.uniqueViolation, rfl⟩
      | foreignKeyViolation => exact Or.inl ⟨.foreignKeyViolation, rfl⟩

/-- A call that returns a chat has run its lookup. -/
theorem findOrCreateChat_stmt {db db' : Db} {env : Env} {a b c : UUID}
    (h : db.findOrCreateChat env a b = (db', .ok c)) : env.ok .findChat = true := by
  have hran : db.findChat env a b ≠ .error .failed := by
    intro hfailed
    rw [Db.findOrCreateChat, hfailed] at h
    cases congrArg Prod.snd h
  exact findChat_stmt hran

/-- When the lookup succeeds on a store with such a chat, a chat is returned
    and nothing is written; every candidate can be the one returned. -/
theorem findOrCreateChat_of_member {db : Db} (env : Env) {a b c : UUID}
    (hok : env.ok .findChat = true) (ha : db.Member c a) (hb : db.Member c b) :
    ∃ pick, db.findOrCreateChat { env with pick := pick } a b = (db, .ok c) := by
  obtain ⟨pick, hpick⟩ := exists_limitOne (mem_selectChat.mpr ⟨ha, hb⟩)
  refine ⟨pick, ?_⟩
  have hfind : db.findChat { env with pick := pick } a b = .ok c := by
    rw [Db.findChat, guardOk]
    simp only [hok, hpick, if_true]
    rfl
  rw [Db.findOrCreateChat]
  rw [hfind]

/-- **What `InsertMessage` did**: one new row, 'sent', by an existing user. -/
structure MessageStored (db db' : Db) (m : Message) : Prop where
  fresh : m.id ∉ db.messages.keys
  sent : m.status = .sent
  sender : m.senderID ∈ db.users.keys
  messages : db'.messages.rows = db.messages.rows ++ [m]
  chatMembers : db'.chatMembers = db.chatMembers
  users : db'.users = db.users

/-- **A STORED MESSAGE** is the one asked for, as a new row. -/
theorem insertMessage_ok {db db' : Db} {env : Env} {c s : UUID} {body : String}
    {m : Message} (h : db.insertMessage env c s body = .ok (db', m)) :
    m = newMessage env c s body ∧ MessageStored db db' m := by
  rw [Db.insertMessage] at h
  split at h
  · split at h
    · rename_i hrefs
      split at h
      · cases h
      · rename_i t hins
        have hpair := Except.ok.inj h
        have hdb : _ = db' := congrArg Prod.fst hpair
        have hm : newMessage env c s body = m := congrArg Prod.snd hpair
        obtain ⟨hfree, hrows⟩ := insert_eq_some hins
        rw [hm] at hfree hrows
        refine ⟨hm.symm, ⟨hfree, ?_, ?_, ?_, ?_, ?_⟩⟩
        · rw [← hm]; rfl
        · rw [← hm]; exact hrefs.2
        · rw [← hdb]; exact hrows
        · rw [← hdb]
        · rw [← hdb]
    · cases h
  · cases h

/-- A message that is stored has a text Postgres takes. -/
theorem insertMessage_stmt {db : Db} {env : Env} {c s : UUID} {body : String} {p : Db × Message}
    (h : db.insertMessage env c s body = .ok p) :
    env.ok .insertMessage = true ∧ NulFree body := by
  by_contra hok
  rw [Db.insertMessage, if_neg hok] at h
  cases h

theorem insertMessage_chats {db db' : Db} {env : Env} {c s : UUID} {body : String}
    {m : Message} (h : db.insertMessage env c s body = .ok (db', m)) : db'.chats = db.chats := by
  rw [Db.insertMessage] at h
  split at h
  · split at h
    · split at h
      · cases h
      · have hdb : _ = db' := congrArg Prod.fst (Except.ok.inj h)
        rw [← hdb]
    · cases h
  · cases h

@[simp] theorem setStatus_chats (db : Db) (id : UUID) (st : Status) :
    (db.setStatus id st).chats = db.chats := rfl

@[simp] theorem setStatus_chatMembers (db : Db) (id : UUID) (st : Status) :
    (db.setStatus id st).chatMembers = db.chatMembers := rfl

@[simp] theorem setStatus_users (db : Db) (id : UUID) (st : Status) :
    (db.setStatus id st).users = db.users := rfl

/-- A status update keeps the ids. -/
@[simp] theorem setStatus_keys (db : Db) (id : UUID) (st : Status) :
    (db.setStatus id st).messages.keys = db.messages.keys :=
  update_keys db.messages id (fun m => m.withStatus st) (fun m => withStatus_id m st)

/-- After a status update a row is an old one, with the new status if it has the id. -/
theorem mem_setStatus {db : Db} {id : UUID} {st : Status} {m : Message} :
    m ∈ (db.setStatus id st).messages.rows ↔
      ∃ m₀ ∈ db.messages.rows,
        m = if m₀.id = id then m₀.withStatus st else m₀ :=
  mem_update (fun m => withStatus_id m st)

/-- A row after `SET status = st WHERE id = …`, traced back. -/
theorem setStatus_row {db : Db} {id : UUID} {st : Status} {m' : Message}
    (hm' : m' ∈ (db.setStatus id st).messages.rows) :
    ∃ m ∈ db.messages.rows, m.id = m'.id ∧
      ((m.id = id ∧ m'.status = st) ∨ (m.id ≠ id ∧ m'.status = m.status)) := by
  obtain ⟨m, hm, heq⟩ := mem_setStatus.mp hm'
  refine ⟨m, hm, ?_⟩
  by_cases hid : m.id = id
  · rw [if_pos hid] at heq
    rw [heq]
    exact ⟨rfl, Or.inl ⟨hid, rfl⟩⟩
  · rw [if_neg hid] at heq
    rw [heq]
    exact ⟨rfl, Or.inr ⟨hid, rfl⟩⟩

/-- A row of the tables before it, after `SET status = st WHERE id = …`. -/
theorem setStatus_row_of {db : Db} (id : UUID) (st : Status) {m : Message}
    (hm : m ∈ db.messages.rows) :
    ∃ m' ∈ (db.setStatus id st).messages.rows, m'.id = m.id ∧
      ((m.id = id ∧ m'.status = st) ∨ (m.id ≠ id ∧ m'.status = m.status)) := by
  refine ⟨_, mem_setStatus.mpr ⟨m, hm, rfl⟩, ?_⟩
  by_cases hid : m.id = id
  · rw [if_pos hid]
    exact ⟨rfl, Or.inl ⟨hid, rfl⟩⟩
  · rw [if_neg hid]
    exact ⟨rfl, Or.inr ⟨hid, rfl⟩⟩

/-- `UpdateMessageStatus` sets the status, or fails and sets nothing. -/
theorem updateMessageStatus_cases (db : Db) (env : Env) (id : UUID) (st : Status) :
    (env.ok .updateStatus = true ∧
      db.updateMessageStatus env id st = .ok (db.setStatus id st)) ∨
    (env.ok .updateStatus = false ∧
      db.updateMessageStatus env id st = .error .failed) := by
  rw [Db.updateMessageStatus]
  cases env.ok .updateStatus <;> simp

/-- The joins of `GetPendingMessages` select exactly the 'sent' messages of the
    user's chats that somebody else sent. -/
theorem mem_pendingRows {db : Db} {u : UUID} {p : PendingMessage} :
    p ∈ db.pendingRows u ↔
      p.message ∈ db.messages.rows ∧ db.Member p.message.chatID u ∧
        p.message.senderID ≠ u ∧ p.message.status = .sent ∧
        ∃ usr ∈ db.users.rows, usr.id = p.message.senderID ∧
          usr.username = p.senderUsername := by
  rw [Db.pendingRows, Db.Member]
  simp only [List.mem_flatMap, List.mem_map, List.mem_filter, decide_eq_true_eq]
  constructor
  · rintro ⟨m, ⟨hm, hs, hst⟩, cm, ⟨hcm, rfl⟩, usr, ⟨hu, hid⟩, rfl⟩
    exact ⟨hm, hcm, hs, hst, usr, hu, hid, rfl⟩
  · rintro ⟨hm, hcm, hs, hst, usr, hu, hid, hname⟩
    refine ⟨p.message, ⟨hm, hs, hst⟩, _, ⟨hcm, rfl⟩, usr, ⟨hu, hid⟩, ?_⟩
    rw [hname]

/-- Every message that matches the filter is selected: its sender exists. -/
theorem exists_pendingRow {db : Db} {u : UUID} {m : Message}
    (hm : m ∈ db.messages.rows) (hmem : db.Member m.chatID u)
    (hs : m.senderID ≠ u) (hst : m.status = .sent) :
    ∃ p ∈ db.pendingRows u, p.message = m := by
  obtain ⟨usr, hu, hid⟩ := mem_keys.mp (db.message_sender m hm)
  exact ⟨⟨m, usr.username⟩,
    mem_pendingRows.mpr ⟨hm, hmem, hs, hst, usr, hu, hid, rfl⟩, rfl⟩

/-- The joins of `GetPendingMessages` repeat no message. -/
theorem pendingRows_nodup (db : Db) (u : UUID) :
    ((db.pendingRows u).map fun p => p.message.id).Nodup := by
  rw [Db.pendingRows]
  refine nodup_join (f := Message.id)
    ((List.filter_sublist.map Message.id).nodup db.messages.unique) ?_
  intro m _
  have hmem := filter_key_length_le (t := db.chatMembers)
    (p := fun cm => decide (cm = ⟨m.chatID, u⟩)) (k := ⟨m.chatID, u⟩)
    (fun r hr => of_decide_eq_true hr)
  have husr := filter_key_length_le (t := db.users)
    (p := fun usr => decide (usr.id = m.senderID)) (k := m.senderID)
    (fun r hr => of_decide_eq_true hr)
  constructor
  · rw [List.length_flatMap]
    simp only [List.length_map, List.map_const', List.sum_replicate_nat]
    calc _ ≤ 1 * 1 := Nat.mul_le_mul hmem husr
      _ = 1 := rfl
  · intro p hp
    simp only [List.mem_flatMap, List.mem_map] at hp
    obtain ⟨_, _, usr, _, rfl⟩ := hp
    rfl

/-- The backlog is of pending rows, each once, and all of them up to the limit. -/
theorem getPendingMessages_ok {db : Db} {env : Env} {u : UUID}
    {rows : List PendingMessage} (h : db.getPendingMessages env u = .ok rows) :
    (∀ p ∈ rows, p ∈ db.pendingRows u) ∧ (rows.map fun p => p.message.id).Nodup ∧
      ((db.pendingRows u).length ≤ pendingLimit → ∀ p ∈ db.pendingRows u, p ∈ rows) := by
  rw [Db.getPendingMessages] at h
  split at h
  · have hrows := Except.ok.inj h
    have hperm := orderBy_perm (fun p : PendingMessage => p.message.createdAt)
      (db.pendingRows u)
    rw [← hrows]
    refine ⟨?_, ?_, ?_⟩
    · intro p hp
      exact mem_orderBy.mp (List.mem_of_mem_take hp)
    · refine ((List.take_sublist _ _).map _).nodup ?_
      exact (hperm.map _).nodup_iff.mpr (pendingRows_nodup db u)
    · intro hle p hp
      rw [List.take_of_length_le (by rw [hperm.length_eq]; exact hle)]
      exact mem_orderBy.mpr hp
  · cases h

/-- The backlog comes in the order of its times. -/
theorem getPendingMessages_sorted {db : Db} {env : Env} {u : UUID}
    {rows : List PendingMessage} (h : db.getPendingMessages env u = .ok rows) :
    rows.Pairwise fun p q => p.message.createdAt ≤ q.message.createdAt := by
  rw [Db.getPendingMessages] at h
  split at h
  · rw [← Except.ok.inj h]
    exact (orderBy_pairwise _ _).sublist (List.take_sublist _ _)
  · cases h

/-- Whatever is pending after `SET status` was pending before. -/
theorem pendingRows_of_setStatus {db : Db} {id u : UUID} {st : Status} (hst : st ≠ .sent)
    {p : PendingMessage} (hp : p ∈ (db.setStatus id st).pendingRows u) : p ∈ db.pendingRows u := by
  obtain ⟨hm, hmember, hother, hsent, husers⟩ := mem_pendingRows.mp hp
  obtain ⟨m, hm₀, heq⟩ := mem_setStatus.mp hm
  have hold : p.message = m := by
    by_cases hid : m.id = id
    · rw [if_pos hid] at heq
      rw [heq, withStatus_status] at hsent
      exact absurd hsent hst
    · rw [if_neg hid] at heq
      exact heq
  rw [← hold] at hm₀
  exact mem_pendingRows.mpr ⟨hm₀, hmember, hother, hsent, husers⟩

/-- The chat of `FindOrCreateChat` has no messages yet. -/
theorem pendingRows_of_createChat {db db' : Db} {env : Env} {a b u : UUID}
    (h : db.createChat env a b = .ok db') {p : PendingMessage} (hp : p ∈ db'.pendingRows u) :
    p ∈ db.pendingRows u := by
  have hc := createChat_ok h
  obtain ⟨hm, hmember, hother, hsent, husers⟩ := mem_pendingRows.mp hp
  rw [hc.messages] at hm
  rw [hc.users] at husers
  refine mem_pendingRows.mpr ⟨hm, ?_, hother, hsent, husers⟩
  rcases (hc.members _ u).mp hmember with hold | ⟨hnew, -⟩
  · exact hold
  · -- a message of the new chat
    have hnodup : db'.chats.keys.Nodup := db'.chats.unique
    rw [chats_keys, createChat_chats h] at hnodup
    have hchat := db.message_chat _ hm
    rw [hnew] at hchat
    exact absurd rfl ((List.nodup_append.mp hnodup).2.2 _ hchat _ (List.mem_singleton.mpr rfl))

/-- One more message may be pending after `InsertMessage`. -/
theorem pendingRows_of_insertMessage {db db' : Db} {env : Env} {c s u : UUID} {body : String}
    {m : Message} (h : db.insertMessage env c s body = .ok (db', m)) {p : PendingMessage}
    (hp : p ∈ db'.pendingRows u) : p ∈ db.pendingRows u ∨ p.message = m := by
  obtain ⟨-, hst⟩ := insertMessage_ok h
  obtain ⟨hm, hmember, hother, hsent, husers⟩ := mem_pendingRows.mp hp
  rw [hst.messages] at hm
  rw [hst.users] at husers
  rcases List.mem_append.mp hm with hold | hnew
  · left
    rw [Db.Member, hst.chatMembers] at hmember
    exact mem_pendingRows.mpr ⟨hold, hmember, hother, hsent, husers⟩
  · exact Or.inr (List.mem_singleton.mp hnew)

/-- History rows are the chat's messages, each with its sender's name. -/
theorem mem_historyRows {db : Db} {c : UUID} {p : PendingMessage} :
    p ∈ db.historyRows c ↔
      p.message ∈ db.messages.rows ∧ p.message.chatID = c ∧
        ∃ usr ∈ db.users.rows, usr.id = p.message.senderID ∧
          usr.username = p.senderUsername := by
  rw [Db.historyRows]
  rw [mem_orderBy]
  simp only [List.mem_flatMap, List.mem_map, List.mem_filter, decide_eq_true_eq]
  constructor
  · rintro ⟨m, ⟨hm, hc⟩, usr, ⟨hu, hid⟩, rfl⟩
    exact ⟨hm, hc, usr, hu, hid, rfl⟩
  · rintro ⟨hm, hc, usr, hu, hid, hname⟩
    refine ⟨p.message, ⟨hm, hc⟩, usr, ⟨hu, hid⟩, ?_⟩
    rw [hname]

/-- The join with `users` neither drops nor repeats a message. -/
theorem historyRows_message (db : Db) (c : UUID) : (db.historyRows c).map (·.message)
    = orderBy Message.createdAt (db.messages.rows.filter fun m => m.chatID = c) := by
  rw [Db.historyRows, map_orderBy _ _ Message.createdAt _ fun _ _ => rfl]
  congr 1
  rw [List.map_flatMap]
  refine (List.flatMap_congr ?_).trans (List.flatMap_singleton' _)
  intro m hm
  obtain ⟨u, hu⟩ := exists_filter_key (db.message_sender m (List.mem_filter.mp hm).1)
  rw [hu]
  rfl

/-- Every message of a chat is in its history. -/
theorem exists_historyRow {db : Db} {c : UUID} {m : Message}
    (hm : m ∈ db.messages.rows) (hc : m.chatID = c) :
    ∃ p ∈ db.historyRows c, p.message = m := by
  obtain ⟨usr, hu, hid⟩ := mem_keys.mp (db.message_sender m hm)
  exact ⟨⟨m, usr.username⟩, mem_historyRows.mpr ⟨hm, hc, usr, hu, hid, rfl⟩, rfl⟩

end PeerStore
