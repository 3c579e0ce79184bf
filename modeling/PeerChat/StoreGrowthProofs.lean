import PeerChat.GroupStoreProofs
import PeerChat.UserStoreProofs

/-! # What the tables never take back

    Users, chat memberships and messages are only ever added to; of a stored
    message nothing changes but its status, and of a group message nothing at
    all.  `Grows` says so about two states of the tables, and every statement of
    package `db` keeps it.  Only `group_members` can shrink. -/

namespace PeerStore

open PeerEnv KeyedTable

/-- Everything the first tables say, statuses and groups apart, the second still say. -/
structure Grows (db db' : Db) : Prop where
  users : ∀ u ∈ db.users.rows, u ∈ db'.users.rows
  members : ∀ c u, db.Member c u → db'.Member c u
  messages : ∀ m ∈ db.messages.rows, ∃ st, m.withStatus st ∈ db'.messages.rows
  groupMessages : ∀ m ∈ db.groupMessages.rows, m ∈ db'.groupMessages.rows

/-- A store that has not moved has lost nothing. -/
theorem Grows.refl (db : Db) : Grows db db where
  users _ hu := hu
  members _ _ hm := hm
  messages m hm := ⟨m.status, hm⟩
  groupMessages _ hm := hm

/-- Two steps that lose nothing lose nothing together. -/
theorem Grows.trans {a b c : Db} (h : Grows a b) (h' : Grows b c) : Grows a c where
  users u hu := h'.users u (h.users u hu)
  members c u hm := h'.members c u (h.members c u hm)
  messages m hm := by
    obtain ⟨st, hst⟩ := h.messages m hm
    obtain ⟨st', hst'⟩ := h'.messages _ hst
    exact ⟨st', hst'⟩
  groupMessages m hm := h'.groupMessages m (h.groupMessages m hm)

/-- The tables `Grows` speaks of are the same. -/
structure SameRows (db db' : Db) : Prop where
  users : db'.users = db.users
  chats : db'.chats = db.chats
  chatMembers : db'.chatMembers = db.chatMembers
  messages : db'.messages = db.messages
  groupMessages : db'.groupMessages = db.groupMessages

/-- A statement about groups loses no user and no message. -/
theorem SameRows.grows {db db' : Db} (h : SameRows db db') : Grows db db' where
  users u hu := by rw [h.users]; exact hu
  members c u hm := by rw [Db.Member, h.chatMembers]; exact hm
  messages m hm := ⟨m.status, by rw [h.messages]; exact hm⟩
  groupMessages m hm := by rw [h.groupMessages]; exact hm

theorem SameRows.trans {a b c : Db} (h : SameRows a b) (h' : SameRows b c) : SameRows a c where
  users := h'.users.trans h.users
  chats := h'.chats.trans h.chats
  chatMembers := h'.chatMembers.trans h.chatMembers
  messages := h'.messages.trans h.messages
  groupMessages := h'.groupMessages.trans h.groupMessages

-- ── Statement by statement ────────────────────────────────────────────────────

/-- A new user leaves every other table alone. -/
theorem insertUser_tables {db db' : Db} {u : User} (h : db.insertUser u = .ok db') :
    db'.chats = db.chats ∧ db'.chatMembers = db.chatMembers ∧ db'.messages = db.messages ∧
      db'.groupMessages = db.groupMessages := by
  rw [Db.insertUser] at h
  split at h
  · cases h
  · split at h
    · cases h
    · rw [← Except.ok.inj h]
      exact ⟨rfl, rfl, rfl, rfl⟩

/-- `CreateUser` writes the table of users only. -/
theorem createUser_tables {db db' : Db} {env : UserEnv} {username passwordHash : String}
    {u : User} (h : db.createUser env username passwordHash = .ok (db', u)) :
    db'.chats = db.chats ∧ db'.chatMembers = db.chatMembers ∧ db'.messages = db.messages ∧
      db'.groupMessages = db.groupMessages := by
  rw [Db.createUser] at h
  split at h
  · split at h
    · rename_i d hins
      have hd : d = db' := congrArg Prod.fst (Except.ok.inj h)
      rw [← hd]
      exact insertUser_tables hins
    · cases h
  · cases h

/-- `CreateUser` loses nothing. -/
theorem createUser_grows {db db' : Db} {env : UserEnv} {username passwordHash : String}
    {u : User} (h : db.createUser env username passwordHash = .ok (db', u)) : Grows db db' := by
  obtain ⟨-, hmembers, hmessages, hgroup⟩ := createUser_tables h
  refine ⟨?_, ?_, ?_, ?_⟩
  · intro v hv
    rw [(createUser_ok h).2.2]
    exact List.mem_append_left _ hv
  · intro c v hm
    rw [Db.Member, hmembers]
    exact hm
  · intro m hm
    exact ⟨m.status, by rw [hmessages]; exact hm⟩
  · intro m hm
    rw [hgroup]
    exact hm

theorem insertChat_groupMessages {db db' : Db} {c : UUID} (h : db.insertChat c = .ok db') :
    db'.groupMessages = db.groupMessages := by
  rw [Db.insertChat] at h
  split at h
  · cases h
  · rw [← Except.ok.inj h]

theorem insertChatMember_groupMessages {db db' : Db} {c u : UUID}
    (h : db.insertChatMember c u = .ok db') : db'.groupMessages = db.groupMessages := by
  rw [Db.insertChatMember] at h
  split at h
  · split at h
    · cases h
    · rw [← Except.ok.inj h]
  · cases h

/-- A chat is created without a look at the group messages. -/
theorem createChat_groupMessages {db db' : Db} {env : Env} {a b : UUID}
    (h : db.createChat env a b = .ok db') : db'.groupMessages = db.groupMessages := by
  obtain ⟨d1, d2, h1, h2, h3⟩ := (createChat_transaction h).inserts
  rw [insertChatMember_groupMessages h3, insertChatMember_groupMessages h2,
    insertChat_groupMessages h1]

/-- Creating a chat loses nothing. -/
theorem createChat_grows {db db' : Db} {env : Env} {a b : UUID}
    (h : db.createChat env a b = .ok db') : Grows db db' := by
  have hc := createChat_ok h
  refine ⟨?_, ?_, ?_, ?_⟩
  · intro u hu
    rw [hc.users]
    exact hu
  · intro c u hm
    exact (hc.members c u).mpr (Or.inl hm)
  · intro m hm
    exact ⟨m.status, by rw [hc.messages]; exact hm⟩
  · intro m hm
    rw [createChat_groupMessages h]
    exact hm

/-- A direct message is no group message. -/
theorem insertMessage_groupMessages {db db' : Db} {env : Env} {c s : UUID} {body : String}
    {m : Message} (h : db.insertMessage env c s body = .ok (db', m)) :
    db'.groupMessages = db.groupMessages := by
  rw [Db.insertMessage] at h
  split at h
  · split at h
    · split at h
      · cases h
      · have hdb : _ = db' := congrArg Prod.fst (Except.ok.inj h)
        rw [← hdb]
    · cases h
  · cases h

/-- Storing a message loses nothing. -/
theorem insertMessage_grows {db db' : Db} {env : Env} {c s : UUID} {body : String}
    {m : Message} (h : db.insertMessage env c s body = .ok (db', m)) : Grows db db' := by
  obtain ⟨-, hst⟩ := insertMessage_ok h
  refine ⟨?_, ?_, ?_, ?_⟩
  · intro u hu
    rw [hst.users]
    exact hu
  · intro c u hm
    rw [Db.Member, hst.chatMembers]
    exact hm
  · intro m' hm
    refine ⟨m'.status, ?_⟩
    rw [hst.messages]
    exact List.mem_append_left _ hm
  · intro m hm
    rw [insertMessage_groupMessages h]
    exact hm

/-- A status update keeps the rows and changes one column. -/
theorem setStatus_grows (db : Db) (id : UUID) (st : Status) : Grows db (db.setStatus id st) where
  users _ hu := hu
  members _ _ hm := hm
  messages m hm := by
    by_cases hid : m.id = id
    · exact ⟨st, mem_setStatus.mpr ⟨m, hm, (if_pos hid).symm⟩⟩
    · exact ⟨m.status, mem_setStatus.mpr ⟨m, hm, (if_neg hid).symm⟩⟩
  groupMessages _ hm := hm

theorem insertGroup_sameRows {db db' : Db} {env : Env} {name : String} {c : UUID}
    (h : db.insertGroup env name c = .ok db') : SameRows db db' := by
  rw [Db.insertGroup] at h
  split at h
  · split at h
    · cases h
    · split at h
      · cases h
      · rw [← Except.ok.inj h]
        exact ⟨rfl, rfl, rfl, rfl, rfl⟩
  · cases h

theorem insertGroupMember_sameRows {db db' : Db} {r : GroupMember}
    (h : db.insertGroupMember r = .ok db') : SameRows db db' := by
  rw [Db.insertGroupMember] at h
  split at h
  · split at h
    · cases h
    · rw [← Except.ok.inj h]
      exact ⟨rfl, rfl, rfl, rfl, rfl⟩
  · cases h

/-- `CreateGroup` writes `groups` and `group_members` only. -/
theorem createGroup_sameRows {db db' : Db} {env : Env} {name : String} {c : UUID}
    {group : Group} (h : db.createGroup env name c = .ok (db', group)) : SameRows db db' := by
  obtain ⟨-, tx, h1, h2⟩ := createGroup_inserts h
  exact (insertGroup_sameRows h1).trans (insertGroupMember_sameRows h2)

/-- `AddGroupMember` writes `group_members` only. -/
theorem addGroupMember_sameRows {db db' : Db} {env : Env} {g u : UUID} {role : Role}
    (h : db.addGroupMember env g u role = .ok db') : SameRows db db' := by
  rw [Db.addGroupMember] at h
  obtain ⟨-, -, h⟩ := bind_eq_ok h
  split at h
  · rw [← Except.ok.inj h]
    exact ⟨rfl, rfl, rfl, rfl, rfl⟩
  · exact insertGroupMember_sameRows h

/-- The `DELETE` of a membership writes `group_members` only. -/
theorem deleteGroupMember_sameRows (db : Db) (g u : UUID) :
    SameRows db (db.deleteGroupMember g u) := ⟨rfl, rfl, rfl, rfl, rfl⟩

/-- A stored group message leaves the other tables alone. -/
theorem insertGroupMessage_tables {db db' : Db} {env : Env} {g s : UUID} {body : String}
    {m : GroupMessage} (h : db.insertGroupMessage env g s body = .ok (db', m)) :
    db'.chats = db.chats ∧ db'.chatMembers = db.chatMembers ∧ db'.messages = db.messages := by
  rw [Db.insertGroupMessage] at h
  obtain ⟨-, -, h⟩ := bind_eq_ok h
  split at h
  · split at h
    · cases h
    · have hdb : _ = db' := congrArg Prod.fst (Except.ok.inj h)
      rw [← hdb]
      exact ⟨rfl, rfl, rfl⟩
  · cases h

/-- A stored group message takes nothing away. -/
theorem insertGroupMessage_grows {db db' : Db} {env : Env} {g s : UUID} {body : String}
    {m : GroupMessage} (h : db.insertGroupMessage env g s body = .ok (db', m)) :
    Grows db db' := by
  obtain ⟨-, hrows, -, -, husers⟩ := insertGroupMessage_ok h
  obtain ⟨-, hmembers, hmessages⟩ := insertGroupMessage_tables h
  refine ⟨?_, ?_, ?_, ?_⟩
  · intro u hu
    rw [husers]
    exact hu
  · intro c u hm
    rw [Db.Member, hmembers]
    exact hm
  · intro m' hm
    exact ⟨m'.status, by rw [hmessages]; exact hm⟩
  · intro m' hm
    rw [hrows]
    exact List.mem_append_left _ hm

end PeerStore
