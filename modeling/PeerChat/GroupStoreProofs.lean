import PeerChat.StoreProofs

/-! # The group queries of `db/groups.go`

    Groups, their members and their messages.  A group and its creator's
    membership are inserted in one transaction; a member is added with
    `ON CONFLICT DO NOTHING`, so adding somebody twice is no error. -/

namespace PeerStore

open PeerEnv KeyedTable

/-- `INSERT INTO groups (name, created_by)`. -/
def Db.insertGroup (db : Db) (env : Env) (name : String) (creatorID : UUID) :
    Except DbError Db :=
  if creatorID ∈ db.users.keys then
    if hn : name ∈ db.groups.rows.map Group.name then .error .uniqueViolation
    else match h : db.groups.insert ⟨env.newGroup, name, creatorID, env.now⟩ with
      | none => .error .uniqueViolation
      | some t => .ok { db with
          groups := t
          groupName_unique := by
            rw [(insert_eq_some h).2, List.map_append]
            exact List.Nodup.append db.groupName_unique (List.nodup_singleton _)
              (by simpa using hn)
          groupMember_group := by
            intro r hr
            rw [Table.keys]
            rw [(insert_eq_some h).2, List.map_append]
            exact List.mem_append_left _ (db.groupMember_group r hr) }
  else .error .foreignKeyViolation

/-- `INSERT INTO group_members (group_id, user_id, role)`. -/
def Db.insertGroupMember (db : Db) (r : GroupMember) : Except DbError Db :=
  if hr : r.groupID ∈ db.groups.keys ∧ r.userID ∈ db.users.keys then
    match h : db.groupMembers.insert r with
    | none => .error .uniqueViolation
    | some t => .ok { db with
        groupMembers := t
        groupMember_group := by
          intro r' hr'
          rw [(insert_eq_some h).2] at hr'
          rcases List.mem_append.mp hr' with hold | hnew
          · exact db.groupMember_group r' hold
          · rw [List.mem_singleton.mp hnew]; exact hr.1
        groupMember_user := by
          intro r' hr'
          rw [(insert_eq_some h).2] at hr'
          rcases List.mem_append.mp hr' with hold | hnew
          · exact db.groupMember_user r' hold
          · rw [List.mem_singleton.mp hnew]; exact hr.2 }
  else .error .foreignKeyViolation

/-- `CreateGroup`: one transaction. -/
def Db.createGroup (db : Db) (env : Env) (name : String) (creatorID : UUID) :
    Except DbError (Db × Group) := do
  guardOk env .beginGroupTx
  guardText env .insertGroup name
  let tx ← db.insertGroup env name creatorID
  guardOk env .insertAdmin
  let tx ← tx.insertGroupMember ⟨env.newGroup, creatorID, .admin, env.now⟩
  guardOk env .commitGroup
  return (tx, ⟨env.newGroup, name, creatorID, env.now⟩)

/-- `IsGroupMember`. -/
def Db.isGroupMember (db : Db) (env : Env) (groupID userID : UUID) :
    Except DbError Bool := do
  guardOk env .isGroupMember
  return decide ((groupID, userID) ∈ db.groupMembers.keys)

/-- `AddGroupMember`, with its `ON CONFLICT (group_id, user_id) DO NOTHING`. -/
def Db.addGroupMember (db : Db) (env : Env) (groupID userID : UUID) (role : Role) :
    Except DbError Db := do
  guardOk env .addGroupMember
  if (groupID, userID) ∈ db.groupMembers.keys then return db
  else db.insertGroupMember ⟨groupID, userID, role, env.now⟩

/-- The rows left by `DELETE FROM group_members WHERE group_id = $1 AND
    user_id = $2`. -/
def Db.deleteGroupMember (db : Db) (groupID userID : UUID) : Db :=
  { db with
    groupMembers := db.groupMembers.keep
      fun r => !(r.groupID = groupID && r.userID = userID)
    groupMember_group := by
      intro r hr
      exact db.groupMember_group r (List.mem_of_mem_filter hr)
    groupMember_user := by
      intro r hr
      exact db.groupMember_user r (List.mem_of_mem_filter hr) }

/-- `RemoveGroupMember`: the tables, and whether a row was deleted. -/
def Db.removeGroupMember (db : Db) (env : Env) (groupID userID : UUID) :
    Except DbError (Db × Bool) := do
  guardOk env .removeGroupMember
  return (db.deleteGroupMember groupID userID,
    decide ((groupID, userID) ∈ db.groupMembers.keys))

/-- `GroupMemberInfo`. -/
structure GroupMemberInfo where
  userID : UUID
  username : String
  role : Role
  joinedAt : Nat
  deriving DecidableEq, Repr

/-- `GetGroupMembers`. -/
def Db.getGroupMembers (db : Db) (env : Env) (groupID : UUID) :
    Except DbError (List GroupMemberInfo) := do
  guardOk env .getGroupMembers
  return orderBy GroupMemberInfo.joinedAt
    ((db.groupMembers.rows.filter fun r => r.groupID = groupID).flatMap fun r =>
      (db.users.rows.filter fun u => u.id = r.userID).map fun u =>
        ⟨r.userID, u.username, r.role, r.joinedAt⟩)

/-- `ListUserGroups`; `ok` says whether the query succeeds. -/
def Db.listUserGroups (db : Db) (ok : Bool) (userID : UUID) : Except DbError (List Group) :=
  if ok then
    .ok (orderByDesc Group.createdAt (db.groups.rows.flatMap fun g =>
      (db.groupMembers.rows.filter fun gm =>
        g.id = gm.groupID ∧ gm.userID = userID).map fun _ => g))
  else .error .failed

/-- The row `InsertGroupMessage` asks for. -/
def newGroupMessage (env : Env) (groupID senderID : UUID) (body : String) :
    GroupMessage :=
  ⟨env.newGroupMessage, groupID, senderID, body, env.now⟩

/-- `InsertGroupMessage`: the stored row. -/
def Db.insertGroupMessage (db : Db) (env : Env) (groupID senderID : UUID)
    (body : String) : Except DbError (Db × GroupMessage) := do
  guardText env .insertGroupMessage body
  if groupID ∈ db.groups.keys ∧ senderID ∈ db.users.keys then
    match db.groupMessages.insert (newGroupMessage env groupID senderID body) with
    | none => throw .uniqueViolation
    | some t => return ({ db with groupMessages := t },
        newGroupMessage env groupID senderID body)
  else throw .foreignKeyViolation

-- ── What the statements do ────────────────────────────────────────────────────

/-- `u` is a member of the group. -/
def Db.InGroup (db : Db) (g u : UUID) : Prop := (g, u) ∈ db.groupMembers.keys

instance (db : Db) (g u : UUID) : Decidable (db.InGroup g u) :=
  inferInstanceAs (Decidable (_ ∈ _))

/-- `IsGroupMember` answers when its statement runs. -/
theorem isGroupMember_answers (db : Db) {env : Env} (g u : UUID)
    (hok : env.ok .isGroupMember = true) : ∃ b, db.isGroupMember env g u = .ok b := by
  rw [Db.isGroupMember, guardOk, hok]
  exact ⟨_, rfl⟩

/-- And says whether there is a membership. -/
theorem isGroupMember_ok {db : Db} {env : Env} {g u : UUID} {b : Bool}
    (h : db.isGroupMember env g u = .ok b) : b = true ↔ db.InGroup g u := by
  rw [Db.isGroupMember] at h
  obtain ⟨-, -, h⟩ := bind_eq_ok h
  rw [← Except.ok.inj h]
  exact decide_eq_true_iff

/-- A group that is inserted has a fresh id, and is the only new row. -/
theorem insertGroup_ok {db db' : Db} {env : Env} {name : String} {c : UUID}
    (h : db.insertGroup env name c = .ok db') :
    env.newGroup ∉ db.groups.keys ∧
      db'.groups.rows = db.groups.rows ++ [⟨env.newGroup, name, c, env.now⟩] ∧
      db'.groupMembers = db.groupMembers ∧ db'.groupMessages = db.groupMessages ∧
      db'.users = db.users := by
  rw [Db.insertGroup] at h
  split at h
  · split at h
    · cases h
    · split at h
      · cases h
      · rename_i t hins
        have hdb := Except.ok.inj h
        obtain ⟨hfree, hrows⟩ := insert_eq_some hins
        exact ⟨hfree, by rw [← hdb]; exact hrows, by rw [← hdb], by rw [← hdb],
          by rw [← hdb]⟩
  · cases h

/-- A membership that is inserted was not there. -/
theorem insertGroupMember_ok {db db' : Db} {r : GroupMember}
    (h : db.insertGroupMember r = .ok db') :
    ¬ db.InGroup r.groupID r.userID ∧
      db'.groupMembers.rows = db.groupMembers.rows ++ [r] ∧
      db'.groups = db.groups ∧ db'.groupMessages = db.groupMessages ∧
      db'.users = db.users := by
  rw [Db.insertGroupMember] at h
  split at h
  · split at h
    · cases h
    · rename_i t hins
      have hdb := Except.ok.inj h
      obtain ⟨hfree, hrows⟩ := insert_eq_some hins
      exact ⟨hfree, by rw [← hdb]; exact hrows, by rw [← hdb], by rw [← hdb], by rw [← hdb]⟩
  · cases h

/-- One more row in `group_members`, read as memberships. -/
theorem inGroup_of_rows {db db' : Db} {r : GroupMember}
    (h : db'.groupMembers.rows = db.groupMembers.rows ++ [r]) (g u : UUID) :
    db'.InGroup g u ↔ db.InGroup g u ∨ (g = r.groupID ∧ u = r.userID) := by
  rw [Db.InGroup, Db.InGroup, Table.keys, Table.keys, h, List.map_append, List.mem_append]
  simp

/-- **What a committed group transaction did**: a new group with its creator in it. -/
structure GroupCreated (db db' : Db) (group : Group) : Prop where
  fresh : group.id ∉ db.groups.keys
  groups : db'.groups.rows = db.groups.rows ++ [group]
  members : ∀ g u, db'.InGroup g u ↔
    db.InGroup g u ∨ (g = group.id ∧ u = group.createdBy)
  messages : db'.groupMessages = db.groupMessages

/-- The two inserts of the committed transaction. -/
theorem createGroup_inserts {db db' : Db} {env : Env} {name : String} {c : UUID}
    {group : Group} (h : db.createGroup env name c = .ok (db', group)) :
    group = ⟨env.newGroup, name, c, env.now⟩ ∧
      ∃ tx, db.insertGroup env name c = .ok tx ∧
        tx.insertGroupMember ⟨group.id, group.createdBy, .admin, group.createdAt⟩ = .ok db' := by
  rw [Db.createGroup] at h
  obtain ⟨-, -, h⟩ := bind_eq_ok h
  obtain ⟨-, -, h⟩ := bind_eq_ok h
  obtain ⟨d1, h1, h⟩ := bind_eq_ok h
  obtain ⟨-, -, h⟩ := bind_eq_ok h
  obtain ⟨d2, h2, h⟩ := bind_eq_ok h
  obtain ⟨-, -, h⟩ := bind_eq_ok h
  have hpair := Except.ok.inj h
  have hd : d2 = db' := congrArg Prod.fst hpair
  have hg : ⟨env.newGroup, name, c, env.now⟩ = group := congrArg Prod.snd hpair
  subst hd hg
  exact ⟨rfl, d1, h1, h2⟩

/-- **A COMMITTED TRANSACTION CREATES A GROUP** with its creator in it. -/
theorem createGroup_ok {db db' : Db} {env : Env} {name : String} {c : UUID} {group : Group}
    (h : db.createGroup env name c = .ok (db', group)) :
    group = ⟨env.newGroup, name, c, env.now⟩ ∧ GroupCreated db db' group := by
  obtain ⟨rfl, d1, h1, h2⟩ := createGroup_inserts h
  obtain ⟨hfree, hgroups, hmem1, hmsg1, -⟩ := insertGroup_ok h1
  obtain ⟨-, hmem2, hgroups2, hmsg2, -⟩ := insertGroupMember_ok h2
  rw [hmem1] at hmem2
  refine ⟨rfl, hfree, ?_, ?_, ?_⟩
  · rw [hgroups2, hgroups]
  · exact inGroup_of_rows hmem2
  · rw [hmsg2, hmsg1]

/-- The creator is the new group's admin. -/
theorem createGroup_admin {db db' : Db} {env : Env} {name : String} {c : UUID} {group : Group}
    (h : db.createGroup env name c = .ok (db', group)) :
    ⟨group.id, group.createdBy, .admin, group.createdAt⟩ ∈ db'.groupMembers.rows := by
  obtain ⟨-, d1, -, h2⟩ := createGroup_inserts h
  rw [(insertGroupMember_ok h2).2.1]
  exact List.mem_concat_self

theorem createGroup_users {db db' : Db} {env : Env} {name : String} {c : UUID} {group : Group}
    (h : db.createGroup env name c = .ok (db', group)) : db'.users = db.users := by
  obtain ⟨-, d1, h1, h2⟩ := createGroup_inserts h
  obtain ⟨-, -, -, -, husers⟩ := insertGroup_ok h1
  obtain ⟨-, -, -, -, husers2⟩ := insertGroupMember_ok h2
  rw [husers2, husers]

/-- **What `AddGroupMember` did**: the user is in the group, and was or is added. -/
structure MemberAdded (db db' : Db) (g u : UUID) : Prop where
  members : ∀ g' u', db'.InGroup g' u' ↔ db.InGroup g' u' ∨ (g' = g ∧ u' = u)
  groups : db'.groups = db.groups
  messages : db'.groupMessages = db.groupMessages

/-- `AddGroupMember` adds the one user, if he was not there. -/
theorem addGroupMember_ok {db db' : Db} {env : Env} {g u : UUID} {role : Role}
    (h : db.addGroupMember env g u role = .ok db') : MemberAdded db db' g u := by
  rw [Db.addGroupMember] at h
  obtain ⟨-, -, h⟩ := bind_eq_ok h
  split at h
  · rename_i hin
    rw [← Except.ok.inj h]
    refine ⟨?_, rfl, rfl⟩
    intro g' u'
    constructor
    · exact Or.inl
    · rintro (hold | ⟨rfl, rfl⟩)
      · exact hold
      · exact hin
  · obtain ⟨-, hrows, hgroups, hmsg, -⟩ := insertGroupMember_ok h
    exact ⟨inGroup_of_rows hrows, hgroups, hmsg⟩

theorem addGroupMember_users {db db' : Db} {env : Env} {g u : UUID} {role : Role}
    (h : db.addGroupMember env g u role = .ok db') : db'.users = db.users := by
  rw [Db.addGroupMember] at h
  obtain ⟨-, -, h⟩ := bind_eq_ok h
  split at h
  · rw [← Except.ok.inj h]
  · obtain ⟨-, -, -, -, husers⟩ := insertGroupMember_ok h
    exact husers

/-- `DELETE` takes the one membership away. -/
theorem deleteGroupMember_inGroup (db : Db) (g u g' u' : UUID) :
    (db.deleteGroupMember g u).InGroup g' u' ↔
      db.InGroup g' u' ∧ ¬ (g' = g ∧ u' = u) := by
  rw [Db.InGroup, Db.InGroup, mem_keys, mem_keys]
  constructor
  · rintro ⟨r, hr, hkey⟩
    obtain ⟨hin, hne⟩ := List.mem_filter.mp hr
    refine ⟨⟨r, hin, hkey⟩, ?_⟩
    rintro ⟨rfl, rfl⟩
    simp only [Prod.mk.injEq] at hkey
    simp [hkey.1, hkey.2] at hne
  · rintro ⟨⟨r, hin, hkey⟩, hne⟩
    refine ⟨r, List.mem_filter.mpr ⟨hin, ?_⟩, hkey⟩
    simp only [Prod.mk.injEq] at hkey
    rw [hkey.1, hkey.2]
    rw [not_and_or] at hne
    simpa using hne

/-- `RemoveGroupMember` is its `DELETE`. -/
theorem removeGroupMember_ok {db db' : Db} {env : Env} {g u : UUID} {b : Bool}
    (h : db.removeGroupMember env g u = .ok (db', b)) :
    env.ok .removeGroupMember = true ∧ db' = db.deleteGroupMember g u := by
  rw [Db.removeGroupMember] at h
  obtain ⟨⟨⟩, hok, h⟩ := bind_eq_ok h
  exact ⟨guardOk_ok.mp hok, (congrArg Prod.fst (Except.ok.inj h)).symm⟩

/-- `RemoveGroupMember` answers when its statement runs. -/
theorem removeGroupMember_answers (db : Db) {env : Env} (g u : UUID)
    (hok : env.ok .removeGroupMember = true) :
    ∃ db' found, db.removeGroupMember env g u = .ok (db', found) := by
  rw [Db.removeGroupMember, guardOk, hok]
  exact ⟨_, _, rfl⟩

/-- `GetGroupMembers` answers when its statement runs. -/
theorem getGroupMembers_answers (db : Db) {env : Env} (g : UUID)
    (hok : env.ok .getGroupMembers = true) :
    ∃ members, db.getGroupMembers env g = .ok members := by
  rw [Db.getGroupMembers, guardOk, hok]
  exact ⟨_, rfl⟩

/-- `GetGroupMembers` lists every member, once. -/
theorem getGroupMembers_ok {db : Db} {env : Env} {g : UUID} {members : List GroupMemberInfo}
    (h : db.getGroupMembers env g = .ok members) :
    (∀ u, (∃ m ∈ members, m.userID = u) ↔ db.InGroup g u) ∧
      (members.map GroupMemberInfo.userID).Nodup := by
  rw [Db.getGroupMembers] at h
  obtain ⟨-, -, h⟩ := bind_eq_ok h
  rw [← Except.ok.inj h]
  refine ⟨?_, ?_⟩
  · intro u
    rw [Db.InGroup, mem_keys]
    simp only [mem_orderBy, List.mem_flatMap, List.mem_map, List.mem_filter,
      decide_eq_true_eq, Prod.mk.injEq]
    constructor
    · rintro ⟨m, ⟨r, ⟨hr, hg⟩, usr, -, rfl⟩, rfl⟩
      exact ⟨r, hr, hg, rfl⟩
    · rintro ⟨r, hr, hg, rfl⟩
      obtain ⟨usr, husr, hid⟩ := mem_keys.mp (db.groupMember_user r hr)
      exact ⟨_, ⟨r, ⟨hr, hg⟩, usr, ⟨husr, hid⟩, rfl⟩, rfl⟩
  · have hjoin := nodup_join (f := fun r : GroupMember => (r.groupID, r.userID))
      (g := fun r => (db.users.rows.filter fun u => u.id = r.userID).map fun u =>
        (⟨r.userID, u.username, r.role, r.joinedAt⟩ : GroupMemberInfo))
      (k := fun m => (g, m.userID))
      (l := db.groupMembers.rows.filter fun r => r.groupID = g)
      ((List.filter_sublist.map _).nodup db.groupMembers.unique) ?_
    · have hperm := (orderBy_perm GroupMemberInfo.joinedAt
        ((db.groupMembers.rows.filter fun r => r.groupID = g).flatMap fun r =>
          (db.users.rows.filter fun u => u.id = r.userID).map fun u =>
            (⟨r.userID, u.username, r.role, r.joinedAt⟩ : GroupMemberInfo))).map
          GroupMemberInfo.userID
      refine hperm.nodup_iff.mpr (List.Nodup.of_map (fun u => (g, u)) ?_)
      rw [List.map_map]
      exact hjoin
    · intro r hr
      have hg : r.groupID = g := of_decide_eq_true (List.mem_filter.mp hr).2
      refine ⟨?_, ?_⟩
      · rw [List.length_map]
        exact filter_key_length_le (t := db.users)
          (p := fun usr => decide (usr.id = r.userID)) (k := r.userID)
          (fun usr husr => of_decide_eq_true husr)
      · intro m hm
        obtain ⟨usr, -, rfl⟩ := List.mem_map.mp hm
        rw [hg]

/-- `RemoveGroupMember` reports whether there was a membership to take away. -/
theorem removeGroupMember_found {db db' : Db} {env : Env} {g u : UUID} {b : Bool}
    (h : db.removeGroupMember env g u = .ok (db', b)) : b = true ↔ db.InGroup g u := by
  rw [Db.removeGroupMember] at h
  obtain ⟨-, -, h⟩ := bind_eq_ok h
  have hb : decide ((g, u) ∈ db.groupMembers.keys) = b := congrArg Prod.snd (Except.ok.inj h)
  rw [← hb]
  exact decide_eq_true_iff

/-- `ListUserGroups` answers when its statement runs. -/
theorem listUserGroups_answers (db : Db) (u : UUID) :
    ∃ groups, db.listUserGroups true u = .ok groups :=
  ⟨_, if_pos rfl⟩

/-- `ListUserGroups` lists every group the user is in, once. -/
theorem listUserGroups_ok {db : Db} {ok : Bool} {u : UUID} {groups : List Group}
    (h : db.listUserGroups ok u = .ok groups) :
    (∀ g, (∃ x ∈ groups, x.id = g) ↔ db.InGroup g u) ∧ (groups.map Group.id).Nodup := by
  rw [Db.listUserGroups] at h
  split at h
  · rw [← Except.ok.inj h]
    refine ⟨?_, ?_⟩
    · intro g
      rw [Db.InGroup, mem_keys]
      simp only [orderByDesc, List.mem_insertionSort, List.mem_flatMap, List.mem_map,
        List.mem_filter, decide_eq_true_eq, Prod.mk.injEq]
      constructor
      · rintro ⟨x, ⟨y, -, gm, ⟨hgm, hid, hu⟩, rfl⟩, rfl⟩
        exact ⟨gm, hgm, hid.symm, hu⟩
      · rintro ⟨gm, hgm, rfl, rfl⟩
        obtain ⟨x, hx, hid⟩ := mem_keys.mp (db.groupMember_group gm hgm)
        exact ⟨x, ⟨x, hx, gm, ⟨hgm, hid, rfl⟩, rfl⟩, hid⟩
    · rw [orderByDesc]
      refine ((List.perm_insertionSort _ _).map _).nodup_iff.mpr ?_
      refine nodup_join (f := Group.id) db.groups.unique ?_
      intro g _
      refine ⟨?_, ?_⟩
      · -- one membership row for each group
        rw [List.length_map]
        refine filter_key_length_le (t := db.groupMembers) (k := (g.id, u)) ?_
        intro gm hgm
        obtain ⟨hid, hu⟩ := of_decide_eq_true hgm
        rw [hid, hu]
      · intro x hx
        obtain ⟨gm, -, rfl⟩ := List.mem_map.mp hx
        rfl
  · cases h

/-- **A STORED GROUP MESSAGE** is the one asked for, as a new row. -/
theorem insertGroupMessage_ok {db db' : Db} {env : Env} {g s : UUID} {body : String}
    {m : GroupMessage} (h : db.insertGroupMessage env g s body = .ok (db', m)) :
    m = newGroupMessage env g s body ∧
      db'.groupMessages.rows = db.groupMessages.rows ++ [m] ∧
      db'.groupMembers = db.groupMembers ∧ db'.groups = db.groups ∧
      db'.users = db.users := by
  rw [Db.insertGroupMessage] at h
  obtain ⟨-, -, h⟩ := bind_eq_ok h
  split at h
  · split at h
    · cases h
    · rename_i t hins
      have hpair := Except.ok.inj h
      have hdb : _ = db' := congrArg Prod.fst hpair
      have hm : newGroupMessage env g s body = m := congrArg Prod.snd hpair
      refine ⟨hm.symm, ?_, by rw [← hdb], by rw [← hdb], by rw [← hdb]⟩
      rw [← hdb, ← hm]
      exact (insert_eq_some hins).2
  · cases h

end PeerStore
