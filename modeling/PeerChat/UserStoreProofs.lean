import PeerChat.StoreProofs

/-! # The user queries of `db/users.go`

    `CreateUser` inserts a row and `GetUserByUsername` reads one back.  Two
    columns decide whether the insert succeeds, the generated id and the
    unique username; a parameter with a NUL character is refused by Postgres
    before either is looked at. -/

namespace PeerStore

open PeerEnv KeyedTable

/-- The statements of `db/users.go`. -/
inductive UserStmt where
  | insertUser
  | selectUser
  deriving DecidableEq, Repr

/-- What a user query does not decide itself. -/
structure UserEnv where
  /-- Does the statement succeed? -/
  ok : UserStmt → Bool
  /-- The id `uuid_generate_v4()` gives an inserted user. -/
  newUser : UUID

/-- The name is one of the stored usernames. -/
def Db.UsernameTaken (db : Db) (username : String) : Prop :=
  username ∈ db.users.rows.map User.username

instance (db : Db) (username : String) : Decidable (db.UsernameTaken username) :=
  inferInstanceAs (Decidable (_ ∈ _))

/-- A user id stays one when a row is inserted. -/
theorem mem_keys_insert {t t' : Table User UUID User.id} {r : User} {u : UUID}
    (h : t.insert r = some t') (hu : u ∈ t.keys) : u ∈ t'.keys := by
  rw [Table.keys, (insert_eq_some h).2, List.map_append]
  exact List.mem_append_left _ hu

/-- `INSERT INTO users (username, password_hash)`. -/
def Db.insertUser (db : Db) (u : User) : Except DbError Db :=
  if hn : db.UsernameTaken u.username then .error .uniqueViolation
  else match h : db.users.insert u with
    | none => .error .uniqueViolation
    | some t => .ok { db with
        users := t
        username_unique := by
          rw [(insert_eq_some h).2, List.map_append]
          exact List.Nodup.append db.username_unique (List.nodup_singleton _)
            (by simpa [Db.UsernameTaken] using hn)
        member_user := by
          intro r hr
          exact mem_keys_insert h (db.member_user r hr)
        message_sender := by
          intro m hm
          exact mem_keys_insert h (db.message_sender m hm)
        groupMember_user := by
          intro r hr
          exact mem_keys_insert h (db.groupMember_user r hr) }

/-- `CreateUser`: the stored row. -/
def Db.createUser (db : Db) (env : UserEnv) (username passwordHash : String) :
    Except DbError (Db × User) :=
  if env.ok .insertUser ∧ NulFree username ∧ NulFree passwordHash then
    match db.insertUser ⟨env.newUser, username, passwordHash⟩ with
    | .ok db' => .ok (db', ⟨env.newUser, username, passwordHash⟩)
    | .error e => .error e
  else .error .failed

/-- `GetUserByUsername`; `noRows` is its `ErrNotFound`. -/
def Db.getUserByUsername (db : Db) (env : UserEnv) (username : String) :
    Except DbError User :=
  if env.ok .selectUser ∧ NulFree username then
    match db.users.rows.filter fun u => u.username = username with
    | u :: _ => .ok u
    | [] => .error .noRows
  else .error .failed

-- ── What the statements do ────────────────────────────────────────────────────

theorem insertUser_ok {db db' : Db} {u : User} (h : db.insertUser u = .ok db') :
    ¬ db.UsernameTaken u.username ∧ u.id ∉ db.users.keys ∧
      db'.users.rows = db.users.rows ++ [u] := by
  rw [Db.insertUser] at h
  split at h
  · cases h
  · rename_i hfree
    split at h
    · cases h
    · rename_i t hins
      have hdb := Except.ok.inj h
      obtain ⟨hid, hrows⟩ := insert_eq_some hins
      exact ⟨hfree, hid, by rw [← hdb]; exact hrows⟩

/-- A free name and a fresh id are all an insert needs. -/
theorem insertUser_of_free (db : Db) {u : User} (hname : ¬ db.UsernameTaken u.username)
    (hid : u.id ∉ db.users.keys) : ∃ db', db.insertUser u = .ok db' := by
  rw [Db.insertUser]
  rw [dif_neg hname]
  split
  · rename_i hnone
    exact absurd (insert_eq_none.mp hnone) hid
  · exact ⟨_, rfl⟩

/-- **What `CreateUser` did**: one new row, with a name nobody had. -/
theorem createUser_ok {db db' : Db} {env : UserEnv} {username passwordHash : String}
    {u : User} (h : db.createUser env username passwordHash = .ok (db', u)) :
    u = ⟨env.newUser, username, passwordHash⟩ ∧ ¬ db.UsernameTaken username ∧
      db'.users.rows = db.users.rows ++ [u] := by
  rw [Db.createUser] at h
  split at h
  · split at h
    · rename_i d hins
      have hpair := Except.ok.inj h
      have hd : d = db' := congrArg Prod.fst hpair
      have hu : ⟨env.newUser, username, passwordHash⟩ = u := congrArg Prod.snd hpair
      subst hd hu
      obtain ⟨hfree, -, hrows⟩ := insertUser_ok hins
      exact ⟨rfl, hfree, hrows⟩
    · cases h
  · cases h

theorem createUser_of_free {db : Db} {env : UserEnv} {username passwordHash : String}
    (hok : env.ok .insertUser = true) (huser : NulFree username)
    (hhash : NulFree passwordHash) (hname : ¬ db.UsernameTaken username)
    (hid : env.newUser ∉ db.users.keys) :
    ∃ db', db.createUser env username passwordHash
      = .ok (db', ⟨env.newUser, username, passwordHash⟩) := by
  obtain ⟨db', hins⟩ := insertUser_of_free db (u := ⟨env.newUser, username, passwordHash⟩)
    hname hid
  refine ⟨db', ?_⟩
  rw [Db.createUser, if_pos ⟨hok, huser, hhash⟩, hins]

/-- Two stored users of one name are one. -/
theorem eq_of_username {db : Db} {u u' : User} (h : u ∈ db.users.rows)
    (h' : u' ∈ db.users.rows) (hname : u.username = u'.username) : u = u' :=
  List.inj_on_of_nodup_map db.username_unique h h' hname

/-- **`GetUserByUsername` answers with the user of that name.** -/
theorem getUserByUsername_ok_iff {db : Db} {env : UserEnv} {username : String} {u : User} :
    db.getUserByUsername env username = .ok u ↔
      (env.ok .selectUser = true ∧ NulFree username) ∧
        u ∈ db.users.rows ∧ u.username = username := by
  rw [Db.getUserByUsername]
  by_cases hask : env.ok .selectUser = true ∧ NulFree username
  · rw [if_pos hask]
    have hmem : ∀ v, v ∈ (db.users.rows.filter fun u => u.username = username) ↔
        v ∈ db.users.rows ∧ v.username = username := by
      intro v
      rw [List.mem_filter, decide_eq_true_iff]
    cases hsel : db.users.rows.filter fun u => u.username = username with
    | nil =>
        refine iff_of_false (fun h => by cases h) ?_
        rintro ⟨-, hu⟩
        have hin := (hmem u).mpr hu
        rw [hsel] at hin
        cases hin
    | cons v rest =>
        have hv : v ∈ db.users.rows ∧ v.username = username :=
          (hmem v).mp (by rw [hsel]; exact List.mem_cons_self)
        constructor
        · intro h
          rw [← Except.ok.inj h]
          exact ⟨hask, hv⟩
        · rintro ⟨-, hu, hname⟩
          rw [eq_of_username hv.1 hu (hv.2.trans hname.symm)]
  · rw [if_neg hask]
    exact iff_of_false (fun h => by cases h) (fun h => hask h.1)

end PeerStore
