import PeerChat.GroupStoreProofs

/-! # The group store against its history

    Any sequence of `CreateGroup`, `AddGroupMember` and `RemoveGroupMember` calls,
    each of which may fail.  A call that succeeds leaves an entry in the history,
    a call that fails leaves everything as it was.

    Who is in a group is what the history says last, and the three readers of
    `db/groups.go` all report it: the point lookup, the members of a group joined
    with `users`, and the groups of a user joined with `groups`. -/

namespace PeerStore

open PeerEnv KeyedTable

/-- A call that writes to the group tables, with the environment it runs in. -/
inductive GroupOp where
  | create (env : Env) (name : String) (creatorID : UUID)
  | add (env : Env) (groupID userID : UUID) (role : Role)
  | remove (env : Env) (groupID userID : UUID)

/-- A call that succeeded. -/
inductive GroupEvent where
  | created (groupID creatorID : UUID)
  | added (groupID userID : UUID)
  | removed (groupID userID : UUID)
  deriving DecidableEq, Repr

/-- The tables, and what succeeded so far, newest first. -/
structure Records where
  db : Db
  history : List GroupEvent

/-- One call. -/
def Records.after (s : Records) : GroupOp → Records
  | .create env name creatorID => match s.db.createGroup env name creatorID with
    | .ok (db, group) => ⟨db, .created group.id creatorID :: s.history⟩
    | .error _ => s
  | .add env groupID userID role => match s.db.addGroupMember env groupID userID role with
    | .ok db => ⟨db, .added groupID userID :: s.history⟩
    | .error _ => s
  | .remove env groupID userID => match s.db.removeGroupMember env groupID userID with
    | .ok (db, _) => ⟨db, .removed groupID userID :: s.history⟩
    | .error _ => s

/-- The calls of a list, in order. -/
def Records.run (db : Db) (ops : List GroupOp) : Records :=
  ops.foldl Records.after ⟨db, []⟩

/-- The user enters the group. -/
def GroupEvent.enters (g u : UUID) (e : GroupEvent) : Prop := e = .created g u ∨ e = .added g u

instance (g u : UUID) (e : GroupEvent) : Decidable (e.enters g u) :=
  inferInstanceAs (Decidable (_ ∨ _))

/-- The user has entered the group and has not left since. -/
def EnteredLast (g u : UUID) (history : List GroupEvent) : Prop :=
  ∃ later e earlier, history = later ++ e :: earlier ∧ e.enters g u ∧ .removed g u ∉ later

/-- **All three readers answer, and say what the history says**, whenever the database runs
    their statement. -/
structure ReadersAgree (s : Records) : Prop where
  isGroupMember : ∀ env g u, env.ok .isGroupMember = true →
    ∃ b, s.db.isGroupMember env g u = .ok b ∧ (b = true ↔ EnteredLast g u s.history)
  getGroupMembers : ∀ env g, env.ok .getGroupMembers = true →
    ∃ members, s.db.getGroupMembers env g = .ok members ∧
      (∀ u, u ∈ members.map GroupMemberInfo.userID ↔ EnteredLast g u s.history) ∧
        (members.map GroupMemberInfo.userID).Nodup
  listUserGroups : ∀ u, ∃ groups, s.db.listUserGroups true u = .ok groups ∧
    (∀ g, g ∈ groups.map Group.id ↔ EnteredLast g u s.history) ∧ (groups.map Group.id).Nodup

/-- **Every group came with its creator as admin**: its row is the work of one call,
    and that call left the creator's membership beside it. -/
def CreatedWithAdmin (db : Db) (ops : List GroupOp) : Prop :=
  ∀ group ∈ (Records.run db ops).db.groups.rows, ∃ earlier op later,
    ops = earlier ++ op :: later ∧
    group ∉ (Records.run db earlier).db.groups.rows ∧
    group ∈ (Records.run db (earlier ++ [op])).db.groups.rows ∧
    ⟨group.id, group.createdBy, .admin, group.createdAt⟩ ∈
      (Records.run db (earlier ++ [op])).db.groupMembers.rows

-- ── The history ───────────────────────────────────────────────────────────────

theorem enteredLast_nil (g u : UUID) : ¬ EnteredLast g u [] := by
  rintro ⟨later, e, earlier, heq, -, -⟩
  exact List.cons_ne_nil e earlier (List.append_eq_nil_iff.mp heq.symm).2

/-- One more event: it enters the user, or it does not take the user out. -/
theorem enteredLast_cons (g u : UUID) (e : GroupEvent) (history : List GroupEvent) :
    EnteredLast g u (e :: history) ↔
      e.enters g u ∨ (EnteredLast g u history ∧ e ≠ .removed g u) := by
  constructor
  · rintro ⟨later, e', earlier, heq, henters, hstays⟩
    cases later with
    | nil =>
        rw [List.nil_append] at heq
        rw [(List.cons.inj heq).1]
        exact Or.inl henters
    | cons d later =>
        rw [List.cons_append] at heq
        obtain ⟨rfl, hrest⟩ := List.cons.inj heq
        rw [List.mem_cons, not_or] at hstays
        exact Or.inr ⟨⟨later, e', earlier, hrest, henters, hstays.2⟩, Ne.symm hstays.1⟩
  · rintro (henters | ⟨⟨later, e', earlier, heq, henters, hstays⟩, hne⟩)
    · exact ⟨[], e, history, rfl, henters, List.not_mem_nil⟩
    · refine ⟨e :: later, e', earlier, by rw [heq, List.cons_append], henters, ?_⟩
      rw [List.mem_cons, not_or]
      exact ⟨Ne.symm hne, hstays⟩

-- ── One call ──────────────────────────────────────────────────────────────────

/-- **What a call does**: it fails and changes nothing, or it succeeds and goes on
    record. -/
inductive Applied (s : Records) : GroupOp → Records → Prop where
  | failed (op : GroupOp) : Applied s op s
  | created (env : Env) (name : String) (creatorID : UUID) (db : Db) (group : Group)
      (h : s.db.createGroup env name creatorID = .ok (db, group)) :
      Applied s (.create env name creatorID) ⟨db, .created group.id creatorID :: s.history⟩
  | added (env : Env) (groupID userID : UUID) (role : Role) (db : Db)
      (h : s.db.addGroupMember env groupID userID role = .ok db) :
      Applied s (.add env groupID userID role) ⟨db, .added groupID userID :: s.history⟩
  | removed (env : Env) (groupID userID : UUID) (db : Db) (found : Bool)
      (h : s.db.removeGroupMember env groupID userID = .ok (db, found)) :
      Applied s (.remove env groupID userID) ⟨db, .removed groupID userID :: s.history⟩

/-- **WHAT AN OPERATION DOES**, case by case. -/
theorem applied_after (s : Records) (op : GroupOp) : Applied s op (s.after op) := by
  cases op with
  | create env name creatorID =>
      simp only [Records.after]
      split
      · rename_i db group h
        exact .created env name creatorID db group h
      · exact .failed _
  | add env groupID userID role =>
      simp only [Records.after]
      split
      · rename_i db h
        exact .added env groupID userID role db h
      · exact .failed _
  | remove env groupID userID =>
      simp only [Records.after]
      split
      · rename_i db found h
        exact .removed env groupID userID db found h
      · exact .failed _

/-- Memberships are what the history says. -/
def Faithful (s : Records) : Prop := ∀ g u, s.db.InGroup g u ↔ EnteredLast g u s.history

/-- Every operation keeps the records faithful. -/
theorem faithful_step {s t : Records} {op : GroupOp} (hf : Faithful s) (h : Applied s op t) :
    Faithful t := by
  intro g u
  cases h with
  | failed => exact hf g u
  | created env name creatorID db group h =>
      obtain ⟨hgroup, hcreated⟩ := createGroup_ok h
      have hby : group.createdBy = creatorID := by rw [hgroup]
      rw [enteredLast_cons, ← hf g u, hcreated.members g u, hby, GroupEvent.enters]
      grind
  | added env groupID userID role db h =>
      rw [enteredLast_cons, ← hf g u, (addGroupMember_ok h).members g u, GroupEvent.enters]
      grind
  | removed env groupID userID db found h =>
      rw [enteredLast_cons, ← hf g u, (removeGroupMember_ok h).2, deleteGroupMember_inGroup,
        GroupEvent.enters]
      grind

/-- Only a successful `CreateGroup` writes to `groups`. -/
theorem groups_of_applied {s t : Records} {op : GroupOp} (h : Applied s op t) {group : Group}
    (hg : group ∈ t.db.groups.rows) : group ∈ s.db.groups.rows ∨
      (group ∉ s.db.groups.rows ∧
        ⟨group.id, group.createdBy, .admin, group.createdAt⟩ ∈ t.db.groupMembers.rows) := by
  cases h with
  | failed => exact Or.inl hg
  | created env name creatorID db new h =>
      obtain ⟨-, hcreated⟩ := createGroup_ok h
      rw [hcreated.groups] at hg
      rcases List.mem_append.mp hg with hold | hnew
      · exact Or.inl hold
      · rw [List.mem_singleton.mp hnew]
        exact Or.inr ⟨fun hin => hcreated.fresh (key_mem_keys hin), createGroup_admin h⟩
  | added env groupID userID role db h =>
      rw [(addGroupMember_ok h).groups] at hg
      exact Or.inl hg
  | removed env groupID userID db found h =>
      rw [(removeGroupMember_ok h).2] at hg
      exact Or.inl hg

-- ── Every sequence of calls ───────────────────────────────────────────────────

/-- A longer history is the shorter one and its last operation. -/
theorem run_append (db : Db) (ops : List GroupOp) (op : GroupOp) :
    Records.run db (ops ++ [op]) = (Records.run db ops).after op := by
  rw [Records.run, List.foldl_append]
  rfl

/-- The records are faithful after every history. -/
theorem faithful_run {db : Db} (hnone : db.groups.rows = []) (ops : List GroupOp) :
    Faithful (Records.run db ops) := by
  induction ops using List.reverseRecOn with
  | nil =>
      intro g u
      refine iff_of_false ?_ (enteredLast_nil g u)
      -- without groups the foreign key leaves no memberships
      intro hin
      obtain ⟨r, hr, -⟩ := mem_keys.mp hin
      have hgroup := db.groupMember_group r hr
      rw [Table.keys, hnone] at hgroup
      cases hgroup
  | append_singleton ops op ih =>
      rw [run_append]
      exact faithful_step ih (applied_after _ op)

/-- Every group of a history has been created with its admin. -/
theorem createdWithAdmin_run {db : Db} (hnone : db.groups.rows = []) (ops : List GroupOp) :
    CreatedWithAdmin db ops := by
  induction ops using List.reverseRecOn with
  | nil =>
      intro group hg
      change group ∈ db.groups.rows at hg
      rw [hnone] at hg
      cases hg
  | append_singleton ops op ih =>
      intro group hg
      have hstep := applied_after (Records.run db ops) op
      rw [← run_append] at hstep
      rcases groups_of_applied hstep hg with hold | ⟨hnew, hadmin⟩
      · obtain ⟨earlier, op', later, heq, hrest⟩ := ih group hold
        refine ⟨earlier, op', later ++ [op], ?_, hrest⟩
        rw [heq, List.append_assoc, List.cons_append]
      · exact ⟨ops, op, [], rfl, hnew, hg, hadmin⟩

/-- The readers, over tables that are what the history says. -/
theorem readersAgree_of_faithful {s : Records} (hf : Faithful s) : ReadersAgree s := by
  refine ⟨?_, ?_, ?_⟩
  · intro env g u hok
    obtain ⟨b, hb⟩ := isGroupMember_answers s.db g u hok
    refine ⟨b, hb, ?_⟩
    rw [← hf g u]
    exact isGroupMember_ok hb
  · intro env g hok
    obtain ⟨members, hmembers⟩ := getGroupMembers_answers s.db g hok
    obtain ⟨hmem, hnodup⟩ := getGroupMembers_ok hmembers
    refine ⟨members, hmembers, fun u => ?_, hnodup⟩
    rw [← hf g u, ← hmem u, List.mem_map]
  · intro u
    obtain ⟨groups, hgroups⟩ := listUserGroups_answers s.db u
    obtain ⟨hmem, hnodup⟩ := listUserGroups_ok hgroups
    refine ⟨groups, hgroups, fun g => ?_, hnodup⟩
    rw [← hf g u, ← hmem g, List.mem_map]

/-- Adding somebody who is there already writes nothing. -/
theorem add_of_inGroup {s : Records} {env : Env} {g u : UUID} {role : Role}
    (hin : s.db.InGroup g u) : (s.after (.add env g u role)).db = s.db := by
  have hadd : s.db.addGroupMember env g u role = .error .failed ∨
      s.db.addGroupMember env g u role = .ok s.db := by
    have hkey : (g, u) ∈ s.db.groupMembers.keys := hin
    rw [Db.addGroupMember, guardOk]
    cases env.ok .addGroupMember with
    | false => exact Or.inl rfl
    | true =>
        right
        simp only [if_true, if_pos hkey]
        rfl
  rcases hadd with hadd | hadd
  · simp only [Records.after, hadd]
  · simp only [Records.after, hadd]

/-- **THE GROUP STORE IS ITS HISTORY**: after any calls, failed ones included, all
    three readers answer and report a membership iff the user entered last; a repeated
    add changes no row; every group came with its creator as admin; and
    `RemoveGroupMember` answers with the membership it found. -/
theorem group_readers_agree {db : Db} (hnone : db.groups.rows = []) (ops : List GroupOp) :
    ReadersAgree (Records.run db ops) ∧
    (∀ env g u role, EnteredLast g u (Records.run db ops).history →
      ((Records.run db ops).after (.add env g u role)).db = (Records.run db ops).db) ∧
    CreatedWithAdmin db ops ∧
    (∀ env g u, env.ok .removeGroupMember = true → ∃ db' found,
      (Records.run db ops).db.removeGroupMember env g u = .ok (db', found) ∧
        (found = true ↔ EnteredLast g u (Records.run db ops).history)) := by
  have hf := faithful_run hnone ops
  refine ⟨readersAgree_of_faithful hf, ?_, createdWithAdmin_run hnone ops, ?_⟩
  · intro env g u role hin
    exact add_of_inGroup ((hf g u).mpr hin)
  · intro env g u hok
    obtain ⟨db', found, h⟩ := removeGroupMember_answers (Records.run db ops).db g u hok
    refine ⟨db', found, h, ?_⟩
    rw [← hf g u]
    exact removeGroupMember_found h

/-- Alice creates a group and adds Bob, who leaves and is added again. -/
theorem group_readers_agree_rejoined :
    ReadersAgree (Records.run threeUsers
      [.create (.fine ⟨10⟩ ⟨20⟩ 1) "team" ⟨1⟩, .add (.fine ⟨0⟩ ⟨0⟩ 2) ⟨10⟩ ⟨2⟩ .member,
        .remove (.fine ⟨0⟩ ⟨0⟩ 3) ⟨10⟩ ⟨2⟩, .add (.fine ⟨0⟩ ⟨0⟩ 4) ⟨10⟩ ⟨2⟩ .member]) ∧
    (Records.run threeUsers
      [.create (.fine ⟨10⟩ ⟨20⟩ 1) "team" ⟨1⟩, .add (.fine ⟨0⟩ ⟨0⟩ 2) ⟨10⟩ ⟨2⟩ .member,
        .remove (.fine ⟨0⟩ ⟨0⟩ 3) ⟨10⟩ ⟨2⟩, .add (.fine ⟨0⟩ ⟨0⟩ 4) ⟨10⟩ ⟨2⟩ .member]).db.InGroup
      ⟨10⟩ ⟨2⟩ :=
  ⟨(group_readers_agree rfl _).1, by decide +kernel⟩

end PeerStore
