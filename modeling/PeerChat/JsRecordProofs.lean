import PeerChat.KeyedTableProofs

/-! # Objects used as dictionaries

    A JavaScript object whose keys are data: entries in the order their keys
    were created.  Writing an existing key leaves it where it stands, a new key
    comes last.  `Object.keys` lists the keys that are array indices first, in
    ascending order, and the others as they were created.

    The lookup is of own keys only; a key that an object inherits is no entry. -/

namespace JsRecord

open KeyedTable

/-- `Record<string, α>`. -/
abbrev Record (α : Type) : Type := Table (String × α) String Prod.fst

variable {α : Type}

/-- `r[k]`, of the own keys. -/
def Record.get? (r : Record α) (k : String) : Option α :=
  (r.rows.find? fun e => e.1 = k).map Prod.snd

/-- `{ ...r, [k]: v }`. -/
def Record.set (r : Record α) (k : String) (v : α) : Record α :=
  if h : k ∈ Table.keys r then r.update k (fun e => (e.1, v)) fun _ => rfl
  else ⟨r.rows ++ [(k, v)], by
    rw [List.map_append]
    exact List.Nodup.append r.unique (List.nodup_singleton _) (by simpa [Table.keys] using h)⟩

/-- The number a key is the canonical numeral of, if it is an array index. -/
def arrayIndex (k : String) : Option Nat :=
  k.toNat?.filter fun n => toString n = k && n < 2 ^ 32 - 1

/-- `Object.keys(r)`. -/
def Record.ownKeys (r : Record α) : List String :=
  orderBy (fun k => (arrayIndex k).getD 0)
      ((Table.keys r).filter fun k => (arrayIndex k).isSome) ++
    (Table.keys r).filter fun k => (arrayIndex k).isNone

-- ── Reading a record back ─────────────────────────────────────────────────────

/-- What a key reads is its entry. -/
theorem get?_eq_some {r : Record α} {k : String} {v : α} :
    r.get? k = some v ↔ (k, v) ∈ r.rows := by
  rw [Record.get?, Option.map_eq_some_iff]
  constructor
  · rintro ⟨e, hfind, rfl⟩
    have hkey : e.1 = k := by simpa using List.find?_some hfind
    rw [← hkey]
    exact List.mem_of_find?_eq_some hfind
  · intro hmem
    cases hfind : r.rows.find? fun e => e.1 = k with
    | none =>
        have hnot := List.find?_eq_none.mp hfind _ hmem
        simp at hnot
    | some e =>
        have hkey : e.1 = k := by simpa using List.find?_some hfind
        refine ⟨e, rfl, ?_⟩
        rw [eq_of_key (List.mem_of_find?_eq_some hfind) hmem hkey]

/-- Nothing is read for a key that is not there. -/
theorem get?_eq_none {r : Record α} {k : String} : r.get? k = none ↔ k ∉ Table.keys r := by
  rw [Option.eq_none_iff_forall_ne_some, mem_keys]
  constructor
  · rintro hall ⟨e, he, rfl⟩
    exact hall e.2 (get?_eq_some.mpr he)
  · intro hnot v hv
    exact hnot ⟨(k, v), get?_eq_some.mp hv, rfl⟩

/-- Something is read for every key that is. -/
theorem isSome_get? {r : Record α} {k : String} :
    (r.get? k).isSome = true ↔ k ∈ Table.keys r := by
  rw [← not_iff_not, Bool.not_eq_true, Option.isSome_eq_false_iff, Option.isNone_iff_eq_none,
    get?_eq_none]

/-- `{}`. -/
def Record.empty : Record α := KeyedTable.empty

@[simp] theorem get?_empty (k : String) : (Record.empty : Record α).get? k = none := rfl

/-- A write adds its key, and no other. -/
theorem mem_keys_set {r : Record α} {k k' : String} {v : α} :
    k' ∈ Table.keys (r.set k v) ↔ k' = k ∨ k' ∈ Table.keys r := by
  rw [Record.set]
  split
  · rename_i hk
    rw [update_keys]
    constructor
    · exact Or.inr
    · rintro (rfl | hk')
      · exact hk
      · exact hk'
  · show k' ∈ (r.rows ++ [(k, v)]).map Prod.fst ↔ _
    rw [List.map_append, List.mem_append, or_comm]
    exact or_congr List.mem_singleton Iff.rfl

/-- After a write an entry is the one written, or an old one of another key. -/
theorem mem_set {r : Record α} {k : String} {v : α} {e : String × α} :
    e ∈ (r.set k v).rows ↔ e = (k, v) ∨ e ∈ r.rows ∧ e.1 ≠ k := by
  rw [Record.set]
  split
  · rename_i hk
    obtain ⟨e₀, he₀, hkey⟩ := mem_keys.mp hk
    rw [mem_update]
    constructor
    · rintro ⟨e₁, he₁, rfl⟩
      by_cases hk₁ : e₁.1 = k
      · rw [if_pos hk₁, hk₁]
        exact Or.inl rfl
      · rw [if_neg hk₁]
        exact Or.inr ⟨he₁, hk₁⟩
    · rintro (rfl | ⟨he, hne⟩)
      · exact ⟨e₀, he₀, by rw [if_pos hkey, hkey]⟩
      · exact ⟨e, he, by rw [if_neg hne]⟩
  · rename_i hk
    show e ∈ r.rows ++ [(k, v)] ↔ _
    rw [List.mem_append, List.mem_singleton, or_comm]
    refine or_congr Iff.rfl ⟨fun he => ⟨he, ?_⟩, And.left⟩
    rintro rfl
    exact hk (key_mem_keys he)

/-- A key reads what was written to it last. -/
@[simp] theorem get?_set_self (r : Record α) (k : String) (v : α) :
    (r.set k v).get? k = some v :=
  get?_eq_some.mpr (mem_set.mpr (Or.inl rfl))

/-- A write leaves the other keys as they read. -/
theorem get?_set_ne (r : Record α) {k k' : String} (v : α) (h : k' ≠ k) :
    (r.set k v).get? k' = r.get? k' := by
  refine Option.ext fun w => ?_
  rw [get?_eq_some, get?_eq_some, mem_set]
  constructor
  · rintro (heq | ⟨he, -⟩)
    · exact absurd (congrArg Prod.fst heq) h
    · exact he
  · exact fun he => Or.inr ⟨he, h⟩

/-- `Object.keys` reorders the keys and drops none. -/
theorem ownKeys_perm (r : Record α) : r.ownKeys.Perm (Table.keys r) := by
  have hsplit := List.filter_append_perm (fun k => (arrayIndex k).isSome) (Table.keys r)
  have hnone : ((Table.keys r).filter fun k => (arrayIndex k).isNone)
      = (Table.keys r).filter fun k => !(arrayIndex k).isSome := by
    simp only [Option.not_isSome]
  rw [Record.ownKeys, hnone]
  exact ((orderBy_perm _ _).append_right _).trans hsplit

@[simp] theorem mem_ownKeys {r : Record α} {k : String} : k ∈ r.ownKeys ↔ k ∈ Table.keys r :=
  (ownKeys_perm r).mem_iff

/-- There are as many keys as entries. -/
theorem length_ownKeys (r : Record α) : r.ownKeys.length = r.rows.length := by
  rw [(ownKeys_perm r).length_eq]
  exact List.length_map _

end JsRecord
