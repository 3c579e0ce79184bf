import Mathlib

/-! # Keyed tables and the joins over them

    A table is its list of rows together with the proof that no two rows share
    a key, so a table that breaks its primary key cannot be built.  `insert`
    refuses a duplicate key, `update` rewrites one row in place.

    Queries are list comprehensions over rows.  What a join needs from the keys
    is that it neither drops nor repeats a row: `nodup_join` is that fact. -/

namespace KeyedTable

/-- Rows of type `ρ` with unique keys `key : ρ → κ`. -/
structure Table (ρ κ : Type) (key : ρ → κ) where
  rows : List ρ
  unique : (rows.map key).Nodup

variable {ρ κ : Type} {key : ρ → κ}

/-- The table without rows. -/
def empty : Table ρ κ key := ⟨[], List.nodup_nil⟩

/-- The keys in use. -/
def Table.keys (t : Table ρ κ key) : List κ := t.rows.map key

/-- `INSERT`: refused when the key is taken. -/
def Table.insert [DecidableEq κ] (t : Table ρ κ key) (r : ρ) :
    Option (Table ρ κ key) :=
  if h : key r ∈ t.keys then none
  else some ⟨t.rows ++ [r], by
    rw [List.map_append]
    exact List.Nodup.append t.unique (List.nodup_singleton _)
      (by simpa [Table.keys] using h)⟩

/-- `UPDATE … WHERE key = k`: rewrite the row with key `k`, keeping its key. -/
def Table.update [DecidableEq κ] (t : Table ρ κ key) (k : κ) (f : ρ → ρ)
    (hf : ∀ r, key (f r) = key r) : Table ρ κ key :=
  ⟨t.rows.map (fun r => if key r = k then f r else r), by
    have hkeys : (t.rows.map (fun r => if key r = k then f r else r)).map key
        = t.rows.map key := by
      rw [List.map_map]
      refine List.map_congr_left ?_
      intro r _
      by_cases hr : key r = k
      · simp [hr, hf]
      · simp [hr]
    rw [hkeys]
    exact t.unique⟩

/-- `DELETE`: keep the rows that pass `p`. -/
def Table.keep (t : Table ρ κ key) (p : ρ → Bool) : Table ρ κ key :=
  ⟨t.rows.filter p, (List.filter_sublist.map key).nodup t.unique⟩

-- ── What the operations do to the rows ────────────────────────────────────────

@[simp] theorem empty_rows : (empty : Table ρ κ key).rows = [] := rfl

/-- A key is one of the table's if a row has it. -/
theorem mem_keys {t : Table ρ κ key} {k : κ} :
    k ∈ t.keys ↔ ∃ r ∈ t.rows, key r = k :=
  List.mem_map

/-- The key of a row is one of the table's. -/
theorem key_mem_keys {t : Table ρ κ key} {r : ρ} (h : r ∈ t.rows) : key r ∈ t.keys :=
  List.mem_map_of_mem h

/-- A successful insert: the key was free, and the row is appended. -/
theorem insert_eq_some [DecidableEq κ] {t t' : Table ρ κ key} {r : ρ}
    (h : t.insert r = some t') : key r ∉ t.keys ∧ t'.rows = t.rows ++ [r] := by
  rw [Table.insert] at h
  split at h
  · cases h
  · rename_i hfree
    have ht := Option.some.inj h
    exact ⟨hfree, by rw [← ht]⟩

/-- A refused one: the key is taken. -/
theorem insert_eq_none [DecidableEq κ] {t : Table ρ κ key} {r : ρ} :
    t.insert r = none ↔ key r ∈ t.keys := by
  rw [Table.insert]
  split
  · rename_i htaken
    exact iff_of_true rfl htaken
  · rename_i hfree
    exact iff_of_false (fun h => by cases h) hfree

theorem update_rows [DecidableEq κ] (t : Table ρ κ key) (k : κ) (f : ρ → ρ)
    (hf : ∀ r, key (f r) = key r) :
    (t.update k f hf).rows = t.rows.map (fun r => if key r = k then f r else r) := rfl

/-- An update keeps the keys. -/
theorem update_keys [DecidableEq κ] (t : Table ρ κ key) (k : κ) (f : ρ → ρ)
    (hf : ∀ r, key (f r) = key r) : (t.update k f hf).keys = t.keys := by
  rw [Table.keys]
  rw [update_rows, List.map_map]
  refine List.map_congr_left ?_
  intro r _
  by_cases hr : key r = k
  · simp [hr, hf]
  · simp [hr]

/-- After an update a row is an old one, changed if it has the key. -/
theorem mem_update [DecidableEq κ] {t : Table ρ κ key} {k : κ} {f : ρ → ρ}
    (hf : ∀ r, key (f r) = key r) {r : ρ} :
    r ∈ (t.update k f hf).rows ↔
      ∃ r₀ ∈ t.rows, r = if key r₀ = k then f r₀ else r₀ := by
  rw [update_rows, List.mem_map]
  constructor
  · rintro ⟨r₀, h₀, heq⟩
    exact ⟨r₀, h₀, heq.symm⟩
  · rintro ⟨r₀, h₀, heq⟩
    exact ⟨r₀, h₀, heq.symm⟩

@[simp] theorem keep_rows (t : Table ρ κ key) (p : ρ → Bool) :
    (t.keep p).rows = t.rows.filter p := rfl

/-- Two rows with one key are one row. -/
theorem eq_of_key {t : Table ρ κ key} {r r' : ρ} (h : r ∈ t.rows) (h' : r' ∈ t.rows)
    (hk : key r = key r') : r = r' :=
  List.inj_on_of_nodup_map t.unique h h' hk

/-- No row stands in the table twice. -/
theorem nodup_rows (t : Table ρ κ key) : t.rows.Nodup :=
  List.Nodup.of_map key t.unique

-- ── Joins ─────────────────────────────────────────────────────────────────────

/-- A filter that fixes the key selects at most one row. -/
theorem filter_key_length_le {t : Table ρ κ key} {p : ρ → Bool} {k : κ}
    (hp : ∀ r, p r = true → key r = k) : (t.rows.filter p).length ≤ 1 := by
  have hall : ∀ r ∈ t.rows.filter p, ∀ r' ∈ t.rows.filter p, r = r' := by
    intro r hr r' hr'
    obtain ⟨hm, hpr⟩ := List.mem_filter.mp hr
    obtain ⟨hm', hpr'⟩ := List.mem_filter.mp hr'
    exact eq_of_key hm hm' ((hp r hpr).trans (hp r' hpr').symm)
  have hnd : (t.rows.filter p).Nodup := List.filter_sublist.nodup (nodup_rows t)
  rcases hl : t.rows.filter p with _ | ⟨a, _ | ⟨b, rest⟩⟩
  · exact Nat.zero_le _
  · exact Nat.le_refl _
  · rw [hl] at hall hnd
    have hab : a = b := hall a (by simp) b (by simp)
    rw [hab] at hnd
    exact absurd (List.mem_cons_self ..) (List.nodup_cons.mp hnd).1

/-- A key in use selects one row. -/
theorem exists_filter_key [DecidableEq κ] {t : Table ρ κ key} {k : κ} (h : k ∈ t.keys) :
    ∃ r, t.rows.filter (fun r => key r = k) = [r] := by
  obtain ⟨r, hr, hk⟩ := mem_keys.mp h
  have hmem : r ∈ t.rows.filter fun r => key r = k := List.mem_filter.mpr ⟨hr, by simpa using hk⟩
  have hle : (t.rows.filter fun r => key r = k).length ≤ 1 :=
    filter_key_length_le (k := k) fun r' hr' => by simpa using hr'
  exact List.length_eq_one_iff.mp (Nat.le_antisymm hle (List.length_pos_of_mem hmem))

/-- **A JOIN THAT MATCHES AT MOST ONCE REPEATS NOTHING**: if every row of `l`
    contributes at most one result, carrying the row's key, the results have
    distinct keys. -/
theorem nodup_join {α β ι : Type} {f : α → ι} {g : α → List β} {k : β → ι} :
    ∀ {l : List α}, (l.map f).Nodup →
      (∀ a ∈ l, (g a).length ≤ 1 ∧ ∀ b ∈ g a, k b = f a) →
      ((l.flatMap g).map k).Nodup := by
  intro l
  induction l with
  | nil => intro _ _; exact List.nodup_nil
  | cons a l ih =>
      intro hnd hg
      rw [List.map_cons, List.nodup_cons] at hnd
      obtain ⟨hfresh, hrest⟩ := hnd
      have htail := ih hrest (fun b hb => hg b (List.mem_cons_of_mem _ hb))
      obtain ⟨hlen, hkey⟩ := hg a (List.mem_cons_self ..)
      rw [List.flatMap_cons, List.map_append]
      refine List.Nodup.append ?_ htail ?_
      · rcases hga : g a with _ | ⟨b, _ | ⟨c, rest⟩⟩
        · exact List.nodup_nil
        · exact List.nodup_singleton _
        · rw [hga] at hlen
          simp at hlen
      · intro i hi hi'
        obtain ⟨b, hb, rfl⟩ := List.mem_map.mp hi
        obtain ⟨c, hc, hck⟩ := List.mem_map.mp hi'
        obtain ⟨a', ha', hca⟩ := List.mem_flatMap.mp hc
        have hkc := (hg a' (List.mem_cons_of_mem _ ha')).2 c hca
        rw [hck, hkey b hb] at hkc
        exact hfresh (hkc ▸ List.mem_map_of_mem ha')

-- ── ORDER BY and LIMIT ────────────────────────────────────────────────────────

/-- `ORDER BY by ASC`; rows that tie keep the order the scan gave them. -/
def orderBy {α : Type} (by' : α → Nat) (l : List α) : List α :=
  l.insertionSort (fun a b => by' a ≤ by' b)

/-- `ORDER BY` neither drops nor doubles a row. -/
theorem orderBy_perm {α : Type} (by' : α → Nat) (l : List α) :
    (orderBy by' l).Perm l :=
  List.perm_insertionSort _ l

/-- The sorted rows are the rows. -/
theorem mem_orderBy {α : Type} {by' : α → Nat} {l : List α} {a : α} :
    a ∈ orderBy by' l ↔ a ∈ l :=
  (orderBy_perm by' l).mem_iff

/-- The sorted rows are in order. -/
theorem orderBy_pairwise {α : Type} (by' : α → Nat) (l : List α) :
    (orderBy by' l).Pairwise fun a b => by' a ≤ by' b :=
  List.pairwise_insertionSort _ l

/-- Sorting before or after a projection that keeps the sort key. -/
theorem map_orderBy {α β : Type} (f : α → β) (by' : α → Nat) (by'' : β → Nat) (l : List α)
    (h : ∀ a ∈ l, by'' (f a) = by' a) : (orderBy by' l).map f = orderBy by'' (l.map f) := by
  refine List.map_insertionSort _ _ f l ?_
  intro a ha b hb
  rw [h a ha, h b hb]

/-- `ORDER BY by DESC`. -/
def orderByDesc {α : Type} (by' : α → Nat) (l : List α) : List α :=
  l.insertionSort (fun a b => by' b ≤ by' a)

/-- Without ties the two orders are each other's reverse. -/
theorem orderByDesc_eq_reverse {α : Type} {by' : α → Nat} {l : List α}
    (h : (l.map by').Nodup) : orderByDesc by' l = (orderBy by' l).reverse := by
  have hanti : ∀ a b, a ∈ orderByDesc by' l → b ∈ (orderBy by' l).reverse →
      by' b ≤ by' a → by' a ≤ by' b → a = b := by
    intro a b ha hb hba hab
    have hal : a ∈ l := (List.mem_insertionSort _).mp ha
    have hbl : b ∈ l := mem_orderBy.mp (List.mem_reverse.mp hb)
    exact List.inj_on_of_nodup_map h hal hbl (Nat.le_antisymm hab hba)
  have hrev : (orderBy by' l).reverse.Pairwise fun a b => by' b ≤ by' a := by
    rw [List.pairwise_reverse]
    exact orderBy_pairwise by' l
  exact List.Perm.eq_of_pairwise hanti (List.pairwise_insertionSort _ l) hrev
    ((List.perm_insertionSort _ l).trans
      ((orderBy_perm by' l).symm.trans (List.reverse_perm _).symm))

/-- `LIMIT 1` without `ORDER BY`: the planner may return any of the rows, and
    `pick` names the one it took. -/
def limitOne {α : Type} (pick : Nat) (l : List α) : Option α :=
  l[pick % l.length]?

/-- What `LIMIT 1` returns is one of the rows. -/
theorem limitOne_mem {α : Type} {pick : Nat} {l : List α} {a : α}
    (h : limitOne pick l = some a) : a ∈ l :=
  List.mem_of_getElem? h

/-- `LIMIT 1` returns nothing only where there is nothing. -/
theorem limitOne_eq_none {α : Type} {pick : Nat} {l : List α} :
    limitOne pick l = none ↔ l = [] := by
  rw [limitOne]
  constructor
  · intro h
    have hle := List.getElem?_eq_none_iff.mp h
    rcases l with _ | ⟨a, l⟩
    · rfl
    · have := Nat.mod_lt pick (show 0 < l.length + 1 by omega)
      simp only [List.length_cons] at hle
      omega
  · intro h
    rw [h]
    rfl

/-- Every row can be the one that is returned. -/
theorem exists_limitOne {α : Type} {l : List α} {a : α} (h : a ∈ l) :
    ∃ pick, limitOne pick l = some a := by
  obtain ⟨i, hi, heq⟩ := List.mem_iff_getElem.mp h
  refine ⟨i, ?_⟩
  rw [limitOne]
  rw [Nat.mod_eq_of_lt hi, List.getElem?_eq_getElem hi, heq]

end KeyedTable
