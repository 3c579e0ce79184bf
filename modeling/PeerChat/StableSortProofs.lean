import Mathlib

/-! # Stable sorting — what a sort keeps

    Sorting leaves the order of a part of the list alone if that part was in
    order already; in particular it never swaps entries that tie.  That decides
    the result: two lists sorted by a key are equal as soon as they agree on the
    entries of each key.  Sorting something that is sorted and merging into it
    what it holds already are the cases a caller meets. -/

namespace StableSort

variable {α : Type}

/-- **A SORT KEEPS WHAT IS IN ORDER**: the entries that pass `p`, if they were
    sorted among themselves, come out in the same order. -/
theorem filter_mergeSort {le : α → α → Bool} {p : α → Bool} {l : List α}
    (htrans : ∀ a b c, le a b → le b c → le a c) (htotal : ∀ a b, le a b || le b a)
    (hp : (l.filter p).Pairwise fun a b => le a b) :
    (l.mergeSort le).filter p = l.filter p := by
  have hsub : (l.filter p).Sublist (l.mergeSort le) :=
    List.sublist_mergeSort htrans htotal hp List.filter_sublist
  have hfilter : (l.filter p).Sublist ((l.mergeSort le).filter p) := by
    have hself : (l.filter p).filter p = l.filter p := List.filter_eq_self.mpr fun a ha =>
      (List.mem_filter.mp ha).2
    have h := hsub.filter p
    rw [hself] at h
    exact h
  have hlen := ((List.mergeSort_perm l le).filter p).length_eq
  exact (hfilter.eq_of_length hlen.symm).symm

/-- Sorting by a key. -/
def sortBy (key : α → Int) (l : List α) : List α := l.mergeSort fun a b => key a ≤ key b

variable {key : α → Int}

/-- Sorting neither drops nor doubles an element. -/
theorem sortBy_perm (key : α → Int) (l : List α) : (sortBy key l).Perm l :=
  List.mergeSort_perm l _

/-- The sorted elements are in order. -/
theorem sortBy_pairwise (key : α → Int) (l : List α) :
    (sortBy key l).Pairwise fun a b => key a ≤ key b := by
  have h := List.pairwise_mergeSort' (fun a b : α => key a ≤ key b) l
  exact h

/-- Elements that are in order among themselves stay in it. -/
theorem filter_sortBy {p : α → Bool} {l : List α}
    (hp : (l.filter p).Pairwise fun a b => key a ≤ key b) :
    (sortBy key l).filter p = l.filter p := by
  refine filter_mergeSort ?_ ?_ (hp.imp fun h => decide_eq_true h)
  · intro a b c hab hbc
    exact decide_eq_true ((of_decide_eq_true hab).trans (of_decide_eq_true hbc))
  · intro a b
    rw [Bool.or_eq_true, decide_eq_true_eq, decide_eq_true_eq]
    exact le_total (key a) (key b)

/-- Entries that tie keep their order. -/
theorem filter_key_sortBy (key : α → Int) (t : Int) (l : List α) :
    (sortBy key l).filter (key · = t) = l.filter (key · = t) := by
  refine filter_sortBy (List.Pairwise.imp_of_mem ?_ (List.pairwise_of_forall fun _ _ => trivial))
  intro a b ha hb _
  have hka := of_decide_eq_true (List.mem_filter.mp ha).2
  have hkb := of_decide_eq_true (List.mem_filter.mp hb).2
  rw [hka, hkb]

/-- The head of a sorted list has the least key of a list with the same entries. -/
theorem key_head_le {a b : α} {l' : List α}
    (hl : (b :: l').Pairwise fun a b => key a ≤ key b)
    (hmem : a ∈ (b :: l').filter (key · = key a)) : key b ≤ key a := by
  rcases List.mem_cons.mp (List.mem_filter.mp hmem).1 with rfl | hin
  · exact le_refl _
  · exact List.rel_of_pairwise_cons hl hin

/-- **SORTED LISTS ARE EQUAL KEY BY KEY.** -/
theorem eq_of_filter_key : ∀ {l l' : List α}, l.Pairwise (fun a b => key a ≤ key b) →
    l'.Pairwise (fun a b => key a ≤ key b) →
      (∀ t, l.filter (key · = t) = l'.filter (key · = t)) → l = l' := by
  intro l
  induction l with
  | nil =>
      intro l' _ _ h
      cases l' with
      | nil => rfl
      | cons b l' =>
          have hb := h (key b)
          rw [List.filter_cons_of_pos (by simp)] at hb
          cases hb
  | cons a l ih =>
      intro l' hl hl' h
      cases l' with
      | nil =>
          have ha := h (key a)
          rw [List.filter_cons_of_pos (by simp)] at ha
          cases ha
      | cons b l' =>
          -- either head occurs in the other list, so their keys agree
          have hab : key b ≤ key a := by
            refine key_head_le hl' ?_
            rw [← h (key a)]
            simp
          have hba : key a ≤ key b := by
            refine key_head_le hl ?_
            rw [h (key b)]
            simp
          have hkey : key a = key b := le_antisymm hba hab
          have hhead := h (key a)
          rw [List.filter_cons_of_pos (by simp),
            List.filter_cons_of_pos (by simp [hkey])] at hhead
          have heq : a = b := (List.cons.inj hhead).1
          rw [← heq]
          congr 1
          refine ih hl.of_cons hl'.of_cons ?_
          intro t
          have ht := h t
          rw [← heq, List.filter_cons, List.filter_cons] at ht
          split at ht
          · exact (List.cons.inj ht).2
          · exact ht

/-- Lists that agree on each key are sorted alike. -/
theorem sortBy_congr {l l' : List α}
    (h : ∀ t, l.filter (key · = t) = l'.filter (key · = t)) : sortBy key l = sortBy key l' := by
  refine eq_of_filter_key (sortBy_pairwise key l) (sortBy_pairwise key l') ?_
  intro t
  rw [filter_key_sortBy, filter_key_sortBy, h t]

/-- **MERGING TWICE IS MERGING ONCE**: what `p` picks from the result is what was
    merged into the base, in an order that sorting it again restores. -/
theorem sortBy_append_filter {p : α → Bool} {base rest : List α}
    (hbase : ∀ a ∈ base, p a = false) (hrest : ∀ a ∈ rest, p a = true) :
    sortBy key (base ++ (sortBy key (base ++ rest)).filter p) = sortBy key (base ++ rest) := by
  refine sortBy_congr ?_
  intro t
  -- of the entries with key `t`, the base's fail the test and the rest's pass it
  have hnone : (base.filter (key · = t)).filter p = [] := by
    rw [List.filter_eq_nil_iff]
    intro a ha
    rw [hbase a (List.mem_of_mem_filter ha)]
    exact Bool.false_ne_true
  have hall : (rest.filter (key · = t)).filter p = rest.filter (key · = t) :=
    List.filter_eq_self.mpr fun a ha => hrest a (List.mem_of_mem_filter ha)
  rw [List.filter_append, List.filter_append, List.filter_comm, filter_key_sortBy,
    List.filter_append, List.filter_append, hnone, hall, List.nil_append]

end StableSort
