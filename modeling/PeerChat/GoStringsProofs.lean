import Mathlib

/-! # `strings` — splitting, trimming and replacing

    `SplitN` at a separator of one character, `TrimSpace` and a single `Replace`,
    over the characters of a string.  The parts before the last hold no
    separator, and a text built from such parts splits into them again
    (`splitN_cons_iff`). -/

namespace GoStrings

/-! ## `SplitN` -/

/-- The text before the first separator and the text after it. -/
def cut (sep : Char) : List Char → Option (List Char × List Char)
  | [] => none
  | c :: cs =>
      if c = sep then some ([], cs)
      else (cut sep cs).map fun p => (c :: p.1, p.2)

/-- At most `n` parts; the last holds what is left. -/
def splitChars (sep : Char) : Nat → List Char → List (List Char)
  | 0, _ => []
  | 1, cs => [cs]
  | n + 2, cs => match cut sep cs with
    | none => [cs]
    | some (before, after) => before :: splitChars sep (n + 1) after

/-- `strings.SplitN(s, sep, n)`. -/
def splitN (s : String) (sep : Char) (n : Nat) : List String :=
  (splitChars sep n s.toList).map String.ofList

/-- A text is not cut exactly when the separator is not in it. -/
theorem cut_eq_none {sep : Char} {cs : List Char} : cut sep cs = none ↔ sep ∉ cs := by
  induction cs with
  | nil => exact iff_of_true rfl List.not_mem_nil
  | cons c cs ih =>
      rw [cut, List.mem_cons, not_or]
      by_cases hc : c = sep
      · rw [if_pos hc]
        exact iff_of_false (fun h => by cases h) (fun h => h.1 hc.symm)
      · rw [if_neg hc, Option.map_eq_none_iff, ih]
        exact ⟨fun h => ⟨Ne.symm hc, h⟩, fun h => h.2⟩

/-- A text is cut at the first separator. -/
theorem cut_append {sep : Char} {before : List Char} (h : sep ∉ before) (after : List Char) :
    cut sep (before ++ sep :: after) = some (before, after) := by
  induction before with
  | nil => rw [List.nil_append, cut, if_pos rfl]
  | cons c cs ih =>
      obtain ⟨hc, hcs⟩ := not_or.mp (mt List.mem_cons.mpr h)
      rw [List.cons_append, cut, if_neg (Ne.symm hc), ih hcs, Option.map_some]

/-- The cut comes at the first separator. -/
theorem cut_eq_some {sep : Char} {cs before after : List Char}
    (h : cut sep cs = some (before, after)) : cs = before ++ sep :: after ∧ sep ∉ before := by
  induction cs generalizing before with
  | nil => cases h
  | cons c cs ih =>
      rw [cut] at h
      by_cases hc : c = sep
      · rw [if_pos hc] at h
        cases h
        exact ⟨by rw [hc, List.nil_append], List.not_mem_nil⟩
      · rw [if_neg hc] at h
        obtain ⟨⟨before', after'⟩, hcut, heq⟩ := Option.map_eq_some_iff.mp h
        cases heq
        obtain ⟨hcs, hnot⟩ := ih hcut
        refine ⟨by rw [hcs, List.cons_append], ?_⟩
        intro hmem
        rcases List.mem_cons.mp hmem with heq | hin
        · exact hc heq.symm
        · exact hnot hin

/-- A part without the separator, then the rest. -/
theorem splitN_cons {sep : Char} {a : String} (h : sep ∉ a.toList) (b : String) (n : Nat) :
    splitN (a ++ String.singleton sep ++ b) sep (n + 2) = a :: splitN b sep (n + 1) := by
  have hchars : (a ++ String.singleton sep ++ b).toList = a.toList ++ sep :: b.toList := by
    simp [String.toList_append]
  rw [splitN, hchars, splitChars, cut_append h]
  simp [splitN]

@[simp] theorem splitN_one (s : String) (sep : Char) : splitN s sep 1 = [s] := by
  simp [splitN, splitChars]

/-- **A FIRST PART AND MORE**: the cut is at the first separator. -/
theorem splitN_cons_iff {sep : Char} {s a : String} {parts : List String} (hne : parts ≠ [])
    {n : Nat} :
    splitN s sep (n + 2) = a :: parts ↔
      ∃ rest, s = a ++ String.singleton sep ++ rest ∧ sep ∉ a.toList ∧
        splitN rest sep (n + 1) = parts := by
  constructor
  · intro h
    rw [splitN, splitChars] at h
    cases hcut : cut sep s.toList with
    | none =>
        rw [hcut] at h
        cases h
        exact absurd rfl hne
    | some p =>
        obtain ⟨before, after⟩ := p
        obtain ⟨hs, hnot⟩ := cut_eq_some hcut
        rw [hcut] at h
        simp only [List.map_cons, List.cons.injEq] at h
        obtain ⟨rfl, hparts⟩ := h
        refine ⟨String.ofList after, ?_, by rw [String.toList_ofList]; exact hnot, ?_⟩
        · apply String.toList_inj.mp
          simp [hs, String.toList_append]
        · rw [splitN, String.toList_ofList]
          exact hparts
  · rintro ⟨rest, rfl, hnot, rfl⟩
    exact splitN_cons hnot rest n

/-- **A SPLIT IN TWO** is a cut at the first separator. -/
theorem splitN_two {sep : Char} {s a b : String} :
    splitN s sep 2 = [a, b] ↔ s = a ++ String.singleton sep ++ b ∧ sep ∉ a.toList := by
  rw [splitN_cons_iff (List.cons_ne_nil b [])]
  constructor
  · rintro ⟨rest, hs, hnot, hrest⟩
    rw [splitN_one, List.cons.injEq] at hrest
    rw [← hrest.1]
    exact ⟨hs, hnot⟩
  · rintro ⟨hs, hnot⟩
    exact ⟨b, hs, hnot, splitN_one b sep⟩

/-! ## `TrimSpace` -/

/-- `unicode.IsSpace`. -/
def isSpace (c : Char) : Bool :=
  c.toNat ∈ [0x09, 0x0A, 0x0B, 0x0C, 0x0D, 0x20, 0x85, 0xA0, 0x1680, 0x2028, 0x2029, 0x202F,
    0x205F, 0x3000] || (0x2000 ≤ c.toNat && c.toNat ≤ 0x200A)

/-- The characters without the spaces at the end. -/
def trimRightChars (cs : List Char) : List Char := (cs.reverse.dropWhile isSpace).reverse

/-- `strings.TrimSpace`. -/
def trimSpace (s : String) : String :=
  String.ofList (trimRightChars (s.toList.dropWhile isSpace))

/-- `strings.TrimRightFunc(s, unicode.IsSpace)`. -/
def trimRight (s : String) : String := String.ofList (trimRightChars s.toList)

theorem trimRightChars_append {cs ds : List Char} (h : trimRightChars ds ≠ []) :
    trimRightChars (cs ++ ds) = cs ++ trimRightChars ds := by
  have hne : ds.reverse.dropWhile isSpace ≠ [] := fun hnil => h (by rw [trimRightChars, hnil]; rfl)
  rw [trimRightChars, List.reverse_append, List.dropWhile_append, if_neg (by simpa using hne),
    List.reverse_append, List.reverse_reverse]
  rfl

theorem trimRightChars_of_last {cs : List Char} {c : Char} (hc : isSpace c = false) :
    trimRightChars (cs ++ [c]) = cs ++ [c] := by
  have hlast : trimRightChars [c] = [c] := by simp [trimRightChars, hc]
  rw [trimRightChars_append (by rw [hlast]; exact List.cons_ne_nil _ _), hlast]

/-- What is left ends in no space. -/
theorem trimRightChars_last {cs ds : List Char} {c : Char} (h : trimRightChars cs = ds ++ [c]) :
    isSpace c = false := by
  have hrev : cs.reverse.dropWhile isSpace = c :: ds.reverse := by
    rw [← List.reverse_reverse (cs.reverse.dropWhile isSpace)]
    rw [trimRightChars] at h
    rw [h]
    simp
  have hne : cs.reverse.dropWhile isSpace ≠ [] := by
    rw [hrev]
    exact List.cons_ne_nil _ _
  have hhead := List.head_dropWhile_not isSpace hne
  simpa only [hrev, List.head_cons] using hhead

/-- A text that begins with no space is trimmed at the end only. -/
theorem trimSpace_of_head {s : String} (h : ∀ c ∈ s.toList.head?, isSpace c = false) :
    trimSpace s = trimRight s := by
  rw [trimSpace, trimRight]
  congr 2
  cases hs : s.toList with
  | nil => rfl
  | cons c cs =>
      have hc : isSpace c = false := h c (by rw [hs]; exact Option.mem_some_self c)
      rw [List.dropWhile_cons_of_neg (by rw [hc]; exact Bool.false_ne_true)]

/-- Trimming leaves a part of the text. -/
theorem trimSpace_part (s : String) : (trimSpace s).toList <:+: s.toList := by
  rw [trimSpace, String.toList_ofList]
  have hend : ∀ cs, trimRightChars cs <+: cs := by
    intro cs
    rw [trimRightChars, ← List.reverse_suffix, List.reverse_reverse]
    exact List.dropWhile_suffix isSpace
  exact (hend _).isInfix.trans (List.dropWhile_suffix isSpace).isInfix

/-! ## `Replace`, once -/

/-- The first occurrence of `old` becomes `new`. -/
def replaceChars (old new : List Char) : List Char → List Char
  | [] => if old = [] then new else []
  | c :: cs =>
      if old.isPrefixOf (c :: cs) then new ++ (c :: cs).drop old.length
      else c :: replaceChars old new cs

/-- `strings.Replace(s, old, new, 1)`. -/
def replaceFirst (s old new : String) : String :=
  String.ofList (replaceChars old.toList new.toList s.toList)

/-- Replacing brings in no characters but the new ones. -/
theorem mem_replaceChars {old new : List Char} {c : Char} (cs : List Char)
    (h : c ∈ replaceChars old new cs) : c ∈ cs ∨ c ∈ new := by
  induction cs with
  | nil =>
      rw [replaceChars] at h
      split at h
      · exact Or.inr h
      · exact Or.inl h
  | cons d cs ih =>
      rw [replaceChars] at h
      split at h
      · exact (List.mem_append.mp h).symm.imp_left List.mem_of_mem_drop
      · rcases List.mem_cons.mp h with rfl | hin
        · exact Or.inl List.mem_cons_self
        · exact (ih hin).imp_left (List.mem_cons_of_mem d)

/-- A replacement brings no characters but its own. -/
theorem mem_replaceFirst {s old new : String} {c : Char}
    (h : c ∈ (replaceFirst s old new).toList) : c ∈ s.toList ∨ c ∈ new.toList := by
  rw [replaceFirst, String.toList_ofList] at h
  exact mem_replaceChars s.toList h

end GoStrings
