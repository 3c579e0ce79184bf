import PeerChat.JsonScanProofs

/-! # JSON text, as `JSON.stringify` writes it — and reads back

    The encoder of the other side: a string between quotes with the short
    escapes, the remaining control characters as `\u00xx` and everything else
    as UTF-8; arrays and objects without blanks, an object's entries in order.

    What it writes for strings, arrays and objects is what the scanner reads:
    `parse_encode`.  How long the text is, is counted on the way. -/

namespace JsonEncode

open JsonScan

/-! ## The encoder -/

/-- The UTF-8 bytes of a character. -/
def utf8 (c : Char) : List UInt8 :=
  let n := c.toNat
  if n < 0x80 then [UInt8.ofNat n]
  else if n < 0x800 then [UInt8.ofNat (0xC0 + n / 64), UInt8.ofNat (0x80 + n % 64)]
  else if n < 0x10000 then
    [UInt8.ofNat (0xE0 + n / 4096), UInt8.ofNat (0x80 + n / 64 % 64),
      UInt8.ofNat (0x80 + n % 64)]
  else
    [UInt8.ofNat (0xF0 + n / 262144), UInt8.ofNat (0x80 + n / 4096 % 64),
      UInt8.ofNat (0x80 + n / 64 % 64), UInt8.ofNat (0x80 + n % 64)]

/-- The letter of a two-byte escape. -/
def shortEscape (c : Char) : Option UInt8 :=
  match c.toNat with
  | 0x22 => some 0x22
  | 0x5C => some 0x5C
  | 0x08 => some 0x62
  | 0x0C => some 0x66
  | 0x0A => some 0x6E
  | 0x0D => some 0x72
  | 0x09 => some 0x74
  | _ => none

/-- A lower-case hexadecimal digit. -/
def hexByte (d : Nat) : UInt8 := UInt8.ofNat (if d < 10 then 0x30 + d else 0x57 + d)

/-- One character of a string. -/
def escape (c : Char) : List UInt8 :=
  match shortEscape c with
  | some e => [0x5C, e]
  | none =>
      if c.toNat < 0x20 then
        [0x5C, 0x75, 0x30, 0x30, hexByte (c.toNat / 16), hexByte (c.toNat % 16)]
      else utf8 c

/-- The text between the quotes. -/
def body (s : String) : List UInt8 := s.toList.flatMap escape

/-- A string. -/
def quote (s : String) : List UInt8 := 0x22 :: body s ++ [0x22]

mutual
/-- `JSON.stringify`. -/
def encode : Json → List UInt8
  | .null => ascii "null"
  | .bool b => ascii (if b then "true" else "false")
  | .num lit => ascii lit
  | .str s => quote s
  | .arr [] => [0x5B, 0x5D]
  | .arr (v :: vs) => 0x5B :: (encode v ++ encodeElems vs ++ [0x5D])
  | .obj [] => [0x7B, 0x7D]
  | .obj ((k, v) :: es) => 0x7B :: (quote k ++ 0x3A :: encode v ++ encodeEntries es ++ [0x7D])
/-- The further elements of an array. -/
def encodeElems : List Json → List UInt8
  | [] => []
  | v :: vs => 0x2C :: encode v ++ encodeElems vs
/-- The further entries of an object. -/
def encodeEntries : List (String × Json) → List UInt8
  | [] => []
  | (k, v) :: es => 0x2C :: quote k ++ 0x3A :: encode v ++ encodeEntries es
end

/-- Strings, arrays and objects, the containers nested at most `n` deep. -/
inductive Textual : Nat → Json → Prop where
  | str {n : Nat} (s : String) : Textual n (.str s)
  | arr {n : Nat} {vs : List Json} : (∀ v ∈ vs, Textual n v) → Textual (n + 1) (.arr vs)
  | obj {n : Nat} {es : List (String × Json)} :
      (∀ e ∈ es, Textual n e.2) → Textual (n + 1) (.obj es)

/-- What the scanner makes of a word between delimiters. -/
inductive Word : Json → Prop where
  | null : Word .null
  | bool (b : Bool) : Word (.bool b)
  | num {lit : String} (h : isNumber lit.toList = true) : Word (.num lit)

/-- Any value, its containers nested at most `n` deep. -/
inductive Shaped : Nat → Json → Prop where
  | word {n : Nat} {v : Json} (h : Word v) : Shaped n v
  | str {n : Nat} (s : String) : Shaped n (.str s)
  | arr {n : Nat} {vs : List Json} : (∀ v ∈ vs, Shaped n v) → Shaped (n + 1) (.arr vs)
  | obj {n : Nat} {es : List (String × Json)} :
      (∀ e ∈ es, Shaped n e.2) → Shaped (n + 1) (.obj es)

/-- A value that nests no deeper than `n` nests no deeper than more. -/
theorem Shaped.mono {n m : Nat} {v : Json} (h : Shaped n v) (hle : n ≤ m) : Shaped m v := by
  induction h generalizing m with
  | word h => exact .word h
  | str s => exact .str s
  | @arr n vs _ ih =>
      obtain ⟨k, rfl⟩ : ∃ k, m = k + 1 := ⟨m - 1, by omega⟩
      exact .arr fun v hv => ih v hv (by omega)
  | @obj n es _ ih =>
      obtain ⟨k, rfl⟩ : ∃ k, m = k + 1 := ⟨m - 1, by omega⟩
      exact .obj fun e he => ih e he (by omega)

/-- The values of an object nest one level less. -/
theorem Shaped.entries {n : Nat} {es : List (String × Json)} (h : Shaped n (.obj es)) :
    ∃ k, n = k + 1 ∧ ∀ e ∈ es, Shaped k e.2 := by
  cases h with
  | word h => cases h
  | obj hes => exact ⟨_, rfl, hes⟩

/-- A value of texts is a shaped one. -/
theorem Textual.shaped {n : Nat} {v : Json} (h : Textual n v) : Shaped n v := by
  induction h with
  | str s => exact .str s
  | arr _ ih => exact .arr ih
  | obj _ ih => exact .obj ih

/-! ## A character and its bytes -/

/-- A short escape is read as the character it stands for. -/
theorem shortEscape_some {c : Char} {e : UInt8} (h : shortEscape c = some e) :
    simpleEscape e = some (UInt8.ofNat c.toNat) ∧ e ≠ 0x75 ∧ c.toNat < 0x80 := by
  rw [shortEscape] at h
  split at h <;> rename_i hc <;> first | (cases h; rw [hc]; decide) | cases h

/-- Quote and backslash have short escapes. -/
theorem shortEscape_none {c : Char} (h : shortEscape c = none) :
    c.toNat ≠ 0x22 ∧ c.toNat ≠ 0x5C := by
  rw [shortEscape] at h
  constructor <;> intro hc <;> rw [hc] at h <;> cases h

/-- A hexadecimal digit is read as the number it was written for. -/
theorem hexDigit_hexByte {d : Nat} (h : d < 16) : hexDigit (hexByte d) = some d := by
  revert d
  decide

theorem ofNat_toNat {n : Nat} (h : n < 256) : (UInt8.ofNat n).toNat = n := by
  rw [UInt8.toNat_ofNat']
  exact Nat.mod_eq_of_lt h

theorem char_lt (c : Char) : c.toNat < 0x110000 := by
  have := c.valid
  simp only [UInt32.isValidChar, Nat.isValidChar] at this
  show c.val.toNat < _
  omega

/-- No character is a surrogate. -/
theorem char_not_surrogate (c : Char) : c.toNat < 0xD800 ∨ 0xE000 ≤ c.toNat := by
  have := c.valid
  simp only [UInt32.isValidChar, Nat.isValidChar] at this
  show c.val.toNat < _ ∨ _ ≤ c.val.toNat
  omega

/-- A byte a string literal holds as it stands. -/
def Plain (b : UInt8) : Prop := b ≠ 0x22 ∧ b ≠ 0x5C ∧ ¬ b < 0x20

theorem plain_ofNat {n : Nat} (h : n < 256) (hlow : 0x20 ≤ n) (hq : n ≠ 0x22)
    (hb : n ≠ 0x5C) : Plain (UInt8.ofNat n) := by
  refine ⟨?_, ?_, ?_⟩
  · intro heq
    exact hq (by rw [← ofNat_toNat h, heq]; rfl)
  · intro heq
    exact hb (by rw [← ofNat_toNat h, heq]; rfl)
  · rw [UInt8.lt_iff_toNat_lt, ofNat_toNat h]
    exact Nat.not_lt.mpr hlow

/-- A character that needs no escape is plain bytes. -/
theorem plain_utf8 {c : Char} (hs : shortEscape c = none) (hlow : 0x20 ≤ c.toNat) :
    ∀ b ∈ utf8 c, Plain b := by
  obtain ⟨hq, hb⟩ := shortEscape_none hs
  have hlt := char_lt c
  intro b hmem
  simp only [utf8] at hmem
  split at hmem
  · rw [List.mem_singleton] at hmem
    rw [hmem]
    exact plain_ofNat (by omega) hlow hq hb
  · have hhigh : ∃ n, b = UInt8.ofNat n ∧ 0x80 ≤ n ∧ n < 256 := by
      split at hmem
      · simp only [List.mem_cons, List.not_mem_nil, or_false] at hmem
        rcases hmem with rfl | rfl <;> exact ⟨_, rfl, by omega, by omega⟩
      · split at hmem
        · simp only [List.mem_cons, List.not_mem_nil, or_false] at hmem
          rcases hmem with rfl | rfl | rfl <;> exact ⟨_, rfl, by omega, by omega⟩
        · simp only [List.mem_cons, List.not_mem_nil, or_false] at hmem
          rcases hmem with rfl | rfl | rfl | rfl <;> exact ⟨_, rfl, by omega, by omega⟩
    obtain ⟨n, rfl, hge, hlt'⟩ := hhigh
    exact plain_ofNat hlt' (by omega) (by omega) (by omega)

/-! ## The escapes resolved -/

/-- What the scanner sees of a character between its escapes. -/
def units (c : Char) : List CodeUnit :=
  if shortEscape c = none ∧ c.toNat < 0x20 then [.utf16 c.toNat] else (utf8 c).map .byte

/-- A byte other than a backslash stands for itself. -/
theorem unescape_byte {b : UInt8} (h : b ≠ 0x5C) (rest : List UInt8) :
    unescape (b :: rest) = (unescape rest).map (.byte b :: ·) := by
  rw [unescape.eq_def]
  exact if_neg h

/-- A backslash and a letter stand for one character. -/
theorem unescape_short {e x : UInt8} (hu : e ≠ 0x75) (h : simpleEscape e = some x)
    (rest : List UInt8) :
    unescape (0x5C :: e :: rest) = (unescape rest).map (.byte x :: ·) := by
  rw [unescape.eq_def]
  simp only [if_true, if_neg hu, h]

/-- A `\u` and four digits stand for a code unit. -/
theorem unescape_hex {h₁ h₂ h₃ h₄ : UInt8} {a b c d : Nat} (ha : hexDigit h₁ = some a)
    (hb : hexDigit h₂ = some b) (hc : hexDigit h₃ = some c) (hd : hexDigit h₄ = some d)
    (rest : List UInt8) :
    unescape (0x5C :: 0x75 :: h₁ :: h₂ :: h₃ :: h₄ :: rest)
      = (unescape rest).map (.utf16 (((a * 16 + b) * 16 + c) * 16 + d) :: ·) := by
  rw [unescape.eq_def]
  simp only [if_true, ha, hb, hc, hd]

/-- Bytes without a backslash stand for themselves. -/
theorem unescape_plain {bs : List UInt8} (h : ∀ b ∈ bs, b ≠ 0x5C) (rest : List UInt8) :
    unescape (bs ++ rest) = (unescape rest).map (bs.map CodeUnit.byte ++ ·) := by
  induction bs with
  | nil => simp
  | cons b bs ih =>
      rw [List.cons_append, unescape_byte (h b List.mem_cons_self),
        ih fun b' hb' => h b' (List.mem_cons_of_mem _ hb'), Option.map_map]
      rfl

/-- A written character is read as its code units. -/
theorem unescape_escape (c : Char) (rest : List UInt8) :
    unescape (escape c ++ rest) = (unescape rest).map (units c ++ ·) := by
  rw [escape, units]
  cases hs : shortEscape c with
  | some e =>
      obtain ⟨hsimple, hu, hlt⟩ := shortEscape_some hs
      have hutf8 : utf8 c = [UInt8.ofNat c.toNat] := by
        simp only [utf8]
        rw [if_pos hlt]
      have hnone : ¬ (some e = none ∧ c.toNat < 0x20) := fun h => Option.some_ne_none e h.1
      rw [if_neg hnone, hutf8]
      exact unescape_short hu hsimple rest
  | none =>
      by_cases hlow : c.toNat < 0x20
      · rw [if_pos hlow, if_pos ⟨rfl, hlow⟩]
        have hzero : hexDigit 0x30 = some 0 := by decide
        have hsum : ((0 * 16 + 0) * 16 + c.toNat / 16) * 16 + c.toNat % 16 = c.toNat := by omega
        have hstep := unescape_hex hzero hzero
          (hexDigit_hexByte (by omega : c.toNat / 16 < 16))
          (hexDigit_hexByte (by omega : c.toNat % 16 < 16)) rest
        rwa [hsum] at hstep
      · rw [if_neg hlow, if_neg (not_and_of_not_right _ hlow)]
        exact unescape_plain (fun b hb => (plain_utf8 hs (Nat.le_of_not_lt hlow) b hb).2.1) rest

/-- The body of a string, between its escapes. -/
theorem unescape_body (cs : List Char) :
    unescape (cs.flatMap escape) = some (cs.flatMap units) := by
  induction cs with
  | nil => rfl
  | cons c cs ih =>
      rw [List.flatMap_cons, unescape_escape, ih, List.flatMap_cons]
      rfl

/-! ## The characters decoded -/

theorem decodeUnit_open (u : CodeUnit) : decodeUnit (.bytes []) u = openUnit u := by
  cases u <;> rfl

/-- A lead byte waits for `k - 1` more. -/
theorem decodeUnit_lead {b : UInt8} {k : Nat} (h : utf8Width b = some k) (hk : k ≠ 1) :
    decodeUnit (.bytes []) (.byte b) = ([], .bytes [b]) := by
  rw [decodeUnit_open, openUnit, h]
  split
  · rename_i heq
    exact absurd (Option.some.inj heq) hk
  · rfl
  · rename_i heq
    cases heq

/-- Two bytes are the character they encode. -/
theorem utf8Char_two {a b : Nat} (ha : a < 256) (hb : b < 256) :
    utf8Char [UInt8.ofNat a, UInt8.ofNat b]
      = Char.ofNat ((a - 0xC0) * 64 + (b - 0x80)) := by
  simp only [utf8Char, List.map_cons, List.map_nil, ofNat_toNat, ha, hb]

/-- Three bytes are the character they encode. -/
theorem utf8Char_three {a b c : Nat} (ha : a < 256) (hb : b < 256) (hc : c < 256) :
    utf8Char [UInt8.ofNat a, UInt8.ofNat b, UInt8.ofNat c]
      = Char.ofNat (((a - 0xE0) * 64 + (b - 0x80)) * 64 + (c - 0x80)) := by
  simp only [utf8Char, List.map_cons, List.map_nil, ofNat_toNat, ha, hb, hc]

/-- Four bytes are the character they encode. -/
theorem utf8Char_four {a b c d : Nat} (ha : a < 256) (hb : b < 256) (hc : c < 256)
    (hd : d < 256) :
    utf8Char [UInt8.ofNat a, UInt8.ofNat b, UInt8.ofNat c, UInt8.ofNat d]
      = Char.ofNat ((((a - 0xF0) * 64 + (b - 0x80)) * 64 + (c - 0x80)) * 64
        + (d - 0x80)) := by
  simp only [utf8Char, List.map_cons, List.map_nil, ofNat_toNat, ha, hb, hc, hd]

/-- The width a lead byte announces, read off its value. -/
theorem utf8Width_ofNat {n : Nat} (h : n < 256) : utf8Width (UInt8.ofNat n) =
    if n < 0x80 then some 1 else if 0xC2 ≤ n ∧ n ≤ 0xDF then some 2
    else if 0xE0 ≤ n ∧ n ≤ 0xEF then some 3
    else if 0xF0 ≤ n ∧ n ≤ 0xF4 then some 4 else none := by
  simp only [utf8Width, UInt8.lt_iff_toNat_lt, UInt8.le_iff_toNat_le, ofNat_toNat h]
  rfl

/-- The second byte, within the range its lead byte leaves. -/
theorem utf8Follows_second {a b : Nat} (ha : a < 256) (hb : b < 256)
    (hlow : (if a = 0xE0 then 0xA0 else if a = 0xF0 then 0x90 else 0x80) ≤ b)
    (hhigh : b ≤ if a = 0xED then 0x9F else if a = 0xF4 then 0x8F else 0xBF) :
    utf8Follows [UInt8.ofNat a] (UInt8.ofNat b) = true := by
  have hcode : ∀ k : UInt8, [UInt8.ofNat a] = [k] → a = k.toNat := by
    intro k hk
    rw [← ofNat_toNat ha, (List.cons.inj hk).1]
  rw [utf8Follows.eq_def]
  split <;> simp only [Bool.and_eq_true, decide_eq_true_eq, UInt8.le_iff_toNat_le,
    ofNat_toNat hb]
  case h_5 =>
    show 0x80 ≤ b ∧ b ≤ 0xBF
    split_ifs at hlow hhigh <;> omega
  all_goals
    rename_i heq
    rw [hcode _ heq] at hlow hhigh
    exact ⟨hlow, hhigh⟩

/-- A third or fourth byte. -/
theorem utf8Follows_tail (a b : UInt8) (rest : List UInt8) {n : Nat} (hn : n < 64) :
    utf8Follows (a :: b :: rest) (UInt8.ofNat (0x80 + n)) = true := by
  have hb : (UInt8.ofNat (0x80 + n)).toNat = 0x80 + n := ofNat_toNat (by omega)
  rw [utf8Follows]
  · simp only [Bool.and_eq_true, decide_eq_true_eq, UInt8.le_iff_toNat_le, hb]
    exact ⟨by show 0x80 ≤ _; omega, by show _ ≤ 0xBF; omega⟩
  all_goals
    intro heq
    cases heq

/-- A byte that continues an unfinished sequence. -/
theorem decodeUnit_more {a b : UInt8} {rest : List UInt8} {k : Nat}
    (hf : utf8Follows (a :: rest) b = true) (hw : utf8Width a = some k)
    (hk : rest.length + 2 < k) :
    decodeUnit (.bytes (a :: rest)) (.byte b) = ([], .bytes (a :: rest ++ [b])) := by
  have hlength : (a :: rest ++ [b]).length = rest.length + 2 := by simp
  rw [decodeUnit.eq_def]
  simp only [hf, if_true, hw, hlength]
  exact if_neg fun heq => absurd (Option.some.inj heq) (by omega)

/-- The byte that completes it. -/
theorem decodeUnit_last {a b : UInt8} {rest : List UInt8} {k : Nat}
    (hf : utf8Follows (a :: rest) b = true) (hw : utf8Width a = some k)
    (hk : k = rest.length + 2) :
    decodeUnit (.bytes (a :: rest)) (.byte b) = ([utf8Char (a :: rest ++ [b])], .bytes []) := by
  have hlength : (a :: rest ++ [b]).length = rest.length + 2 := by simp
  rw [decodeUnit.eq_def]
  simp only [hf, if_true, hw, hlength]
  exact if_pos (congrArg some hk)

/-- The runes of a list are those of its first unit and those of the rest. -/
theorem runes_step {p q : Partial} {u : CodeUnit} {cs : List Char}
    (h : decodeUnit p u = (cs, q)) (us : List CodeUnit) :
    runes p (u :: us) = cs ++ runes q us := by
  rw [runes, h]

/-- A character below U+0080 is read back from its byte. -/
theorem runes_one {n : Nat} (h : n < 0x80) (us : List CodeUnit) :
    runes (.bytes []) (.byte (UInt8.ofNat n) :: us) = Char.ofNat n :: runes (.bytes []) us := by
  have hw : utf8Width (UInt8.ofNat n) = some 1 := by
    rw [utf8Width_ofNat (by omega), if_pos h]
  have hopen : decodeUnit (.bytes []) (.byte (UInt8.ofNat n)) = ([Char.ofNat n], .bytes []) := by
    rw [decodeUnit_open, openUnit, hw]
    show ([Char.ofNat (UInt8.ofNat n).toNat], _) = _
    rw [ofNat_toNat (by omega)]
  exact runes_step hopen us

/-- A character below U+0800 is read back from its two bytes. -/
theorem runes_two {n : Nat} (hge : 0x80 ≤ n) (hlt : n < 0x800) (us : List CodeUnit) :
    runes (.bytes []) (.byte (UInt8.ofNat (0xC0 + n / 64)) ::
      .byte (UInt8.ofNat (0x80 + n % 64)) :: us) = Char.ofNat n :: runes (.bytes []) us := by
  have hw : utf8Width (UInt8.ofNat (0xC0 + n / 64)) = some 2 := by
    rw [utf8Width_ofNat (by omega), if_neg (by omega), if_pos (by omega)]
  have hf : utf8Follows [UInt8.ofNat (0xC0 + n / 64)] (UInt8.ofNat (0x80 + n % 64)) = true :=
    utf8Follows_second (by omega) (by omega) (by split_ifs <;> omega) (by split_ifs <;> omega)
  have hchar : utf8Char [UInt8.ofNat (0xC0 + n / 64), UInt8.ofNat (0x80 + n % 64)]
      = Char.ofNat n := by
    rw [utf8Char_two (by omega) (by omega)]
    exact congrArg Char.ofNat (by omega)
  rw [runes_step (decodeUnit_lead hw (by decide)), runes_step (decodeUnit_last hf hw rfl)]
  show utf8Char [_, _] :: runes (.bytes []) us = _
  rw [hchar]

/-- A character below U+10000 is read back from its three bytes. -/
theorem runes_three {n : Nat} (hge : 0x800 ≤ n) (hlt : n < 0x10000)
    (hs : n < 0xD800 ∨ 0xE000 ≤ n) (us : List CodeUnit) :
    runes (.bytes []) (.byte (UInt8.ofNat (0xE0 + n / 4096)) ::
      .byte (UInt8.ofNat (0x80 + n / 64 % 64)) :: .byte (UInt8.ofNat (0x80 + n % 64)) :: us)
      = Char.ofNat n :: runes (.bytes []) us := by
  have hw : utf8Width (UInt8.ofNat (0xE0 + n / 4096)) = some 3 := by
    rw [utf8Width_ofNat (by omega), if_neg (by omega), if_neg (by omega), if_pos (by omega)]
  have hf : utf8Follows [UInt8.ofNat (0xE0 + n / 4096)]
      (UInt8.ofNat (0x80 + n / 64 % 64)) = true :=
    utf8Follows_second (by omega) (by omega) (by split_ifs <;> omega) (by split_ifs <;> omega)
  have hf' := utf8Follows_tail (UInt8.ofNat (0xE0 + n / 4096))
    (UInt8.ofNat (0x80 + n / 64 % 64)) [] (by omega : n % 64 < 64)
  have hchar : utf8Char [UInt8.ofNat (0xE0 + n / 4096), UInt8.ofNat (0x80 + n / 64 % 64),
      UInt8.ofNat (0x80 + n % 64)] = Char.ofNat n := by
    rw [utf8Char_three (by omega) (by omega) (by omega)]
    exact congrArg Char.ofNat (by omega)
  rw [runes_step (decodeUnit_lead hw (by decide)),
    runes_step (decodeUnit_more hf hw (by decide))]
  refine (runes_step (decodeUnit_last hf' hw rfl) us).trans ?_
  show utf8Char [_, _, _] :: runes (.bytes []) us = _
  rw [hchar]

/-- Any other character is read back from its four bytes. -/
theorem runes_four {n : Nat} (hge : 0x10000 ≤ n) (hlt : n < 0x110000) (us : List CodeUnit) :
    runes (.bytes []) (.byte (UInt8.ofNat (0xF0 + n / 262144)) ::
      .byte (UInt8.ofNat (0x80 + n / 4096 % 64)) ::
      .byte (UInt8.ofNat (0x80 + n / 64 % 64)) :: .byte (UInt8.ofNat (0x80 + n % 64)) :: us)
      = Char.ofNat n :: runes (.bytes []) us := by
  have hw : utf8Width (UInt8.ofNat (0xF0 + n / 262144)) = some 4 := by
    rw [utf8Width_ofNat (by omega), if_neg (by omega), if_neg (by omega), if_neg (by omega),
      if_pos (by omega)]
  have hf : utf8Follows [UInt8.ofNat (0xF0 + n / 262144)]
      (UInt8.ofNat (0x80 + n / 4096 % 64)) = true :=
    utf8Follows_second (by omega) (by omega) (by split_ifs <;> omega) (by split_ifs <;> omega)
  have hf' := utf8Follows_tail (UInt8.ofNat (0xF0 + n / 262144))
    (UInt8.ofNat (0x80 + n / 4096 % 64)) [] (by omega : n / 64 % 64 < 64)
  have hf'' := utf8Follows_tail (UInt8.ofNat (0xF0 + n / 262144))
    (UInt8.ofNat (0x80 + n / 4096 % 64)) [UInt8.ofNat (0x80 + n / 64 % 64)]
    (by omega : n % 64 < 64)
  have hchar : utf8Char [UInt8.ofNat (0xF0 + n / 262144), UInt8.ofNat (0x80 + n / 4096 % 64),
      UInt8.ofNat (0x80 + n / 64 % 64), UInt8.ofNat (0x80 + n % 64)] = Char.ofNat n := by
    rw [utf8Char_four (by omega) (by omega) (by omega) (by omega)]
    exact congrArg Char.ofNat (by omega)
  rw [runes_step (decodeUnit_lead hw (by decide)),
    runes_step (decodeUnit_more hf hw (by decide))]
  refine (runes_step (decodeUnit_more hf' hw (Nat.lt_succ_self 3)) _).trans ?_
  refine (runes_step (decodeUnit_last hf'' hw rfl) us).trans ?_
  show utf8Char [_, _, _, _] :: runes (.bytes []) us = _
  rw [hchar]

/-- The bytes of a character decode to the character. -/
theorem runes_utf8 (c : Char) (us : List CodeUnit) :
    runes (.bytes []) ((utf8 c).map .byte ++ us) = c :: runes (.bytes []) us := by
  have hlt := char_lt c
  have hs := char_not_surrogate c
  have hread : runes (.bytes []) ((utf8 c).map .byte ++ us)
      = Char.ofNat c.toNat :: runes (.bytes []) us := by
    simp only [utf8]
    split
    · exact runes_one (by omega) us
    · split
      · exact runes_two (by omega) (by omega) us
      · split
        · exact runes_three (by omega) (by omega) hs us
        · exact runes_four (by omega) hlt us
  rwa [Char.ofNat_toNat] at hread

/-- Every character is read back from its units. -/
theorem runes_units (c : Char) (us : List CodeUnit) :
    runes (.bytes []) (units c ++ us) = c :: runes (.bytes []) us := by
  rw [units]
  split
  · rename_i hcontrol
    have hlow := hcontrol.2
    have hopen : decodeUnit (.bytes []) (.utf16 c.toNat) = ([c], .bytes []) := by
      rw [decodeUnit_open, openUnit, if_neg (by omega), if_neg (by omega), Char.ofNat_toNat]
    exact runes_step hopen us
  · exact runes_utf8 c us

/-- So is every list of characters. -/
theorem runes_flatMap_units (cs : List Char) : runes (.bytes []) (cs.flatMap units) = cs := by
  induction cs with
  | nil => rfl
  | cons c cs ih => rw [List.flatMap_cons, runes_units, ih]

/-- **WHAT IS WRITTEN BETWEEN THE QUOTES READS BACK.** -/
theorem unquote_body (s : String) : unquote (body s) = some s := by
  rw [unquote, body, unescape_body, Option.map_some, runes_flatMap_units, String.ofList_toList]

/-! ## The tokens of a value -/

mutual
/-- The tokens of a value. -/
def tokens : Json → List Token
  | .null => [.lit .null]
  | .bool b => [.lit (.bool b)]
  | .num lit => [.lit (.num lit)]
  | .str s => [.str s]
  | .arr [] => [.lbracket, .rbracket]
  | .arr (v :: vs) => .lbracket :: (tokens v ++ tokensElems vs ++ [.rbracket])
  | .obj [] => [.lbrace, .rbrace]
  | .obj ((k, v) :: es) =>
      .lbrace :: .str k :: .colon :: (tokens v ++ tokensEntries es ++ [.rbrace])
def tokensElems : List Json → List Token
  | [] => []
  | v :: vs => .comma :: tokens v ++ tokensElems vs
def tokensEntries : List (String × Json) → List Token
  | [] => []
  | (k, v) :: es => .comma :: .str k :: .colon :: tokens v ++ tokensEntries es
end

/-- `bs` lexes to `ts` in front of any text. -/
def Lexes (bs : List UInt8) (ts : List Token) : Prop :=
  ∀ rest, lex .idle (bs ++ rest) = (lex .idle rest).map (ts ++ ·)

theorem Lexes.nil : Lexes [] [] := by
  intro rest
  rw [List.nil_append]
  exact Option.map_id.symm ▸ rfl

/-- Bytes that are lexed one after the other give both lists of tokens. -/
theorem Lexes.append {bs bs' : List UInt8} {ts ts' : List Token} (h : Lexes bs ts)
    (h' : Lexes bs' ts') : Lexes (bs ++ bs') (ts ++ ts') := by
  intro rest
  rw [List.append_assoc, h, h', Option.map_map]
  congr 1
  funext l
  exact (List.append_assoc ts ts' l).symm

/-- The tokens of a text are those of its first byte and those of the rest. -/
theorem lex_step {s s' : LexState} {b : UInt8} {ts : List Token}
    (h : lexStep s b = some (ts, s')) (rest : List UInt8) :
    lex s (b :: rest) = (lex s' rest).map (ts ++ ·) := by
  cases s <;> rw [lex, h] <;> rfl

/-- A punctuation mark is its token. -/
theorem Lexes.mark {b : UInt8} {t : Token} (h : lexStep .idle b = some ([t], .idle)) :
    Lexes [b] [t] :=
  lex_step h

theorem lex_silent {s s' : LexState} {b : UInt8} (h : lexStep s b = some ([], s'))
    (rest : List UInt8) : lex s (b :: rest) = lex s' rest := by
  rw [lex_step h]
  exact Option.map_id_apply

/-- Inside a string the bytes `bs` are collected. -/
def Collected (bs : List UInt8) : Prop :=
  ∀ acc rest, lex (.str acc) (bs ++ rest) = lex (.str (bs.reverse ++ acc)) rest

/-- Two parts of a string literal are one. -/
theorem Collected.append {bs bs' : List UInt8} (h : Collected bs) (h' : Collected bs') :
    Collected (bs ++ bs') := by
  intro acc rest
  rw [List.append_assoc, h, h', List.reverse_append, List.append_assoc]

/-- Plain bytes are collected as they stand. -/
theorem Collected.plain {bs : List UInt8} (h : ∀ b ∈ bs, Plain b) : Collected bs := by
  induction bs with
  | nil => intro acc rest; rfl
  | cons b bs ih =>
      obtain ⟨hq, hb, hlow⟩ := h b List.mem_cons_self
      have hone : Collected [b] := by
        intro acc rest
        refine lex_silent ?_ rest
        rw [lexStep, if_neg hq, if_neg hb, if_neg hlow]
        rfl
      exact hone.append (ih fun b' hb' => h b' (List.mem_cons_of_mem _ hb'))

/-- A backslash and the byte it escapes. -/
theorem Collected.escaped {b : UInt8} (h : b = 0x75 ∨ (simpleEscape b).isSome = true) :
    Collected [0x5C, b] := by
  intro acc rest
  have hopen : lexStep (.str acc) 0x5C = some ([], .escape acc) := rfl
  have hclose : lexStep (.escape acc) b = some ([], .str (b :: 0x5C :: acc)) := if_pos h
  show lex (.str acc) (0x5C :: b :: rest) = _
  rw [lex_silent hopen, lex_silent hclose]
  rfl

theorem plain_hexByte {d : Nat} (h : d < 16) : Plain (hexByte d) := by
  rw [hexByte]
  split <;> exact plain_ofNat (by omega) (by omega) (by omega) (by omega)

/-- An escaped character is collected. -/
theorem collected_escape (c : Char) : Collected (escape c) := by
  rw [escape]
  cases hs : shortEscape c with
  | some e =>
      refine Collected.escaped (Or.inr ?_)
      rw [(shortEscape_some hs).1]
      rfl
  | none =>
      by_cases hlow : c.toNat < 0x20
      · rw [if_pos hlow]
        have hdigits : Collected [0x30, 0x30, hexByte (c.toNat / 16), hexByte (c.toNat % 16)] := by
          refine Collected.plain ?_
          have hzero : Plain 0x30 := by simp only [Plain]; decide
          intro b hb
          simp only [List.mem_cons, List.not_mem_nil, or_false] at hb
          rcases hb with rfl | rfl | rfl | rfl
          · exact hzero
          · exact hzero
          · exact plain_hexByte (by omega)
          · exact plain_hexByte (by omega)
        exact (Collected.escaped (Or.inl rfl)).append hdigits
      · rw [if_neg hlow]
        exact Collected.plain (plain_utf8 hs (Nat.le_of_not_lt hlow))

/-- So is every body of a string literal. -/
theorem collected_flatMap (cs : List Char) : Collected (cs.flatMap escape) := by
  induction cs with
  | nil => intro acc rest; rfl
  | cons c cs ih =>
      rw [List.flatMap_cons]
      exact (collected_escape c).append ih

/-- Between quotes, what is collected and reads as `s` is the token `s`. -/
theorem lexes_quoted {bs : List UInt8} {s : String} (hbody : Collected bs)
    (hs : unquote bs = some s) : Lexes (0x22 :: bs ++ [0x22]) [.str s] := by
  intro rest
  have hopen : lexStep .idle 0x22 = some ([], .str []) := rfl
  have hclose : lexStep (.str bs.reverse) 0x22 = some ([.str s], .idle) := by
    rw [lexStep, if_pos rfl, List.reverse_reverse, hs]
    rfl
  rw [List.cons_append, List.cons_append, lex_silent hopen, List.append_assoc, hbody,
    List.append_nil]
  exact lex_step hclose rest

/-- A quoted string is one token. -/
theorem lexes_quote (s : String) : Lexes (quote s) [.str s] :=
  lexes_quoted (collected_flatMap s.toList) (unquote_body s)

/-- The tokens of an array's elements, with their commas. -/
theorem lexes_elems {vs : List Json} (h : ∀ v ∈ vs, Lexes (encode v) (tokens v)) :
    Lexes (encodeElems vs) (tokensElems vs) := by
  induction vs with
  | nil => exact Lexes.nil
  | cons v vs ih =>
      have hcomma : Lexes [0x2C] [.comma] := Lexes.mark rfl
      exact (hcomma.append (h v List.mem_cons_self)).append
        (ih fun v' hv' => h v' (List.mem_cons_of_mem _ hv'))

/-- The tokens of an object's entries, with their colons and commas. -/
theorem lexes_entries {es : List (String × Json)}
    (h : ∀ e ∈ es, Lexes (encode e.2) (tokens e.2)) :
    Lexes (encodeEntries es) (tokensEntries es) := by
  induction es with
  | nil => exact Lexes.nil
  | cons e es ih =>
      have hcomma : Lexes [0x2C] [.comma] := Lexes.mark rfl
      have hcolon : Lexes [0x3A] [.colon] := Lexes.mark rfl
      have hvalue := (hcomma.append (lexes_quote e.1)).append
        (hcolon.append (h e List.mem_cons_self))
      exact hvalue.append (ih fun e' he' => h e' (List.mem_cons_of_mem _ he'))

/-- What is written lexes to the tokens of the value. -/
theorem lexes_encode {n : Nat} {v : Json} (h : Textual n v) : Lexes (encode v) (tokens v) := by
  induction h with
  | str s => exact lexes_quote s
  | @arr n vs _ ih =>
      have hopen : Lexes [0x5B] [.lbracket] := Lexes.mark rfl
      have hclose : Lexes [0x5D] [.rbracket] := Lexes.mark rfl
      cases vs with
      | nil => exact hopen.append hclose
      | cons v vs =>
          have helems := lexes_elems fun v' hv' => ih v' (List.mem_cons_of_mem _ hv')
          exact hopen.append (((ih v List.mem_cons_self).append helems).append hclose)
  | @obj n es _ ih =>
      have hopen : Lexes [0x7B] [.lbrace] := Lexes.mark rfl
      have hcolon : Lexes [0x3A] [.colon] := Lexes.mark rfl
      have hclose : Lexes [0x7D] [.rbrace] := Lexes.mark rfl
      cases es with
      | nil => exact hopen.append hclose
      | cons e es =>
          have hentries := lexes_entries fun e' he' => ih e' (List.mem_cons_of_mem _ he')
          have hfirst := (lexes_quote e.1).append (hcolon.append (ih e List.mem_cons_self))
          exact hopen.append ((hfirst.append hentries).append hclose)

/-! ## The parser on these tokens -/

theorem parseTokens_cons (s : List Open × Want) (t : Token) (ts : List Token) :
    parseTokens s (t :: ts) = (parseStep s t).bind (parseTokens · ts) := by
  obtain ⟨stack, want⟩ := s
  cases stack <;> cases want <;> rfl

theorem parseTokens_step {s s' : List Open × Want} {t : Token} (h : parseStep s t = some s')
    (ts : List Token) : parseTokens s (t :: ts) = parseTokens s' ts := by
  rw [parseTokens_cons, h]
  rfl

/-- The parser reads `v` where a value must start, leaving `stack` as it was. -/
def Parses (v : Json) (stack : List Open) : Prop :=
  ∀ ts, parseTokens (stack, .value) (tokens v ++ ts) = parseTokens (stack, .after v) ts

/-- The elements of an array are parsed one after the other. -/
theorem parse_elems {vs : List Json} {stack : List Open}
    (h : ∀ v ∈ vs, ∀ elems, Parses v (.arr elems :: stack)) (elems : List Json) (v : Json)
    (ts : List Token) :
    parseTokens (.arr elems :: stack, .after v) (tokensElems vs ++ .rbracket :: ts)
      = parseTokens (stack, .after (.arr (elems ++ v :: vs))) ts := by
  induction vs generalizing elems v with
  | nil => exact parseTokens_step rfl ts
  | cons w vs ih =>
      have hcomma : parseStep (.arr elems :: stack, .after v) .comma
          = some (.arr (elems ++ [v]) :: stack, .value) := rfl
      rw [tokensElems, List.append_assoc, List.cons_append, parseTokens_step hcomma,
        h w List.mem_cons_self, ih (fun v' hv' => h v' (List.mem_cons_of_mem _ hv')),
        List.append_assoc]
      rfl

/-- The entries of an object are parsed one after the other. -/
theorem parse_entries {es : List (String × Json)} {stack : List Open}
    (h : ∀ e ∈ es, ∀ entries k, Parses e.2 (.obj entries k :: stack))
    (entries : List (String × Json)) (k : String) (v : Json) (ts : List Token) :
    parseTokens (.obj entries k :: stack, .after v) (tokensEntries es ++ .rbrace :: ts)
      = parseTokens (stack, .after (.obj (entries ++ (k, v) :: es))) ts := by
  induction es generalizing entries k v with
  | nil => exact parseTokens_step rfl ts
  | cons e es ih =>
      have hcomma : parseStep (.obj entries k :: stack, .after v) .comma
          = some (stack, .key (entries ++ [(k, v)])) := rfl
      have hkey : parseStep (stack, .key (entries ++ [(k, v)])) (.str e.1)
          = some (stack, .colon (entries ++ [(k, v)]) e.1) := by
        cases stack <;> rfl
      have hcolon : parseStep (stack, .colon (entries ++ [(k, v)]) e.1) .colon
          = some (.obj (entries ++ [(k, v)]) e.1 :: stack, .value) := by
        cases stack <;> rfl
      show parseTokens _ (.comma :: .str e.1 :: .colon :: (tokens e.2 ++ tokensEntries es)
        ++ .rbrace :: ts) = _
      rw [List.cons_append, List.cons_append, List.cons_append, parseTokens_step hcomma,
        parseTokens_step hkey, parseTokens_step hcolon, List.append_assoc,
        h e List.mem_cons_self, ih (fun e' he' => h e' (List.mem_cons_of_mem _ he')),
        List.append_assoc]
      rfl

/-- No value starts with a closing bracket, so a first element is read like any other. -/
theorem parse_firstElem {n : Nat} {v : Json} (h : Shaped n v) (stack : List Open)
    (ts : List Token) :
    parseTokens (stack, .firstElem) (tokens v ++ ts)
      = parseTokens (.arr [] :: stack, .value) (tokens v ++ ts) := by
  have hstart : ∀ t, parseStep (stack, .firstElem) t = startValue (.arr [] :: stack) t →
      ∀ ts, parseTokens (stack, .firstElem) (t :: ts)
        = parseTokens (.arr [] :: stack, .value) (t :: ts) := by
    intro t ht ts
    rw [parseTokens_cons, parseTokens_cons, ht]
    rfl
  have hlit : ∀ w, ∀ ts, parseTokens (stack, .firstElem) (.lit w :: ts)
      = parseTokens (.arr [] :: stack, .value) (.lit w :: ts) := fun w =>
    hstart (.lit w) (by cases stack <;> rfl)
  cases h with
  | word hw => cases hw <;> exact hlit _ _
  | str s => exact hstart (.str s) (by cases stack <;> rfl) ts
  | @arr n vs _ =>
      have hbracket := hstart .lbracket (by cases stack <;> rfl)
      cases vs <;> exact hbracket _
  | @obj n es _ =>
      have hbrace := hstart .lbrace (by cases stack <;> rfl)
      cases es <;> exact hbrace _

/-- **THE PARSER READS THE TOKENS OF A VALUE**, wherever its nesting has room. -/
theorem parses_tokens {n : Nat} {v : Json} (h : Shaped n v) :
    ∀ stack : List Open, stack.length + n ≤ maxNestingDepth → Parses v stack := by
  induction h with
  | word h =>
      intro stack _ ts
      cases h <;> exact parseTokens_step (by cases stack <;> rfl) ts
  | str s =>
      intro stack _ ts
      exact parseTokens_step (by cases stack <;> rfl) ts
  | @arr n vs hvs ih =>
      intro stack hroom ts
      have hopen : parseStep (stack, .value) .lbracket = some (stack, .firstElem) := by
        have hstart : startValue stack .lbracket = some (stack, .firstElem) := if_pos (by omega)
        cases stack <;> exact hstart
      have hinner : ∀ v ∈ vs, ∀ elems, Parses v (.arr elems :: stack) := by
        intro v hv elems
        refine ih v hv _ ?_
        rw [List.length_cons]
        omega
      cases vs with
      | nil =>
          refine (parseTokens_step hopen _).trans ?_
          exact parseTokens_step (by cases stack <;> rfl) ts
      | cons v vs =>
          show parseTokens _ (.lbracket :: (tokens v ++ tokensElems vs ++ [.rbracket]) ++ ts) = _
          rw [List.cons_append, parseTokens_step hopen, List.append_assoc, List.append_assoc,
            parse_firstElem (hvs v List.mem_cons_self), hinner v List.mem_cons_self]
          exact parse_elems (fun v' hv' => hinner v' (List.mem_cons_of_mem _ hv')) [] v ts
  | @obj n es hes ih =>
      intro stack hroom ts
      have hopen : parseStep (stack, .value) .lbrace = some (stack, .firstKey) := by
        have hstart : startValue stack .lbrace = some (stack, .firstKey) := if_pos (by omega)
        cases stack <;> exact hstart
      have hinner : ∀ e ∈ es, ∀ entries k, Parses e.2 (.obj entries k :: stack) := by
        intro e he entries k
        refine ih e he _ ?_
        rw [List.length_cons]
        omega
      cases es with
      | nil =>
          refine (parseTokens_step hopen _).trans ?_
          exact parseTokens_step (by cases stack <;> rfl) ts
      | cons e es =>
          have hkey : parseStep (stack, .firstKey) (.str e.1) = some (stack, .colon [] e.1) := by
            cases stack <;> rfl
          have hcolon : parseStep (stack, .colon [] e.1) .colon
              = some (.obj [] e.1 :: stack, .value) := by
            cases stack <;> rfl
          show parseTokens _ (.lbrace :: .str e.1 :: .colon ::
            (tokens e.2 ++ tokensEntries es ++ [.rbrace]) ++ ts) = _
          rw [List.cons_append, List.cons_append, List.cons_append, parseTokens_step hopen,
            parseTokens_step hkey, parseTokens_step hcolon, List.append_assoc, List.append_assoc,
            hinner e List.mem_cons_self]
          exact parse_entries (fun e' he' => hinner e' (List.mem_cons_of_mem _ he')) [] e.1 e.2 ts

/-- The tokens of a shaped value are a text of it. -/
theorem parse_of_lex {n : Nat} {v : Json} (h : Shaped n v) (hn : n ≤ maxNestingDepth)
    {data : List UInt8} (hlex : lex .idle data = some (tokens v)) : parse data = some v := by
  have hparse := parses_tokens h [] (by simpa using hn) []
  rw [List.append_nil] at hparse
  rw [parse, hlex]
  exact hparse

/-- **ROUND TRIP**: what `JSON.stringify` writes, the scanner reads back. -/
theorem parse_encode {n : Nat} {v : Json} (h : Textual n v) (hn : n ≤ maxNestingDepth) :
    parse (encode v) = some v := by
  have hlex : lex .idle (encode v) = some (tokens v) := by
    have hfront := lexes_encode h []
    rw [List.append_nil] at hfront
    rw [hfront, lex, Option.map_some, List.append_nil]
  exact parse_of_lex h.shaped hn hlex

/-! ## How long the text is -/

/-- A character that stands for itself, in one byte. -/
def OneByte (c : Char) : Prop := 0x20 ≤ c.toNat ∧ c.toNat < 0x80 ∧ shortEscape c = none

instance (c : Char) : Decidable (OneByte c) := inferInstanceAs (Decidable (_ ∧ _))

theorem escape_oneByte {c : Char} (h : OneByte c) : (escape c).length = 1 := by
  obtain ⟨hlow, hhigh, hs⟩ := h
  have hplain : escape c = utf8 c := by
    rw [escape, hs]
    exact if_neg (Nat.not_lt.mpr hlow)
  have hutf8 : utf8 c = [UInt8.ofNat c.toNat] := if_pos hhigh
  rw [hplain, hutf8, List.length_singleton]

/-- A quoted text is two bytes longer than its body. -/
theorem quote_length (s : String) : (quote s).length = (body s).length + 2 := by
  rw [quote, List.cons_append, List.length_cons, List.length_append]
  rfl

/-- Such characters cost a byte each. -/
theorem body_length_oneByte {s : String} (h : ∀ c ∈ s.toList, OneByte c) :
    (body s).length = s.length := by
  have hlist : ∀ cs : List Char, (∀ c ∈ cs, OneByte c) →
      (cs.flatMap escape).length = cs.length := by
    intro cs
    induction cs with
    | nil => intro _; rfl
    | cons c cs ih =>
        intro hcs
        rw [List.flatMap_cons, List.length_append, escape_oneByte (hcs c List.mem_cons_self),
          ih fun c' hc' => hcs c' (List.mem_cons_of_mem _ hc'), List.length_cons]
        exact Nat.add_comm 1 _
  rw [body, hlist _ h, String.length_toList]

/-- A further element takes its comma and its text. -/
theorem encodeElems_length {vs : List Json} {k : Nat} (h : ∀ v ∈ vs, (encode v).length = k) :
    (encodeElems vs).length = vs.length * (k + 1) := by
  induction vs with
  | nil => rw [encodeElems, List.length_nil, List.length_nil, Nat.zero_mul]
  | cons v vs ih =>
      rw [encodeElems, List.cons_append, List.length_cons, List.length_append,
        h v List.mem_cons_self, ih fun v' hv' => h v' (List.mem_cons_of_mem _ hv'),
        List.length_cons, Nat.succ_mul]
      omega

/-- An array of `n + 1` texts of `k` bytes. -/
theorem encode_arr_length {v : Json} {vs : List Json} {k : Nat}
    (h : ∀ w ∈ v :: vs, (encode w).length = k) :
    (encode (.arr (v :: vs))).length = (v :: vs).length * (k + 1) + 1 := by
  rw [encode, List.length_cons, List.length_append, List.length_append,
    h v List.mem_cons_self, encodeElems_length fun w hw => h w (List.mem_cons_of_mem _ hw),
    List.length_cons, List.length_cons, List.length_nil, Nat.succ_mul]
  omega

end JsonEncode
