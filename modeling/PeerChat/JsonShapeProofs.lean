import PeerChat.JsonEncodeProofs

/-! # What the scanner accepts, and how it reads words

    The values the scanner accepts are shaped: their containers nest no deeper than
    it allows, their words are keywords or numbers by the grammar
    (`shaped_of_parse`).

    A word ends where the next byte is no letter of a word: `LexesBefore` is `Lexes`
    in front of such a byte, and every word lexes to its token there
    (`lexes_word`). -/

namespace JsonShape

open JsonScan JsonEncode

/-! ## The scanner accepts shaped values only -/

-- ── Tokens ────────────────────────────────────────────────────────────────────

/-- A word that is a token is a literal. -/
theorem word_of_classify {cs : List Char} {t : Token} (h : classify cs = some t) :
    ∃ v, t = .lit v ∧ Word v := by
  rw [classify] at h
  split at h
  · cases h
    exact ⟨_, rfl, .bool true⟩
  · split at h
    · cases h
      exact ⟨_, rfl, .bool false⟩
    · split at h
      · cases h
        exact ⟨_, rfl, .null⟩
      · split at h
        · rename_i hnum
          cases h
          exact ⟨_, rfl, .num (by rw [String.toList_ofList]; exact hnum)⟩
        · cases h

/-- A literal among the tokens is a word. -/
def TokenOk (t : Token) : Prop := ∀ v, t = .lit v → Word v

/-- Punctuation is a well-formed token. -/
theorem punctuation_ok {c : Char} {t : Token} (h : punctuation c = some t) : TokenOk t := by
  intro v hv
  rw [hv, punctuation.eq_def] at h
  split at h <;> cases h

/-- Between tokens the lexer gives out well-formed ones. -/
theorem lexIdle_ok {b : UInt8} {ts : List Token} {s : LexState} (h : lexIdle b = some (ts, s)) :
    ∀ t ∈ ts, TokenOk t := by
  simp only [lexIdle] at h
  split at h
  · cases h
    exact fun t ht => absurd ht List.not_mem_nil
  · split at h
    · rename_i hp
      cases h
      intro t ht
      rw [List.mem_singleton.mp ht]
      exact punctuation_ok hp
    · split at h
      · cases h
        exact fun t ht => absurd ht List.not_mem_nil
      · split at h
        · cases h
          exact fun t ht => absurd ht List.not_mem_nil
        · cases h

/-- At every byte the lexer gives out well-formed tokens. -/
theorem lexStep_ok {s s' : LexState} {b : UInt8} {ts : List Token}
    (h : lexStep s b = some (ts, s')) : ∀ t ∈ ts, TokenOk t := by
  have hnone : ∀ t ∈ ([] : List Token), TokenOk t := fun t ht => absurd ht List.not_mem_nil
  cases s with
  | idle => exact lexIdle_ok h
  | word acc =>
      simp only [lexStep] at h
      split at h
      · cases h
        exact hnone
      · obtain ⟨t₀, ht₀, hrest⟩ := Option.bind_eq_some_iff.mp h
        obtain ⟨⟨us, s₁⟩, hidle, heq⟩ := Option.map_eq_some_iff.mp hrest
        cases heq
        obtain ⟨v, rfl, hword⟩ := word_of_classify ht₀
        intro t ht
        rcases List.mem_cons.mp ht with rfl | ht
        · intro v' hv'
          cases hv'
          exact hword
        · exact lexIdle_ok hidle t ht
  | str acc =>
      simp only [lexStep] at h
      split at h
      · obtain ⟨str, -, heq⟩ := Option.map_eq_some_iff.mp h
        cases heq
        intro t ht v hv
        rw [List.mem_singleton.mp ht] at hv
        cases hv
      · split at h
        · cases h
          exact hnone
        · split at h
          · cases h
          · cases h
            exact hnone
  | escape acc =>
      simp only [lexStep] at h
      split at h
      · cases h
        exact hnone
      · cases h

/-- The tokens of a text are well formed. -/
theorem lex_ok {data : List UInt8} {s : LexState} {ts : List Token} (h : lex s data = some ts) :
    ∀ t ∈ ts, TokenOk t := by
  induction data generalizing s ts with
  | nil =>
      cases s with
      | idle =>
          cases h
          exact fun t ht => absurd ht List.not_mem_nil
      | word acc =>
          obtain ⟨t₀, ht₀, heq⟩ := Option.map_eq_some_iff.mp h
          cases heq
          obtain ⟨v, rfl, hword⟩ := word_of_classify ht₀
          intro t ht v' hv'
          rw [List.mem_singleton.mp ht] at hv'
          cases hv'
          exact hword
      | str acc => cases h
      | escape acc => cases h
  | cons b bs ih =>
      have hcons : lex s (b :: bs) = (lexStep s b).bind fun r => (lex r.2 bs).map (r.1 ++ ·) := by
        cases s <;> rfl
      rw [hcons] at h
      obtain ⟨⟨us, s'⟩, hstep, hrest⟩ := Option.bind_eq_some_iff.mp h
      obtain ⟨ts', hts', heq⟩ := Option.map_eq_some_iff.mp hrest
      cases heq
      intro t ht
      rcases List.mem_append.mp ht with hhead | htail
      · exact lexStep_ok hstep t hhead
      · exact ih hts' t htail

-- ── The parser's stack ────────────────────────────────────────────────────────

/-- Every open container has room for itself and keeps what it holds within the bound. -/
def Roomy : List Open → Prop
  | [] => True
  | .arr elems :: stack => stack.length < maxNestingDepth ∧
      (∀ v ∈ elems, Shaped (maxNestingDepth - stack.length - 1) v) ∧ Roomy stack
  | .obj entries _ :: stack => stack.length < maxNestingDepth ∧
      (∀ e ∈ entries, Shaped (maxNestingDepth - stack.length - 1) e.2) ∧ Roomy stack

/-- What is at hand fits above the open containers. -/
def Fits : List Open × Want → Prop
  | (stack, .value) => Roomy stack
  | (stack, .firstElem) => Roomy stack ∧ stack.length < maxNestingDepth
  | (stack, .firstKey) => Roomy stack ∧ stack.length < maxNestingDepth
  | (stack, .key entries) => Roomy (.obj entries "" :: stack)
  | (stack, .colon entries _) => Roomy (.obj entries "" :: stack)
  | (stack, .after v) => Roomy stack ∧ Shaped (maxNestingDepth - stack.length) v

/-- A value begins only where the nesting leaves room for it. -/
theorem fits_startValue {stack : List Open} {t : Token} {s : List Open × Want}
    (hroomy : Roomy stack) (ht : TokenOk t) (h : startValue stack t = some s) : Fits s := by
  cases t with
  | lit v =>
      cases h
      exact ⟨hroomy, .word (ht v rfl)⟩
  | str str =>
      cases h
      exact ⟨hroomy, .str str⟩
  | lbrace =>
      simp only [startValue] at h
      split at h
      · rename_i hlt
        cases h
        exact ⟨hroomy, hlt⟩
      · cases h
  | lbracket =>
      simp only [startValue] at h
      split at h
      · rename_i hlt
        cases h
        exact ⟨hroomy, hlt⟩
      · cases h
  | _ => cases h

/-- An open array takes an element that fits in it. -/
theorem roomy_arr {elems : List Json} {stack : List Open} {v : Json}
    (h : Roomy (.arr elems :: stack))
    (hv : Shaped (maxNestingDepth - (Open.arr elems :: stack).length) v) :
    Roomy (.arr (elems ++ [v]) :: stack) := by
  obtain ⟨hlt, helems, hstack⟩ := h
  refine ⟨hlt, fun w hw => ?_, hstack⟩
  rcases List.mem_append.mp hw with hold | hnew
  · exact helems w hold
  · rw [List.mem_singleton.mp hnew]
    exact hv.mono (by rw [List.length_cons]; omega)

/-- An open object takes an entry that fits in it. -/
theorem roomy_obj {entries : List (String × Json)} {key key' : String} {stack : List Open}
    {v : Json} (h : Roomy (.obj entries key :: stack))
    (hv : Shaped (maxNestingDepth - (Open.obj entries key :: stack).length) v) :
    Roomy (.obj (entries ++ [(key, v)]) key' :: stack) := by
  obtain ⟨hlt, hentries, hstack⟩ := h
  refine ⟨hlt, fun e he => ?_, hstack⟩
  rcases List.mem_append.mp he with hold | hnew
  · exact hentries e hold
  · rw [List.mem_singleton.mp hnew]
    exact hv.mono (by rw [List.length_cons]; omega)

/-- A container that is closed is a value. -/
theorem shaped_arr {elems : List Json} {stack : List Open} (h : Roomy (.arr elems :: stack)) :
    Shaped (maxNestingDepth - stack.length) (.arr elems) := by
  obtain ⟨hlt, helems, -⟩ := h
  have hsucc : maxNestingDepth - stack.length - 1 + 1 = maxNestingDepth - stack.length := by
    omega
  rw [← hsucc]
  exact .arr helems

/-- An object that is closed has the shape its place allows. -/
theorem shaped_obj {entries : List (String × Json)} {key : String} {stack : List Open}
    (h : Roomy (.obj entries key :: stack)) :
    Shaped (maxNestingDepth - stack.length) (.obj entries) := by
  obtain ⟨hlt, hentries, -⟩ := h
  have hsucc : maxNestingDepth - stack.length - 1 + 1 = maxNestingDepth - stack.length := by
    omega
  rw [← hsucc]
  exact .obj hentries

/-- **ONE TOKEN** keeps everything within the bound. -/
theorem fits_parseStep {s s' : List Open × Want} {t : Token} (hs : Fits s) (ht : TokenOk t)
    (h : parseStep s t = some s') : Fits s' := by
  obtain ⟨stack, want⟩ := s
  cases want with
  | value =>
      have hstart : startValue stack t = some s' := by cases stack <;> exact h
      exact fits_startValue hs ht hstart
  | firstElem =>
      have hempty : Roomy (.arr [] :: stack) :=
        ⟨hs.2, fun v hv => absurd hv List.not_mem_nil, hs.1⟩
      cases t with
      | rbracket =>
          have heq : s' = (stack, .after (.arr [])) := by cases stack <;> cases h <;> rfl
          rw [heq]
          exact ⟨hs.1, shaped_arr hempty⟩
      | rbrace => cases stack <;> cases h
      | colon => cases stack <;> cases h
      | comma => cases stack <;> cases h
      | lbrace => exact fits_startValue hempty ht (by cases stack <;> exact h)
      | lbracket => exact fits_startValue hempty ht (by cases stack <;> exact h)
      | str k => exact fits_startValue hempty ht (by cases stack <;> exact h)
      | lit v => exact fits_startValue hempty ht (by cases stack <;> exact h)
  | firstKey =>
      have hempty : ∀ key, Roomy (.obj [] key :: stack) := fun key =>
        ⟨hs.2, fun e he => absurd he List.not_mem_nil, hs.1⟩
      cases t with
      | rbrace =>
          have heq : s' = (stack, .after (.obj [])) := by cases stack <;> cases h <;> rfl
          rw [heq]
          exact ⟨hs.1, shaped_obj (hempty "")⟩
      | str k =>
          have heq : s' = (stack, .colon [] k) := by cases stack <;> cases h <;> rfl
          rw [heq]
          exact hempty ""
      | _ => cases stack <;> cases h
  | key entries =>
      cases t with
      | str k =>
          have heq : s' = (stack, .colon entries k) := by cases stack <;> cases h <;> rfl
          rw [heq]
          exact hs
      | _ => cases stack <;> cases h
  | colon entries k =>
      cases t with
      | colon =>
          have heq : s' = (.obj entries k :: stack, .value) := by cases stack <;> cases h <;> rfl
          rw [heq]
          exact hs
      | _ => cases stack <;> cases h
  | after v =>
      obtain ⟨hroomy, hv⟩ := hs
      cases stack with
      | nil => cases t <;> cases h
      | cons top stack =>
          cases top with
          | arr elems =>
              have hmore := roomy_arr hroomy hv
              cases t with
              | comma =>
                  cases h
                  exact hmore
              | rbracket =>
                  cases h
                  exact ⟨hmore.2.2, shaped_arr hmore⟩
              | _ => cases h
          | obj entries key =>
              have hmore : Roomy (.obj (entries ++ [(key, v)]) "" :: stack) :=
                roomy_obj hroomy hv
              cases t with
              | comma =>
                  cases h
                  exact hmore
              | rbrace =>
                  cases h
                  exact ⟨hmore.2.2, shaped_obj hmore⟩
              | _ => cases h

/-- **WHAT IS PARSED IS SHAPED**, from any state of the parser that fits. -/
theorem shaped_of_parseTokens {ts : List Token} {s : List Open × Want} {v : Json} (hs : Fits s)
    (hts : ∀ t ∈ ts, TokenOk t) (h : parseTokens s ts = some v) : Shaped maxNestingDepth v := by
  induction ts generalizing s with
  | nil =>
      obtain ⟨stack, want⟩ := s
      cases stack with
      | nil =>
          cases want with
          | after w =>
              cases h
              exact hs.2
          | _ => cases h
      | cons top stack => cases want <;> cases h
  | cons t ts ih =>
      rw [parseTokens_cons] at h
      obtain ⟨s', hstep, hrest⟩ := Option.bind_eq_some_iff.mp h
      exact ih (fits_parseStep hs (hts t List.mem_cons_self) hstep)
        (fun u hu => hts u (List.mem_cons_of_mem _ hu)) hrest

/-- **WHAT THE SCANNER ACCEPTS IS SHAPED.** -/
theorem shaped_of_parse {data : List UInt8} {v : Json} (h : parse data = some v) :
    Shaped maxNestingDepth v := by
  obtain ⟨ts, hlex, htokens⟩ := Option.bind_eq_some_iff.mp h
  exact shaped_of_parseTokens (s := ([], .value)) trivial (lex_ok hlex) htokens

/-! ## Words -/

-- ── Numbers are made of the letters of words ──────────────────────────────────

/-- `rest` is what is left of `cs` behind some letters of a word. -/
def Skips (cs rest : List Char) : Prop :=
  ∃ before, cs = before ++ rest ∧ ∀ c ∈ before, isWordChar c = true

/-- Skipping nothing skips word characters. -/
theorem Skips.refl (cs : List Char) : Skips cs cs :=
  ⟨[], rfl, fun _ hc => absurd hc List.not_mem_nil⟩

/-- One word character more is skipped. -/
theorem Skips.cons {c : Char} {cs rest : List Char} (hc : isWordChar c = true)
    (h : Skips cs rest) : Skips (c :: cs) rest := by
  obtain ⟨before, rfl, hbefore⟩ := h
  refine ⟨c :: before, rfl, fun d hd => ?_⟩
  rcases List.mem_cons.mp hd with rfl | hd
  · exact hc
  · exact hbefore d hd

/-- What is skipped in two parts is skipped. -/
theorem Skips.trans {cs ds rest : List Char} (h : Skips cs ds) (h' : Skips ds rest) :
    Skips cs rest := by
  obtain ⟨before, rfl, hbefore⟩ := h
  obtain ⟨before', rfl, hbefore'⟩ := h'
  refine ⟨before ++ before', (List.append_assoc _ _ _).symm, fun c hc => ?_⟩
  exact (List.mem_append.mp hc).elim (hbefore c) (hbefore' c)

theorem isWordChar_digit {c : Char} (h : c.isDigit = true) : isWordChar c = true := by
  simp [isWordChar, Char.isAlphanum, h]

/-- Digits are word characters. -/
theorem skips_digits (cs : List Char) : Skips cs (skipDigits cs) := by
  refine ⟨cs.takeWhile Char.isDigit, (List.takeWhile_append_dropWhile).symm, fun c hc => ?_⟩
  exact isWordChar_digit (List.mem_takeWhile_imp hc)

/-- The integer part of a number is of word characters. -/
theorem skips_int {cs rest : List Char} (h : skipInt cs = some rest) : Skips cs rest := by
  rw [skipInt.eq_def] at h
  split at h
  · cases h
    exact (Skips.refl _).cons (by decide)
  · split at h
    · rename_i hd
      cases h
      exact (skips_digits _).cons (isWordChar_digit hd)
    · cases h
  · cases h

/-- Its fraction is of word characters. -/
theorem skips_fraction {cs rest : List Char} (h : skipFraction cs = some rest) :
    Skips cs rest := by
  rw [skipFraction.eq_def] at h
  split at h
  · split at h
    · rename_i hd
      cases h
      exact ((skips_digits _).cons (isWordChar_digit hd)).cons (by decide)
    · cases h
  · cases h
  · cases h
    exact Skips.refl _

/-- The sign of an exponent is a word character. -/
theorem skips_sign (cs : List Char) : Skips cs (skipSign cs) := by
  rw [skipSign.eq_def]
  split
  · exact (Skips.refl _).cons (by decide)
  · exact (Skips.refl _).cons (by decide)
  · exact Skips.refl _

/-- The exponent is of word characters. -/
theorem skips_exponent {cs rest : List Char} (h : skipExponent cs = some rest) :
    Skips cs rest := by
  rw [skipExponent.eq_def] at h
  split at h
  · cases h
    exact Skips.refl _
  · rename_i e cs
    split at h
    · rename_i he
      have hletter : isWordChar e = true := by
        rcases he with rfl | rfl <;> decide
      split at h
      · rename_i cs' hsign
        split at h
        · rename_i hd
          cases h
          have hsigned := skips_sign cs
          rw [hsign] at hsigned
          exact (hsigned.trans ((skips_digits _).cons (isWordChar_digit hd))).cons hletter
        · cases h
      · cases h
    · cases h
      exact Skips.refl _

/-- A number is one word to the lexer. -/
theorem wordChars_of_isNumber {cs : List Char} (h : isNumber cs = true) :
    ∀ c ∈ cs, isWordChar c = true := by
  have hunsigned : ∀ ds : List Char,
      ((skipInt ds).bind skipFraction |>.bind skipExponent |>.any List.isEmpty) = true →
        Skips ds [] := by
    intro ds hds
    obtain ⟨rest, hrest, hempty⟩ := (Option.any_eq_true _ _).mp hds
    obtain ⟨rest₁, h₁, h₂⟩ := Option.bind_eq_some_iff.mp hrest
    obtain ⟨rest₀, h₀, h₁⟩ := Option.bind_eq_some_iff.mp h₁
    rw [List.isEmpty_iff.mp hempty] at h₂
    exact ((skips_int h₀).trans (skips_fraction h₁)).trans (skips_exponent h₂)
  have hskips : Skips cs [] := by
    simp only [isNumber] at h
    split at h
    · exact (hunsigned _ h).cons (by decide)
    · exact hunsigned _ h
  obtain ⟨before, rfl, hbefore⟩ := hskips
  rw [List.append_nil]
  exact hbefore

-- ── A word ends at its delimiter ──────────────────────────────────────────────

/-- The text does not go on with a word. -/
def Delimited (rest : List UInt8) : Prop :=
  ∀ b ∈ rest.head?, isWordChar (Char.ofNat b.toNat) = false

/-- `bs` lexes to `ts` in front of such a text. -/
def LexesBefore (bs : List UInt8) (ts : List Token) : Prop :=
  ∀ rest, Delimited rest → lex .idle (bs ++ rest) = (lex .idle rest).map (ts ++ ·)

theorem LexesBefore.of_lexes {bs : List UInt8} {ts : List Token} (h : Lexes bs ts) :
    LexesBefore bs ts :=
  fun rest _ => h rest

/-- A text that follows ends it, unless it goes on with a word. -/
theorem LexesBefore.append {bs bs' : List UInt8} {ts ts' : List Token} (h : LexesBefore bs ts)
    (hne : bs' ≠ []) (hd : Delimited bs') (h' : Lexes bs' ts') :
    Lexes (bs ++ bs') (ts ++ ts') := by
  intro rest
  have hdelimited : Delimited (bs' ++ rest) := by
    intro b hb
    rw [List.head?_append_of_ne_nil _ hne] at hb
    exact hd b hb
  rw [List.append_assoc, h _ hdelimited, h', Option.map_map]
  congr 1
  funext l
  exact (List.append_assoc ts ts' l).symm

/-- At the end of the text. -/
theorem LexesBefore.all {bs : List UInt8} {ts : List Token} (h : LexesBefore bs ts) :
    lex .idle bs = some ts := by
  have hend := h [] fun b hb => by cases hb
  rw [List.append_nil] at hend
  rw [hend, lex, Option.map_some, List.append_nil]

/-- The letters of words are ASCII. -/
theorem wordChar_lt {c : Char} (h : isWordChar c = true) : c.toNat < 128 := by
  simp only [isWordChar, Char.isAlphanum, Char.isAlpha, Char.isUpper, Char.isLower, Char.isDigit,
    Bool.or_eq_true, Bool.and_eq_true, decide_eq_true_eq, ge_iff_le, UInt32.le_iff_toNat_le] at h
  show c.val.toNat < 128
  rcases h with (((((h | h) | h) | rfl) | rfl) | rfl)
  · exact Nat.lt_of_le_of_lt h.2 (by decide)
  · exact Nat.lt_of_le_of_lt h.2 (by decide)
  · exact Nat.lt_of_le_of_lt h.2 (by decide)
  · decide
  · decide
  · decide

/-- A word character is one byte. -/
theorem ascii_wordChar {c : Char} (h : isWordChar c = true) :
    Char.ofNat c.toNat.toUInt8.toNat = c := by
  have hlt := wordChar_lt h
  rw [show c.toNat.toUInt8.toNat = c.toNat from ofNat_toNat (by omega), Char.ofNat_toNat]

/-- A word character between tokens starts a word. -/
theorem lexIdle_wordChar {c : Char} (h : isWordChar c = true) :
    lexIdle c.toNat.toUInt8 = some ([], .word [c]) := by
  have hspace : isSpace c = false := by
    by_contra hs
    simp only [isSpace, Bool.not_eq_false, Bool.or_eq_true, decide_eq_true_eq] at hs
    rcases hs with ((rfl | rfl) | rfl) | rfl <;> revert h <;> decide
  have hmark : punctuation c = none := by
    rw [punctuation.eq_def]
    split <;> first | rfl | (revert h; decide)
  have hquote : c ≠ '"' := by
    rintro rfl
    revert h
    decide
  simp only [lexIdle, ascii_wordChar h, hspace, hmark, if_neg hquote, h, if_true,
    Bool.false_eq_true, if_false]

/-- The word characters after it go on with the word. -/
theorem lex_letters {cs : List Char} (h : ∀ c ∈ cs, isWordChar c = true) (acc : List Char)
    (rest : List UInt8) :
    lex (.word acc) (cs.map (fun c => c.toNat.toUInt8) ++ rest)
      = lex (.word (cs.reverse ++ acc)) rest := by
  induction cs generalizing acc with
  | nil => rfl
  | cons c cs ih =>
      have hc := h c List.mem_cons_self
      have hstep : lexStep (.word acc) c.toNat.toUInt8 = some ([], .word (c :: acc)) := by
        simp only [lexStep, ascii_wordChar hc]
        exact if_pos hc
      rw [List.map_cons, List.cons_append, lex_silent hstep,
        ih fun d hd => h d (List.mem_cons_of_mem _ hd), List.reverse_cons, List.append_assoc]
      rfl

/-- **A WORD IS ONE TOKEN**, in front of a delimiter. -/
theorem lexes_word {cs : List Char} {t : Token} (hne : cs ≠ [])
    (h : ∀ c ∈ cs, isWordChar c = true) (ht : classify cs = some t) :
    LexesBefore (cs.map fun c => c.toNat.toUInt8) [t] := by
  intro rest hrest
  cases cs with
  | nil => exact absurd rfl hne
  | cons c cs =>
      have hopen : lexStep .idle c.toNat.toUInt8 = some ([], .word [c]) :=
        lexIdle_wordChar (h c List.mem_cons_self)
      rw [List.map_cons, List.cons_append, lex_silent hopen,
        lex_letters fun d hd => h d (List.mem_cons_of_mem _ hd)]
      have hword : (cs.reverse ++ [c]).reverse = c :: cs := by
        rw [List.reverse_append, List.reverse_reverse]
        rfl
      cases rest with
      | nil =>
          show (classify (cs.reverse ++ [c]).reverse).map (fun t => [t]) = some [t]
          rw [hword, ht]
          rfl
      | cons b rest =>
          have hb := hrest b rfl
          have hstep : lexStep (.word (cs.reverse ++ [c])) b
              = (lexIdle b).map fun r => (t :: r.1, r.2) := by
            simp only [lexStep, hword, ht, Option.bind_some]
            exact if_neg (by rw [hb]; exact Bool.false_ne_true)
          have hidle : lexStep .idle b = lexIdle b := rfl
          show (lexStep (.word (cs.reverse ++ [c])) b).bind _ = ((lexStep .idle b).bind _).map _
          rw [hstep, hidle]
          cases lexIdle b with
          | none => rfl
          | some r =>
              simp only [Option.map_some, Option.bind_some, Option.map_map]
              rfl

/-- **THE WORDS OF A VALUE**: keywords and numbers. -/
theorem lexes_keyword {v : Json} (h : Word v) : LexesBefore (encode v) (tokens v) := by
  cases h with
  | null =>
      have hletters : "null".toList = ['n', 'u', 'l', 'l'] := by decide +kernel
      rw [encode, tokens, ascii, hletters]
      exact lexes_word (by simp) (List.all_eq_true.mp (by decide)) (by simp [classify])
  | bool b =>
      cases b with
      | true =>
          have hletters : "true".toList = ['t', 'r', 'u', 'e'] := by decide +kernel
          rw [encode, tokens, ascii, if_pos rfl, hletters]
          exact lexes_word (by simp) (List.all_eq_true.mp (by decide)) (by simp [classify])
      | false =>
          have hletters : "false".toList = ['f', 'a', 'l', 's', 'e'] := by decide +kernel
          rw [encode, tokens, ascii, if_neg Bool.false_ne_true, hletters]
          exact lexes_word (by simp) (List.all_eq_true.mp (by decide)) (by simp [classify])
  | @num lit h =>
      refine lexes_word ?_ (wordChars_of_isNumber h) ?_
      · intro hnil
        rw [hnil] at h
        revert h
        decide
      · have hne : ∀ cs, isNumber cs = false → lit.toList ≠ cs := by
          rintro cs hcs rfl
          rw [h] at hcs
          cases hcs
        rw [classify, if_neg (hne _ (by decide)), if_neg (hne _ (by decide)),
          if_neg (hne _ (by decide)), if_pos h, String.ofList_toList]

end JsonShape
