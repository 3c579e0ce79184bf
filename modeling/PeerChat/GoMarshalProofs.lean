import PeerChat.JsonDecodeProofs
import PeerChat.JsonShapeProofs

/-! # JSON text, as Go's `json.Marshal` writes it — and reads back

    Beside what JSON asks for, `Marshal` escapes the characters that mean something
    to HTML, and the two line separators of JavaScript.  A map has no order: its
    keys are sorted, so the text depends on the entries only
    (`marshal_perm`).

    What it writes for a shaped value is read back as that value, its maps in order
    (`parse_marshal`); and a map whose keys are distinct answers every lookup as
    before (`lookup_canon`). -/

namespace GoMarshal

open JsonScan JsonEncode JsonShape JsonDecode

/-! ## The encoder -/

/-- The characters `Marshal` escapes and JSON need not. -/
def hexEscaped (c : Char) : Bool :=
  c = '<' || c = '>' || c = '&' || c.toNat = 0x2028 || c.toNat = 0x2029

/-- `\u` and four digits. -/
def unicodeEscape (n : Nat) : List UInt8 :=
  [0x5C, 0x75, hexByte (n / 4096), hexByte (n / 256 % 16), hexByte (n / 16 % 16),
    hexByte (n % 16)]

/-- One character of a string. -/
def escape (c : Char) : List UInt8 :=
  if hexEscaped c then unicodeEscape c.toNat else JsonEncode.escape c

/-- A string. -/
def quote (s : String) : List UInt8 := 0x22 :: s.toList.flatMap escape ++ [0x22]

mutual
/-- The text of a value, the entries of its objects in the order they are in. -/
def write : Json → List UInt8
  | .null => ascii "null"
  | .bool b => ascii (if b then "true" else "false")
  | .num lit => ascii lit
  | .str s => quote s
  | .arr [] => [0x5B, 0x5D]
  | .arr (v :: vs) => 0x5B :: (write v ++ writeElems vs)
  | .obj [] => [0x7B, 0x7D]
  | .obj ((k, v) :: es) => 0x7B :: (quote k ++ 0x3A :: (write v ++ writeEntries es))
/-- The further elements of an array, and its end. -/
def writeElems : List Json → List UInt8
  | [] => [0x5D]
  | v :: vs => 0x2C :: (write v ++ writeElems vs)
/-- The further entries of an object, and its end. -/
def writeEntries : List (String × Json) → List UInt8
  | [] => [0x7D]
  | (k, v) :: es => 0x2C :: (quote k ++ 0x3A :: (write v ++ writeEntries es))
end

/-- The order of the keys of a map. -/
def keyLe (e e' : String × Json) : Bool := !decide (e'.1 < e.1)

mutual
/-- The maps of a value in the order of their keys. -/
def canon : Json → Json
  | .null => .null
  | .bool b => .bool b
  | .num lit => .num lit
  | .str s => .str s
  | .arr vs => .arr (canonElems vs)
  | .obj es => .obj ((canonEntries es).mergeSort keyLe)
def canonElems : List Json → List Json
  | [] => []
  | v :: vs => canon v :: canonElems vs
def canonEntries : List (String × Json) → List (String × Json)
  | [] => []
  | (k, v) :: es => (k, canon v) :: canonEntries es
end

/-- `json.Marshal`. -/
def marshal (v : Json) : List UInt8 := write (canon v)

/-! ## Strings -/

/-- What the scanner sees of a character between its escapes. -/
def units (c : Char) : List CodeUnit :=
  if hexEscaped c then [.utf16 c.toNat] else JsonEncode.units c

/-- Below the surrogates, in four digits. -/
theorem hexEscaped_lt {c : Char} (h : hexEscaped c = true) : c.toNat < 0xD800 := by
  simp only [hexEscaped, Bool.or_eq_true, decide_eq_true_eq] at h
  rcases h with (((rfl | rfl) | rfl) | h) | h
  · decide
  · decide
  · decide
  · omega
  · omega

/-- A `\u` escape is read as its code unit. -/
theorem unescape_unicode {n : Nat} (h : n < 0x10000) (rest : List UInt8) :
    unescape (unicodeEscape n ++ rest) = (unescape rest).map (.utf16 n :: ·) := by
  have hstep := unescape_hex (hexDigit_hexByte (by omega : n / 4096 < 16))
    (hexDigit_hexByte (by omega : n / 256 % 16 < 16))
    (hexDigit_hexByte (by omega : n / 16 % 16 < 16))
    (hexDigit_hexByte (by omega : n % 16 < 16)) rest
  have hsum : ((n / 4096 * 16 + n / 256 % 16) * 16 + n / 16 % 16) * 16 + n % 16 = n := by omega
  rwa [hsum] at hstep

/-- A character that `encoding/json` has written is read as its units. -/
theorem unescape_escape (c : Char) (rest : List UInt8) :
    unescape (escape c ++ rest) = (unescape rest).map (units c ++ ·) := by
  rw [escape, units]
  cases hc : hexEscaped c with
  | true =>
      have hlt := hexEscaped_lt hc
      exact unescape_unicode (by omega) rest
  | false => exact JsonEncode.unescape_escape c rest

/-- So is the body of a string. -/
theorem unescape_body (cs : List Char) :
    unescape (cs.flatMap escape) = some (cs.flatMap units) := by
  induction cs with
  | nil => rfl
  | cons c cs ih =>
      rw [List.flatMap_cons, unescape_escape, ih, List.flatMap_cons]
      rfl

/-- The units of a character are read as the character. -/
theorem runes_units (c : Char) (us : List CodeUnit) :
    runes (.bytes []) (units c ++ us) = c :: runes (.bytes []) us := by
  rw [units]
  cases hc : hexEscaped c with
  | true =>
      have hlt := hexEscaped_lt hc
      have hopen : decodeUnit (.bytes []) (.utf16 c.toNat) = ([c], .bytes []) := by
        rw [decodeUnit_open, openUnit, if_neg (by omega), if_neg (by omega), Char.ofNat_toNat]
      exact runes_step hopen us
  | false => exact JsonEncode.runes_units c us

/-- So are those of a text. -/
theorem runes_flatMap_units (cs : List Char) : runes (.bytes []) (cs.flatMap units) = cs := by
  induction cs with
  | nil => rfl
  | cons c cs ih => rw [List.flatMap_cons, runes_units, ih]

/-- What is written between the quotes reads back. -/
theorem unquote_escape (s : String) : unquote (s.toList.flatMap escape) = some s := by
  rw [unquote, unescape_body, Option.map_some, runes_flatMap_units, String.ofList_toList]

/-- What is written for a character stays within the literal. -/
theorem collected_escape (c : Char) : Collected (escape c) := by
  rw [escape]
  cases hc : hexEscaped c with
  | true =>
      have hlt := hexEscaped_lt hc
      have hdigits : Collected [hexByte (c.toNat / 4096), hexByte (c.toNat / 256 % 16),
          hexByte (c.toNat / 16 % 16), hexByte (c.toNat % 16)] := by
        refine Collected.plain fun b hb => ?_
        simp only [List.mem_cons, List.not_mem_nil, or_false] at hb
        rcases hb with rfl | rfl | rfl | rfl <;> exact plain_hexByte (by omega)
      exact (Collected.escaped (Or.inl rfl)).append hdigits
  | false => exact JsonEncode.collected_escape c

/-- So does what is written for a text. -/
theorem collected_flatMap (cs : List Char) : Collected (cs.flatMap escape) := by
  induction cs with
  | nil => intro acc rest; rfl
  | cons c cs ih =>
      rw [List.flatMap_cons]
      exact (collected_escape c).append ih

/-- A quoted string is one token. -/
theorem lexes_quote (s : String) : Lexes (quote s) [.str s] :=
  lexes_quoted (collected_flatMap s.toList) (unquote_escape s)

/-! ## What is written lexes to the tokens of the value -/

/-- The tokens of an array's elements, with their commas. -/
theorem lexes_elems {vs : List Json} (h : ∀ v ∈ vs, LexesBefore (write v) (tokens v)) :
    writeElems vs ≠ [] ∧ Delimited (writeElems vs) ∧
      Lexes (writeElems vs) (tokensElems vs ++ [.rbracket]) := by
  induction vs with
  | nil =>
      refine ⟨List.cons_ne_nil _ _, fun b hb => ?_, Lexes.mark rfl⟩
      cases hb
      decide
  | cons v vs ih =>
      obtain ⟨hne, hd, hrest⟩ := ih fun w hw => h w (List.mem_cons_of_mem _ hw)
      have hcomma : Lexes [0x2C] [.comma] := Lexes.mark rfl
      have hvalue := (h v List.mem_cons_self).append hne hd hrest
      refine ⟨List.cons_ne_nil _ _, fun b hb => ?_, ?_⟩
      · cases hb
        decide
      · have hall := hcomma.append hvalue
        have htokens : tokensElems (v :: vs) ++ [.rbracket]
            = [.comma] ++ (tokens v ++ (tokensElems vs ++ [.rbracket])) := by
          show (.comma :: tokens v ++ tokensElems vs) ++ _ = _
          simp only [List.cons_append, List.nil_append, List.append_assoc]
        rw [htokens]
        exact hall

/-- The tokens of an object's entries, with their colons and commas. -/
theorem lexes_entries {es : List (String × Json)}
    (h : ∀ e ∈ es, LexesBefore (write e.2) (tokens e.2)) :
    writeEntries es ≠ [] ∧ Delimited (writeEntries es) ∧
      Lexes (writeEntries es) (tokensEntries es ++ [.rbrace]) := by
  induction es with
  | nil =>
      refine ⟨List.cons_ne_nil _ _, fun b hb => ?_, Lexes.mark rfl⟩
      cases hb
      decide
  | cons e es ih =>
      obtain ⟨hne, hd, hrest⟩ := ih fun w hw => h w (List.mem_cons_of_mem _ hw)
      have hcomma : Lexes [0x2C] [.comma] := Lexes.mark rfl
      have hcolon : Lexes [0x3A] [.colon] := Lexes.mark rfl
      have hvalue := hcolon.append ((h e List.mem_cons_self).append hne hd hrest)
      refine ⟨List.cons_ne_nil _ _, fun b hb => ?_, ?_⟩
      · cases hb
        decide
      · have hall := hcomma.append ((lexes_quote e.1).append hvalue)
        have hbytes : writeEntries (e :: es) = [0x2C] ++ (quote e.1 ++ ([0x3A] ++
            (write e.2 ++ writeEntries es))) := rfl
        have htokens : tokensEntries (e :: es) ++ [.rbrace] = [.comma] ++ ([.str e.1] ++
            ([.colon] ++ (tokens e.2 ++ (tokensEntries es ++ [.rbrace])))) := by
          show (.comma :: .str e.1 :: .colon :: (tokens e.2 ++ tokensEntries es)) ++ _ = _
          simp only [List.cons_append, List.nil_append, List.append_assoc]
        rw [hbytes, htokens]
        exact hall

/-- **WHAT IS WRITTEN** lexes to the tokens of the value, in front of a delimiter. -/
theorem lexes_write {n : Nat} {v : Json} (h : Shaped n v) : LexesBefore (write v) (tokens v) := by
  induction h with
  | word h =>
      have hword := lexes_keyword h
      cases h with
      | null => exact hword
      | bool b => exact hword
      | num h => exact hword
  | str s => exact .of_lexes (lexes_quote s)
  | @arr n vs _ ih =>
      have hopen : Lexes [0x5B] [.lbracket] := Lexes.mark rfl
      cases vs with
      | nil =>
          have hclose : Lexes [0x5D] [.rbracket] := Lexes.mark rfl
          exact .of_lexes (hopen.append hclose)
      | cons v vs =>
          obtain ⟨hne, hd, helems⟩ := lexes_elems fun w hw => ih w (List.mem_cons_of_mem _ hw)
          have hall := hopen.append ((ih v List.mem_cons_self).append hne hd helems)
          rw [← List.append_assoc (tokens v)] at hall
          exact .of_lexes hall
  | @obj n es _ ih =>
      have hopen : Lexes [0x7B] [.lbrace] := Lexes.mark rfl
      cases es with
      | nil =>
          have hclose : Lexes [0x7D] [.rbrace] := Lexes.mark rfl
          exact .of_lexes (hopen.append hclose)
      | cons e es =>
          obtain ⟨hne, hd, hentries⟩ := lexes_entries fun w hw => ih w (List.mem_cons_of_mem _ hw)
          have hcolon : Lexes [0x3A] [.colon] := Lexes.mark rfl
          have hall := hopen.append ((lexes_quote e.1).append
            (hcolon.append ((ih e List.mem_cons_self).append hne hd hentries)))
          rw [← List.append_assoc (tokens e.2)] at hall
          exact .of_lexes hall

/-! ## Maps in the order of their keys -/

theorem canonElems_eq (vs : List Json) : canonElems vs = vs.map canon := by
  induction vs with
  | nil => rfl
  | cons v vs ih => rw [canonElems, ih, List.map_cons]

theorem canonEntries_eq (es : List (String × Json)) :
    canonEntries es = es.map fun e => (e.1, canon e.2) := by
  induction es with
  | nil => rfl
  | cons e es ih => rw [canonEntries, ih, List.map_cons]

/-- Sorting the keys keeps the shape. -/
theorem shaped_canon {n : Nat} {v : Json} (h : Shaped n v) : Shaped n (canon v) := by
  induction h with
  | word h => cases h <;> exact .word (by constructor <;> assumption)
  | str s => exact .str s
  | @arr n vs _ ih =>
      rw [canon, canonElems_eq]
      refine .arr fun w hw => ?_
      obtain ⟨v, hv, rfl⟩ := List.mem_map.mp hw
      exact ih v hv
  | @obj n es _ ih =>
      rw [canon, canonEntries_eq]
      refine .obj fun w hw => ?_
      obtain ⟨e, he, rfl⟩ := List.mem_map.mp (List.mem_mergeSort.mp hw)
      exact ih e he

/-- **WHAT IS WRITTEN IS READ BACK**. -/
theorem parse_write {n : Nat} {v : Json} (h : Shaped n v) (hn : n ≤ maxNestingDepth) :
    parse (write v) = some v :=
  parse_of_lex h hn (lexes_write h).all

/-- **ROUND TRIP**: what `json.Marshal` writes, the scanner reads back. -/
theorem parse_marshal {n : Nat} {v : Json} (h : Shaped n v) (hn : n ≤ maxNestingDepth) :
    parse (marshal v) = some (canon v) :=
  parse_write (shaped_canon h) hn

/-! ## What a map answers -/

/-- The entries of a map, in the order of their keys. -/
def canonMap (es : JsonMap) : JsonMap := (canonEntries es).mergeSort keyLe

/-- The keys are distinct. -/
def Keyed (es : JsonMap) : Prop := (es.map Prod.fst).Nodup

/-- In a map without double keys a key reads its one entry. -/
theorem lookup_eq_some {es : JsonMap} (h : Keyed es) {k : String} {v : Json} :
    lookup es k = some v ↔ (k, v) ∈ es := by
  constructor
  · intro hl
    obtain ⟨e, he, rfl⟩ := Option.map_eq_some_iff.mp hl
    have hkey := List.find?_some he
    rw [← of_decide_eq_true hkey]
    exact List.mem_of_find?_eq_some he
  · intro hmem
    have hsome : (es.find? fun e => e.1 = k).isSome = true :=
      List.find?_isSome.mpr ⟨_, hmem, decide_eq_true rfl⟩
    obtain ⟨e, he⟩ := Option.isSome_iff_exists.mp hsome
    have hkey := List.find?_some he
    have hsame : e = (k, v) := List.inj_on_of_nodup_map h (List.mem_of_find?_eq_some he) hmem
      (of_decide_eq_true hkey)
    rw [lookup, he, hsame]
    rfl

/-- The order of the entries is nothing to a lookup. -/
theorem lookup_perm {es es' : JsonMap} (hp : es.Perm es') (h : Keyed es) (k : String) :
    lookup es k = lookup es' k := by
  have h' : Keyed es' := (hp.map Prod.fst).nodup_iff.mp h
  ext v
  rw [lookup_eq_some h, lookup_eq_some h']
  exact hp.mem_iff

/-- A key reads the sorted form of what it read. -/
theorem lookup_canonEntries (es : JsonMap) (k : String) :
    lookup (canonEntries es) k = (lookup es k).map canon := by
  induction es with
  | nil => rfl
  | cons e es ih =>
      rw [lookup, canonEntries, List.find?_cons, lookup, List.find?_cons]
      cases decide (e.1 = k) with
      | true => rfl
      | false => exact ih

/-- Sorting doubles no key. -/
theorem keyed_canonEntries {es : JsonMap} (h : Keyed es) : Keyed (canonEntries es) := by
  have hkeys : (canonEntries es).map Prod.fst = es.map Prod.fst := by
    rw [canonEntries_eq, List.map_map]
    rfl
  rw [Keyed, hkeys]
  exact h

/-- Nor does sorting a whole map. -/
theorem keyed_canonMap {es : JsonMap} (h : Keyed es) : Keyed (canonMap es) :=
  ((List.mergeSort_perm (canonEntries es) keyLe).map Prod.fst).nodup_iff.mpr
    (keyed_canonEntries h)

/-- **A MAP ANSWERS AS BEFORE**, with its values in canonical form. -/
theorem lookup_canon {es : JsonMap} (h : Keyed es) (k : String) :
    lookup (canonMap es) k = (lookup es k).map canon := by
  rw [← lookup_canonEntries]
  exact (lookup_perm (List.mergeSort_perm _ keyLe).symm (keyed_canonEntries h) k).symm

/-- **THE TEXT DEPENDS ON THE ENTRIES**, not on the order a map lists them in. -/
theorem marshal_perm {es es' : JsonMap} (hp : es.Perm es') (h : Keyed es) :
    marshal (.obj es) = marshal (.obj es') := by
  have hentries : (canonEntries es).Perm (canonEntries es') := by
    rw [canonEntries_eq, canonEntries_eq]
    exact hp.map _
  have hsorted : ∀ l : JsonMap, (l.mergeSort keyLe).Pairwise fun a b => keyLe a b = true := by
    refine List.pairwise_mergeSort (fun a b c hab hbc => ?_) fun a b => ?_
    · simp only [keyLe, Bool.not_eq_true', decide_eq_false_iff_not, not_lt] at hab hbc ⊢
      exact le_trans hab hbc
    · simp only [keyLe, Bool.or_eq_true, Bool.not_eq_true', decide_eq_false_iff_not, not_lt]
      exact le_total _ _
  have hsame : canonMap es = canonMap es' := by
    have hall := (List.mergeSort_perm (canonEntries es) keyLe).trans
      (hentries.trans (List.mergeSort_perm (canonEntries es') keyLe).symm)
    refine hall.eq_of_pairwise ?_ (hsorted _) (hsorted _)
    intro a b ha hb hab hba
    simp only [keyLe, Bool.not_eq_true', decide_eq_false_iff_not, not_lt] at hab hba
    exact List.inj_on_of_nodup_map (keyed_canonMap h) ha (hall.mem_iff.mpr hb) (le_antisymm hab hba)
  rw [marshal, marshal, canon, canon]
  exact congrArg (fun m => write (.obj m)) hsame

-- ── Decoded into a struct ─────────────────────────────────────────────────────

/-- Entries of other names leave a field as it was. -/
theorem stringField_foldl {es : List (String × Json)} {name : String} (acc : FieldValue String)
    (h : ∀ k ∈ es.map Prod.fst, keyMatches k name = false) :
    es.foldl (fun acc e => if keyMatches e.1 name then decodeString acc e.2 else acc) acc
      = acc := by
  induction es with
  | nil => rfl
  | cons e es ih =>
      have hmore := List.forall_mem_cons.mp h
      rw [List.foldl_cons, hmore.1]
      exact ih hmore.2

/-- **A FIELD READS ITS KEY**, where no other key of the map folds to it. -/
theorem stringField_keyed {es : JsonMap} (hkeyed : Keyed es) {name s : String}
    (hmem : (name, .str s) ∈ es)
    (hother : ∀ k ∈ es.map Prod.fst, keyMatches k name = true → k = name) :
    stringField name es = ⟨s, true⟩ := by
  obtain ⟨before, after, rfl⟩ := List.append_of_mem hmem
  rw [Keyed, List.map_append, List.map_cons] at hkeyed
  have hdistinct := List.nodup_middle.mp hkeyed
  have hnone : ∀ l : List String, (∀ k ∈ l, k ∈ before.map Prod.fst ++ after.map Prod.fst) →
      ∀ k ∈ l, keyMatches k name = false := by
    intro l hl k hk
    cases hmatch : keyMatches k name with
    | false => rfl
    | true =>
        have hin : k ∈ (before ++ (name, Json.str s) :: after).map Prod.fst := by
          rw [List.map_append, List.map_cons]
          rcases List.mem_append.mp (hl k hk) with h | h
          · exact List.mem_append.mpr (Or.inl h)
          · exact List.mem_append.mpr (Or.inr (List.mem_cons_of_mem _ h))
        rw [hother k hin hmatch] at hk
        exact absurd (hl name hk) (List.nodup_cons.mp hdistinct).1
  have hname : keyMatches name name = true := decide_eq_true rfl
  rw [stringField, List.foldl_append,
    stringField_foldl _ (hnone _ fun k hk => List.mem_append.mpr (Or.inl hk)), List.foldl_cons,
    hname, if_pos rfl, stringField_foldl _ (hnone _ fun k hk => List.mem_append.mpr (Or.inr hk))]
  rfl

/-! ## Through an `interface{}` -/

mutual
/-- Is every number of the value in the range of a `float64`? -/
def fits (num : String → Option String) : Json → Bool
  | .num lit => (num lit).isSome
  | .arr vs => fitsElems num vs
  | .obj es => fitsEntries num es
  | _ => true
def fitsElems (num : String → Option String) : List Json → Bool
  | [] => true
  | v :: vs => fits num v && fitsElems num vs
def fitsEntries (num : String → Option String) : List (String × Json) → Bool
  | [] => true
  | e :: es => fits num e.2 && fitsEntries num es
end

/-- `Unmarshal` into a `map[string]interface{}`; a number out of range is an error. -/
def unmarshalMap (num : String → Option String) (es : List (String × Json)) : Option JsonMap :=
  if fitsEntries num es then some (interfaceEntries num [] es) else none

/-- Formatting a number gives a number. -/
def KeepsNumbers (num : String → Option String) : Prop :=
  ∀ lit lit', isNumber lit.toList = true → num lit = some lit' → isNumber lit'.toList = true

variable {num : String → Option String} {n : Nat}

/-- Taking entries out doubles no key. -/
theorem keyed_filter {m : JsonMap} (h : Keyed m) (p : String × Json → Bool) :
    Keyed (m.filter p) :=
  (List.filter_sublist.map Prod.fst).nodup h

/-- Writing a key doubles none. -/
theorem keyed_setKey {m : JsonMap} (h : Keyed m) (k : String) (v : Json) :
    Keyed (setKey m k v) := by
  rw [Keyed, setKey, List.map_append, List.nodup_append]
  refine ⟨keyed_filter h _, List.nodup_singleton _, ?_⟩
  intro a ha b hb
  obtain ⟨e, he, rfl⟩ := List.mem_map.mp ha
  rw [List.map_cons, List.map_nil, List.mem_singleton] at hb
  rw [hb]
  exact of_decide_eq_true (List.mem_filter.mp he).2

/-- A decoded map has every key once. -/
theorem keyed_interfaceEntries (es : List (String × Json)) :
    ∀ m : JsonMap, Keyed m → Keyed (interfaceEntries num m es) := by
  induction es with
  | nil => exact fun m h => h
  | cons e es ih => exact fun m h => ih _ (keyed_setKey h _ _)

/-- After a write an entry is an old one or the one written. -/
theorem mem_setKey {m : JsonMap} {k : String} {v : Json} {e : String × Json}
    (h : e ∈ setKey m k v) : e ∈ m ∨ e = (k, v) :=
  (List.mem_append.mp h).imp (fun h => (List.mem_filter.mp h).1) List.mem_singleton.mp

/-- Whatever a map is made of is a value of what was decoded. -/
theorem mem_interfaceEntries {e : String × Json} (es : List (String × Json)) :
    ∀ m : JsonMap, e ∈ interfaceEntries num m es →
      e ∈ m ∨ ∃ e₀ ∈ es, e = (e₀.1, interfaceValue num e₀.2) := by
  induction es with
  | nil => exact fun m h => Or.inl h
  | cons e₀ es ih =>
      intro m h
      rcases ih _ h with hset | ⟨e₁, he₁, heq⟩
      · rcases mem_setKey hset with hm | heq
        · exact Or.inl hm
        · exact Or.inr ⟨e₀, List.mem_cons_self, heq⟩
      · exact Or.inr ⟨e₁, List.mem_cons_of_mem _ he₁, heq⟩

theorem interfaceValues_eq (vs : List Json) :
    interfaceValues num vs = vs.map (interfaceValue num) := by
  induction vs with
  | nil => rfl
  | cons v vs ih => rw [interfaceValues, ih, List.map_cons]

/-- **THROUGH AN `interface{}`** a value keeps its shape, if numbers stay numbers. -/
theorem shaped_interfaceValue (hnum : KeepsNumbers num) {v : Json} (h : Shaped n v) :
    Shaped n (interfaceValue num v) := by
  induction h with
  | word h =>
      cases h with
      | null => exact .word .null
      | bool b => exact .word (.bool b)
      | @num lit h =>
          rw [interfaceValue]
          cases hlit : num lit with
          | none => exact .word .null
          | some lit' => exact .word (.num (hnum lit lit' h hlit))
  | str s => exact .str s
  | @arr n vs _ ih =>
      rw [interfaceValue, interfaceValues_eq]
      refine .arr fun w hw => ?_
      obtain ⟨v, hv, rfl⟩ := List.mem_map.mp hw
      exact ih v hv
  | @obj n es _ ih =>
      rw [interfaceValue]
      refine .obj fun w hw => ?_
      rcases mem_interfaceEntries es [] hw with hnil | ⟨e, he, rfl⟩
      · exact absurd hnil List.not_mem_nil
      · exact ih e he

/-- A new key comes last. -/
theorem setKey_of_notMem {m : JsonMap} {k : String} (h : k ∉ m.map Prod.fst) (v : Json) :
    setKey m k v = m ++ [(k, v)] := by
  have hfilter : m.filter (fun e => e.1 ≠ k) = m := by
    refine List.filter_eq_self.mpr fun e he => decide_eq_true ?_
    rintro rfl
    exact h (List.mem_map_of_mem he)
  rw [setKey, hfilter]

/-- Distinct keys stay where they are. -/
theorem interfaceEntries_keyed (es : List (String × Json)) :
    ∀ m : JsonMap, Keyed (m ++ es) →
      interfaceEntries num m es = m ++ es.map fun e => (e.1, interfaceValue num e.2) := by
  induction es with
  | nil =>
      intro m _
      exact (List.append_nil m).symm
  | cons e es ih =>
      intro m h
      have hnew : e.1 ∉ m.map Prod.fst := by
        intro hin
        rw [Keyed, List.map_append, List.nodup_append] at h
        exact h.2.2 e.1 hin e.1 (by rw [List.map_cons]; exact List.mem_cons_self) rfl
      have hkeyed : Keyed (m ++ [(e.1, interfaceValue num e.2)] ++ es) := by
        rw [Keyed] at h ⊢
        simpa using h
      show interfaceEntries num (setKey m e.1 (interfaceValue num e.2)) es = _
      rw [setKey_of_notMem hnew, ih _ hkeyed, List.append_assoc]
      rfl

/-- A map whose keys are distinct answers with its values decoded. -/
theorem lookup_interfaceEntries {es : JsonMap} (h : Keyed es) (k : String) :
    lookup (interfaceEntries num [] es) k = (lookup es k).map (interfaceValue num) := by
  rw [interfaceEntries_keyed es [] h, List.nil_append]
  clear h
  induction es with
  | nil => rfl
  | cons e es ih =>
      rw [lookup, List.map_cons, List.find?_cons, lookup, List.find?_cons]
      cases decide (e.1 = k) with
      | true => rfl
      | false => exact ih

/-- Every value is a text. -/
def Texts (es : JsonMap) : Prop := ∀ e ∈ es, ∃ s, e.2 = .str s

/-- A map of texts is one when its keys are sorted. -/
theorem texts_canonMap {es : JsonMap} (h : Texts es) : Texts (canonMap es) := by
  intro e he
  rw [canonMap, List.mem_mergeSort, canonEntries_eq] at he
  obtain ⟨e₀, he₀, rfl⟩ := List.mem_map.mp he
  obtain ⟨s, hs⟩ := h e₀ he₀
  refine ⟨s, ?_⟩
  show canon e₀.2 = _
  rw [hs, canon]

/-- Texts hold no number that could overflow. -/
theorem fitsEntries_texts {es : JsonMap} (h : Texts es) : fitsEntries num es = true := by
  induction es with
  | nil => rfl
  | cons e es ih =>
      obtain ⟨s, hs⟩ := h e List.mem_cons_self
      rw [fitsEntries, hs, ih fun e he => h e (List.mem_cons_of_mem _ he)]
      rfl

/-- **A MAP OF TEXTS** is written and decoded again without loss. -/
theorem unmarshal_texts {es : JsonMap} (hkeyed : Keyed es) (h : Texts es) :
    ∃ m, unmarshalMap num (canonMap es) = some m ∧ ∀ k, lookup m k = lookup es k := by
  refine ⟨_, if_pos (fitsEntries_texts (texts_canonMap h)), fun k => ?_⟩
  rw [lookup_interfaceEntries (keyed_canonMap hkeyed), lookup_canon hkeyed]
  cases hfind : lookup es k with
  | none => rfl
  | some v =>
      obtain ⟨s, hs⟩ := h _ ((lookup_eq_some hkeyed).mp hfind)
      cases hs
      rfl

end GoMarshal
