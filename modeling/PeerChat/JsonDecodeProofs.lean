import PeerChat.JsonScanProofs

/-! # Decoding rules of `encoding/json` — the same bytes, two readings

    `json.Unmarshal` into a struct matches an object's keys to a field by case
    folding, and every match overwrites the one before it.  Into a
    `map[string]interface{}` it keeps every spelling of a key as a key of its
    own.  A reader that decodes one text both ways can therefore see two
    different values; this file is the two readings and how a map is read
    back by exact key.

    A value of the wrong type for a struct field is remembered as the error
    `Unmarshal` returns, and decoding goes on. -/

namespace JsonDecode

open JsonScan

/-! ## Structs -/

/-- `foldRune`, on the orbits that contain an ASCII letter: besides the two
    cases there are U+017F (long s) and U+212A (Kelvin sign). -/
def foldRune (c : Char) : Char :=
  if c = Char.ofNat 0x17F then 'S'
  else if c = Char.ofNat 0x212A then 'K'
  else c.toUpper

/-- Does the key select the field of this (ASCII) name? -/
def keyMatches (key name : String) : Bool :=
  key.toList.map foldRune = name.toList.map foldRune

/-- A decoded field and whether no type error was met on the way. -/
structure FieldValue (α : Type) where
  value : α
  ok : Bool
  deriving Repr

/-- Decode a value into a `string`: `null` leaves it, a wrong type is an error. -/
def decodeString (acc : FieldValue String) : Json → FieldValue String
  | .str s => ⟨s, acc.ok⟩
  | .null => acc
  | _ => ⟨acc.value, false⟩

/-- Decode a value into a `[]string`, over the elements it had. What an earlier, shorter
    array has cut off is taken for empty. -/
def decodeStrings (acc : FieldValue (List String)) : Json → FieldValue (List String)
  | .arr vs =>
      let elems := vs.zipIdx.map fun v =>
        decodeString ⟨acc.value.getD v.2 "", true⟩ v.1
      ⟨elems.map FieldValue.value, acc.ok && elems.all FieldValue.ok⟩
  | .null => ⟨[], acc.ok⟩
  | _ => ⟨acc.value, false⟩

/-- A field of type `string`: all matching entries, in input order. -/
def stringField (name : String) (entries : List (String × Json)) : FieldValue String :=
  entries.foldl
    (fun acc e => if keyMatches e.1 name then decodeString acc e.2 else acc) ⟨"", true⟩

/-- A field of type `[]string`. -/
def stringsField (name : String) (entries : List (String × Json)) :
    FieldValue (List String) :=
  entries.foldl
    (fun acc e => if keyMatches e.1 name then decodeStrings acc e.2 else acc) ⟨[], true⟩

/-- The entries `Unmarshal` into a struct reads: `null` sets nothing, and a
    value that is no object is an error. -/
def structEntries (data : List UInt8) : Option (List (String × Json)) :=
  match parse data with
  | some (.obj entries) => some entries
  | some .null => some []
  | _ => none

/-! ## Maps -/

/-- A `map[string]interface{}`, keys distinct. -/
abbrev JsonMap := List (String × Json)

/-- `m[k] = v`. -/
def setKey (m : JsonMap) (k : String) (v : Json) : JsonMap :=
  m.filter (fun e => e.1 ≠ k) ++ [(k, v)]

/-- `delete(m, k)`. -/
def deleteKey (m : JsonMap) (k : String) : JsonMap :=
  m.filter fun e => e.1 ≠ k

/-- `m[k]`, by exact key. -/
def lookup (m : JsonMap) (k : String) : Option Json :=
  (m.find? fun e => e.1 = k).map Prod.snd

mutual
/-- Decode into an `interface{}` and encode again: a number passes through
    `float64`, which `num` computes on literals (`none` outside its range, where
    the value stays `nil`); a map keeps the last of equal keys. -/
def interfaceValue (num : String → Option String) : Json → Json
  | .null => .null
  | .bool b => .bool b
  | .num lit => match num lit with
    | some lit' => .num lit'
    | none => .null
  | .str s => .str s
  | .arr vs => .arr (interfaceValues num vs)
  | .obj es => .obj (interfaceEntries num [] es)
def interfaceValues (num : String → Option String) : List Json → List Json
  | [] => []
  | v :: vs => interfaceValue num v :: interfaceValues num vs
def interfaceEntries (num : String → Option String) (m : JsonMap) :
    List (String × Json) → JsonMap
  | [] => m
  | (k, v) :: es => interfaceEntries num (setKey m k (interfaceValue num v)) es
end

-- ── Reading a map back ────────────────────────────────────────────────────────

/-- The first of two lists that has the key answers. -/
theorem lookup_append (m m' : JsonMap) (k : String) :
    lookup (m ++ m') k = (lookup m k).or (lookup m' k) := by
  simp only [lookup]
  rw [List.find?_append]
  cases List.find? (fun e => decide (e.1 = k)) m <;> rfl

/-- Taking out a key hides no other. -/
theorem lookup_filter_ne {m : JsonMap} {k k' : String} (h : k' ≠ k) :
    lookup (m.filter fun e => e.1 ≠ k) k' = lookup m k' := by
  simp only [lookup]
  induction m with
  | nil => rfl
  | cons e m ih =>
      by_cases hk : e.1 = k
      · have hk' : e.1 ≠ k' := fun heq => h (heq.symm.trans hk)
        rw [List.filter_cons_of_neg (by simpa using hk),
          List.find?_cons_of_neg (by simpa using hk')]
        exact ih
      · rw [List.filter_cons_of_pos (by simpa using hk)]
        by_cases hk' : e.1 = k'
        · rw [List.find?_cons_of_pos (by simpa using hk'),
            List.find?_cons_of_pos (by simpa using hk')]
        · rw [List.find?_cons_of_neg (by simpa using hk'),
            List.find?_cons_of_neg (by simpa using hk')]
          exact ih

/-- A key that was taken out is gone, however often it stood there. -/
theorem lookup_filter_self (m : JsonMap) (k : String) :
    lookup (m.filter fun e => e.1 ≠ k) k = none := by
  rw [lookup]
  rw [Option.map_eq_none_iff, List.find?_eq_none]
  intro e he
  have := (List.mem_filter.mp he).2
  simpa using this

/-- `raw[k] = v` is what the key reads. -/
@[simp] theorem lookup_setKey_self (m : JsonMap) (k : String) (v : Json) :
    lookup (setKey m k v) k = some v := by
  rw [setKey]
  rw [lookup_append, lookup_filter_self]
  simp [lookup]

/-- `raw[k] = v` changes what no other key reads. -/
theorem lookup_setKey_ne {m : JsonMap} {k k' : String} (v : Json) (h : k' ≠ k) :
    lookup (setKey m k v) k' = lookup m k' := by
  rw [setKey]
  rw [lookup_append, lookup_filter_ne h]
  have hnone : lookup [(k, v)] k' = none := by
    simp [lookup, Ne.symm h]
  rw [hnone, Option.or_none]

/-- `delete(raw, k)` touches no other key. -/
theorem lookup_deleteKey_ne {m : JsonMap} {k k' : String} (h : k' ≠ k) :
    lookup (deleteKey m k) k' = lookup m k' :=
  lookup_filter_ne h

end JsonDecode
