import Mathlib

/-! # JSON text, as Go's `encoding/json` scans it

    From bytes to a JSON value, in two passes that each read their input once
    and recurse on nothing else, so no fuel is needed: a lexer over bytes and a
    pushdown parser over tokens with an explicit stack of open containers.

    Objects keep every entry in input order, duplicates included; what a
    duplicate means is the decoder's business.  As in Go, the bytes of a string
    that are not UTF-8 and the surrogates without a partner become U+FFFD. -/

namespace JsonScan

/-- A JSON value.  A number keeps its literal. -/
inductive Json where
  | null
  | bool (b : Bool)
  | num (lit : String)
  | str (s : String)
  | arr (elems : List Json)
  | obj (entries : List (String × Json))
  deriving Repr

inductive Token where
  | lbrace
  | rbrace
  | lbracket
  | rbracket
  | colon
  | comma
  | str (s : String)
  | lit (v : Json)

/-! ## Strings -/

/-- A string literal between its escapes: a byte as it stands, or the code unit
    of a `\u` escape. -/
inductive CodeUnit where
  | byte (b : UInt8)
  | utf16 (n : Nat)
  deriving DecidableEq

def replacementChar : Char := Char.ofNat 0xFFFD

def hexDigit (b : UInt8) : Option Nat :=
  let c := Char.ofNat b.toNat
  if c.isDigit then some (b.toNat - 0x30)
  else if 'a' ≤ c ∧ c ≤ 'f' then some (b.toNat - 0x61 + 10)
  else if 'A' ≤ c ∧ c ≤ 'F' then some (b.toNat - 0x41 + 10)
  else none

/-- The byte a one-letter escape stands for. -/
def simpleEscape (b : UInt8) : Option UInt8 :=
  match Char.ofNat b.toNat with
  | '"' => some b
  | '\\' => some b
  | '/' => some b
  | 'b' => some 0x08
  | 'f' => some 0x0C
  | 'n' => some 0x0A
  | 'r' => some 0x0D
  | 't' => some 0x09
  | _ => none

/-- Resolve the escapes of a string literal. -/
def unescape : List UInt8 → Option (List CodeUnit)
  | [] => some []
  | b :: rest =>
      if b = 0x5C then
        match rest with
        | [] => none
        | e :: rest' =>
            if e = 0x75 then
              match rest' with
              | h₁ :: h₂ :: h₃ :: h₄ :: tail =>
                  match hexDigit h₁, hexDigit h₂, hexDigit h₃, hexDigit h₄ with
                  | some a, some b, some c, some d =>
                      (unescape tail).map
                        (.utf16 (((a * 16 + b) * 16 + c) * 16 + d) :: ·)
                  | _, _, _, _ => none
              | _ => none
            else
              match simpleEscape e with
              | some x => (unescape rest').map (.byte x :: ·)
              | none => none
      else (unescape rest).map (.byte b :: ·)

/-- How many bytes the UTF-8 sequence opened by `b` has, for a byte that can
    open one. -/
def utf8Width (b : UInt8) : Option Nat :=
  if b < 0x80 then some 1
  else if 0xC2 ≤ b ∧ b ≤ 0xDF then some 2
  else if 0xE0 ≤ b ∧ b ≤ 0xEF then some 3
  else if 0xF0 ≤ b ∧ b ≤ 0xF4 then some 4
  else none

/-- May `b` follow the bytes `pending` of a sequence?  The second byte is
    narrowed after `E0`, `ED`, `F0` and `F4`. -/
def utf8Follows (pending : List UInt8) (b : UInt8) : Bool :=
  match pending with
  | [0xE0] => 0xA0 ≤ b && b ≤ 0xBF
  | [0xED] => 0x80 ≤ b && b ≤ 0x9F
  | [0xF0] => 0x90 ≤ b && b ≤ 0xBF
  | [0xF4] => 0x80 ≤ b && b ≤ 0x8F
  | _ => 0x80 ≤ b && b ≤ 0xBF

/-- The character a complete sequence encodes. -/
def utf8Char (pending : List UInt8) : Char :=
  match pending.map UInt8.toNat with
  | [a] => Char.ofNat a
  | [a, b] => Char.ofNat ((a - 0xC0) * 64 + (b - 0x80))
  | [a, b, c] => Char.ofNat (((a - 0xE0) * 64 + (b - 0x80)) * 64 + (c - 0x80))
  | [a, b, c, d] =>
      Char.ofNat ((((a - 0xF0) * 64 + (b - 0x80)) * 64 + (c - 0x80)) * 64 + (d - 0x80))
  | _ => replacementChar

/-- Where the character decoder stands: the bytes of an unfinished UTF-8
    sequence, or a high surrogate waiting for its partner. -/
inductive Partial where
  | bytes (pending : List UInt8)
  | high (n : Nat)

/-- The characters an abandoned partial stands for: one U+FFFD a byte. -/
def Partial.abandon : Partial → List Char
  | .bytes pending => pending.map fun _ => replacementChar
  | .high _ => [replacementChar]

/-- Decode one code unit with nothing pending. -/
def openUnit : CodeUnit → List Char × Partial
  | .byte b =>
      match utf8Width b with
      | some 1 => ([Char.ofNat b.toNat], .bytes [])
      | some _ => ([], .bytes [b])
      | none => ([replacementChar], .bytes [])
  | .utf16 n =>
      if 0xD800 ≤ n ∧ n < 0xDC00 then ([], .high n)
      else if 0xDC00 ≤ n ∧ n < 0xE000 then ([replacementChar], .bytes [])
      else ([Char.ofNat n], .bytes [])

/-- Decode one code unit. -/
def decodeUnit (p : Partial) (u : CodeUnit) : List Char × Partial :=
  let restart := (p.abandon ++ (openUnit u).1, (openUnit u).2)
  match p, u with
  | .bytes [], u => openUnit u
  | .bytes (a :: rest), .byte b =>
      if utf8Follows (a :: rest) b then
        let seq := a :: rest ++ [b]
        if utf8Width a = some seq.length then ([utf8Char seq], .bytes [])
        else ([], .bytes seq)
      else restart
  | .high n, .utf16 m =>
      if 0xDC00 ≤ m ∧ m < 0xE000 then
        ([Char.ofNat (0x10000 + (n - 0xD800) * 0x400 + (m - 0xDC00))], .bytes [])
      else restart
  | _, _ => restart

/-- The characters of a list of code units. -/
def runes : Partial → List CodeUnit → List Char
  | p, [] => p.abandon
  | p, u :: us => (decodeUnit p u).1 ++ runes (decodeUnit p u).2 us

/-- The value of a string literal, given the bytes between its quotes. -/
def unquote (bytes : List UInt8) : Option String :=
  (unescape bytes).map fun us => String.ofList (runes (.bytes []) us)

/-! ## Numbers and words -/

def skipDigits (cs : List Char) : List Char := cs.dropWhile Char.isDigit

def skipInt : List Char → Option (List Char)
  | '0' :: cs => some cs
  | c :: cs => if c.isDigit then some (skipDigits cs) else none
  | [] => none

def skipFraction : List Char → Option (List Char)
  | '.' :: c :: cs => if c.isDigit then some (skipDigits cs) else none
  | '.' :: [] => none
  | cs => some cs

def skipSign : List Char → List Char
  | '+' :: cs => cs
  | '-' :: cs => cs
  | cs => cs

def skipExponent : List Char → Option (List Char)
  | [] => some []
  | e :: cs =>
      if e = 'e' ∨ e = 'E' then
        match skipSign cs with
        | c :: cs' => if c.isDigit then some (skipDigits cs') else none
        | [] => none
      else some (e :: cs)

/-- The grammar of a JSON number. -/
def isNumber (cs : List Char) : Bool :=
  let unsigned := match cs with
    | '-' :: cs => cs
    | cs => cs
  (skipInt unsigned).bind skipFraction |>.bind skipExponent |>.any List.isEmpty

/-- A word between delimiters: a keyword or a number. -/
def classify (cs : List Char) : Option Token :=
  if cs = ['t', 'r', 'u', 'e'] then some (.lit (.bool true))
  else if cs = ['f', 'a', 'l', 's', 'e'] then some (.lit (.bool false))
  else if cs = ['n', 'u', 'l', 'l'] then some (.lit .null)
  else if isNumber cs then some (.lit (.num (String.ofList cs)))
  else none

/-! ## The lexer -/

/-- Where the lexer stands; the accumulators are reversed. -/
inductive LexState where
  | idle
  | word (acc : List Char)
  | str (acc : List UInt8)
  | escape (acc : List UInt8)

def isSpace (c : Char) : Bool := c = ' ' || c = '\t' || c = '\n' || c = '\r'

def isWordChar (c : Char) : Bool :=
  c.isAlphanum || c = '+' || c = '-' || c = '.'

def punctuation (c : Char) : Option Token :=
  match c with
  | '{' => some .lbrace
  | '}' => some .rbrace
  | '[' => some .lbracket
  | ']' => some .rbracket
  | ':' => some .colon
  | ',' => some .comma
  | _ => none

/-- One byte outside words and strings. -/
def lexIdle (b : UInt8) : Option (List Token × LexState) :=
  let c := Char.ofNat b.toNat
  if isSpace c then some ([], .idle)
  else match punctuation c with
    | some t => some ([t], .idle)
    | none =>
        if c = '"' then some ([], .str [])
        else if isWordChar c then some ([], .word [c])
        else none

/-- One byte: the tokens it completes, and where the lexer stands after it. -/
def lexStep : LexState → UInt8 → Option (List Token × LexState)
  | .idle, b => lexIdle b
  | .word acc, b =>
      let c := Char.ofNat b.toNat
      if isWordChar c then some ([], .word (c :: acc))
      else (classify acc.reverse).bind fun t =>
        (lexIdle b).map fun r => (t :: r.1, r.2)
  | .str acc, b =>
      if b = 0x22 then (unquote acc.reverse).map fun s => ([.str s], .idle)
      else if b = 0x5C then some ([], .escape acc)
      else if b < 0x20 then none
      else some ([], .str (b :: acc))
  | .escape acc, b =>
      if b = 0x75 ∨ (simpleEscape b).isSome then some ([], .str (b :: 0x5C :: acc))
      else none

def lex : LexState → List UInt8 → Option (List Token)
  | .idle, [] => some []
  | .word acc, [] => (classify acc.reverse).map fun t => [t]
  | .str _, [] => none
  | .escape _, [] => none
  | s, b :: bs => (lexStep s b).bind fun r => (lex r.2 bs).map (r.1 ++ ·)

/-! ## The parser -/

/-- A container that is open around the value being read. -/
inductive Open where
  | arr (elems : List Json)
  | obj (entries : List (String × Json)) (key : String)

/-- What the parser needs next. -/
inductive Want where
  | value
  | firstElem
  | firstKey
  | key (entries : List (String × Json))
  | colon (entries : List (String × Json)) (key : String)
  | after (v : Json)

/-- `maxNestingDepth`. -/
def maxNestingDepth : Nat := 10000

/-- A token where a value must start. -/
def startValue (stack : List Open) : Token → Option (List Open × Want)
  | .lit v => some (stack, .after v)
  | .str s => some (stack, .after (.str s))
  | .lbrace => if stack.length < maxNestingDepth then some (stack, .firstKey) else none
  | .lbracket => if stack.length < maxNestingDepth then some (stack, .firstElem) else none
  | _ => none

/-- One token. -/
def parseStep : List Open × Want → Token → Option (List Open × Want)
  | (stack, .value), t => startValue stack t
  | (stack, .firstElem), .rbracket => some (stack, .after (.arr []))
  | (stack, .firstElem), t => startValue (.arr [] :: stack) t
  | (stack, .firstKey), .rbrace => some (stack, .after (.obj []))
  | (stack, .firstKey), .str k => some (stack, .colon [] k)
  | (stack, .key entries), .str k => some (stack, .colon entries k)
  | (stack, .colon entries k), .colon => some (.obj entries k :: stack, .value)
  | (.arr elems :: stack, .after v), .comma => some (.arr (elems ++ [v]) :: stack, .value)
  | (.arr elems :: stack, .after v), .rbracket =>
      some (stack, .after (.arr (elems ++ [v])))
  | (.obj entries k :: stack, .after v), .comma =>
      some (stack, .key (entries ++ [(k, v)]))
  | (.obj entries k :: stack, .after v), .rbrace =>
      some (stack, .after (.obj (entries ++ [(k, v)])))
  | _, _ => none

def parseTokens : List Open × Want → List Token → Option Json
  | ([], .after v), [] => some v
  | _, [] => none
  | s, t :: ts => (parseStep s t).bind (parseTokens · ts)

/-- The value a text denotes; `none` is a `SyntaxError`. -/
def parse (data : List UInt8) : Option Json :=
  (lex .idle data).bind (parseTokens ([], .value))

/-- The bytes of an ASCII text. -/
def ascii (s : String) : List UInt8 := s.toList.map fun c => c.toNat.toUInt8

/-- The entries of the value, where it is an object. -/
def Json.entries : Json → List (String × Json)
  | .obj es => es
  | _ => []

example : ((parse (ascii "\x7b\"a\": [1, null], \"a\":\"\\u00e9\"\x7d")).map
    fun v => v.entries.map Prod.fst) = some ["a", "a"] := by
  decide +kernel

example : (parse (ascii "\x7b\"a\":1,\x7d")).isNone = true := by
  decide +kernel

end JsonScan
