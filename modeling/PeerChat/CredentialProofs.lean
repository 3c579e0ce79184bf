import PeerChat.JsonDecodeProofs
import PeerChat.JsonEncodeProofs

/-! # Credentials on the wire — `ShouldBindJSON` of package `auth`

    A body is bound in two stages.  `json.Decoder` decodes the first value of
    the text, whatever follows it, and the `binding` tags of the request type
    are checked on the result.  The tags count CHARACTERS; the bytes of a
    password are counted elsewhere, and nothing here bounds them. -/

namespace PeerAuth

open JsonScan JsonDecode JsonEncode

/-! ## Strings as bytes -/

/-- `[]byte(s)`. -/
def utf8Bytes (s : String) : List UInt8 := s.toList.flatMap utf8

theorem utf8Bytes_append (s t : String) : utf8Bytes (s ++ t) = utf8Bytes s ++ utf8Bytes t := by
  rw [utf8Bytes, String.toList_append, List.flatMap_append]
  rfl

/-- Decoding the bytes gives the characters back. -/
theorem runes_flatMap_utf8 (cs : List Char) :
    runes (.bytes []) ((cs.flatMap utf8).map .byte) = cs := by
  induction cs with
  | nil => rfl
  | cons c cs ih => rw [List.flatMap_cons, List.map_append, runes_utf8, ih]

/-- Different texts have different bytes. -/
theorem utf8Bytes_injective : Function.Injective utf8Bytes := by
  intro s t hst
  have hchars : s.toList = t.toList := by
    rw [← runes_flatMap_utf8 s.toList, ← runes_flatMap_utf8 t.toList]
    exact congrArg (fun bs : List UInt8 => runes (.bytes []) (bs.map .byte)) hst
  exact String.toList_inj.mp hchars

/-- A zero byte is the NUL character. -/
theorem zero_mem_utf8 {c : Char} (h : (0 : UInt8) ∈ utf8 c) : c = Char.ofNat 0 := by
  have hzero : ∀ n, n < 256 → (0 : UInt8) = UInt8.ofNat n → n = 0 := by
    intro n hn hn0
    rw [← ofNat_toNat hn, ← hn0]
    rfl
  -- the bytes of a longer sequence all have their top bit set
  have hhigh : ∀ n, 0x80 ≤ n → n < 256 → (0 : UInt8) ≠ UInt8.ofNat n := by
    intro n hle hn hn0
    have hn := hzero n hn hn0
    omega
  have hlt := char_lt c
  have hnat : c.toNat = 0 := by
    simp only [utf8] at h
    split at h
    · exact hzero _ (by omega) (List.mem_singleton.mp h)
    · exfalso
      split at h
      · simp only [List.mem_cons, List.not_mem_nil, or_false] at h
        rcases h with h | h <;> exact hhigh _ (by omega) (by omega) h
      · split at h <;> simp only [List.mem_cons, List.not_mem_nil, or_false] at h
        · rcases h with h | h | h <;> exact hhigh _ (by omega) (by omega) h
        · rcases h with h | h | h | h <;> exact hhigh _ (by omega) (by omega) h
  rw [← Char.ofNat_toNat c, hnat]

/-- The bytes of a string without NUL hold no zero. -/
theorem zero_notMem_utf8Bytes {s : String} (h : Char.ofNat 0 ∉ s.toList) :
    (0 : UInt8) ∉ utf8Bytes s := by
  intro hzero
  obtain ⟨c, hc, hin⟩ := List.mem_flatMap.mp hzero
  rw [zero_mem_utf8 hin] at hc
  exact h hc

/-! ## The first value of a body -/

/-- What `Decode` reads: the longest prefix of the text that is a value. -/
def firstValue (body : List UInt8) : Option (List UInt8) :=
  body.inits.reverse.find? fun p => (parse p).isSome

/-- The entries `Decode` into a struct reads. -/
def decodeBody (body : List UInt8) : Option (List (String × Json)) :=
  (firstValue body).bind structEntries

/-- The longest prefix is the text itself. -/
theorem inits_reverse_head (l : List UInt8) : ∃ ps, l.inits.reverse = l :: ps := by
  induction l with
  | nil => exact ⟨[], rfl⟩
  | cons a l ih =>
      obtain ⟨ps, hps⟩ := ih
      have hinits : l.inits = ps.reverse ++ [l] := by
        rw [← List.reverse_reverse l.inits, hps, List.reverse_cons]
      refine ⟨(ps.reverse.map (List.cons a)).reverse ++ [[]], ?_⟩
      rw [List.inits_cons, hinits]
      simp

/-- A body that is one value is read whole. -/
theorem decodeBody_of_parse {body : List UInt8} {es : List (String × Json)}
    (h : parse body = some (.obj es)) : decodeBody body = some es := by
  obtain ⟨ps, hps⟩ := inits_reverse_head body
  have hfirst : firstValue body = some body := by
    rw [firstValue, hps]
    exact List.find?_cons_of_pos (by rw [h]; rfl)
  rw [decodeBody, hfirst, Option.bind_some, structEntries, h]

/-! ## The `binding` tags -/

/-- The two fields of `registerRequest` and of `loginRequest`. -/
structure Credentials where
  username : String
  password : String
  deriving DecidableEq, Repr

/-- One tag of a `string` field. -/
inductive Rule where
  | required
  | min (n : Nat)
  | max (n : Nat)
  deriving DecidableEq, Repr

def Rule.tag : Rule → String
  | .required => "required"
  | .min _ => "min"
  | .max _ => "max"

/-- Lengths are counted in runes. -/
def Rule.holds (value : String) : Rule → Bool
  | .required => value ≠ ""
  | .min n => n ≤ value.length
  | .max n => value.length ≤ n

/-- A request type: its name and the tags of its fields. -/
structure RequestType where
  name : String
  username : List Rule
  password : List Rule

def registerRequest : RequestType :=
  ⟨"registerRequest", [.required, .min 2, .max 30], [.required, .min 6]⟩

def loginRequest : RequestType := ⟨"loginRequest", [.required], [.required]⟩

/-- `FieldError.Error` of the first tag a field breaks. -/
def fieldErrors (request field value : String) (rules : List Rule) : List String :=
  match rules.find? fun r => !r.holds value with
  | none => []
  | some r =>
      ["Key: '" ++ request ++ "." ++ field ++ "' Error:Field validation for '" ++ field ++
        "' failed on the '" ++ r.tag ++ "' tag"]

/-- `validate.Struct`: the errors of the fields, in order. -/
def RequestType.check (t : RequestType) (req : Credentials) : List String :=
  fieldErrors t.name "Username" req.username t.username ++
    fieldErrors t.name "Password" req.password t.password

/-- The two fields of a decoded body, if both are strings. -/
def decodeCredentials (body : List UInt8) : Option Credentials :=
  match decodeBody body with
  | none => none
  | some es =>
      let username := stringField "username" es
      let password := stringField "password" es
      if username.ok && password.ok then some ⟨username.value, password.value⟩ else none

/-- `ShouldBindJSON`.  `jsonError` is the text of the error `Decode` returns, which names
    the type it decodes into. -/
def bindJSON (jsonError : String → List UInt8 → String) (t : RequestType)
    (body : List UInt8) : Except String Credentials :=
  match decodeCredentials body with
  | none => .error (jsonError t.name body)
  | some req =>
      match t.check req with
      | [] => .ok req
      | errors => .error ("\n".intercalate errors)

-- ── What passes ───────────────────────────────────────────────────────────────

/-- A field without errors keeps all its rules. -/
theorem fieldErrors_eq_nil {request field value : String} {rules : List Rule} :
    fieldErrors request field value rules = [] ↔ ∀ r ∈ rules, r.holds value = true := by
  rw [fieldErrors]
  cases hfind : rules.find? fun r => !r.holds value with
  | none =>
      refine iff_of_true rfl fun r hr => ?_
      simpa using List.find?_eq_none.mp hfind r hr
  | some r =>
      refine iff_of_false (List.cons_ne_nil _ _) fun hall => ?_
      have hbroken := List.find?_some hfind
      rw [hall r (List.mem_of_find?_eq_some hfind)] at hbroken
      cases hbroken

/-- A request without errors keeps the rules of both fields. -/
theorem check_eq_nil {t : RequestType} {req : Credentials} :
    t.check req = [] ↔
      (∀ r ∈ t.username, r.holds req.username = true) ∧
        ∀ r ∈ t.password, r.holds req.password = true := by
  rw [RequestType.check, List.append_eq_nil_iff, fieldErrors_eq_nil, fieldErrors_eq_nil]

/-- `ShouldBindJSON` succeeds for a body that decodes and keeps the rules. -/
theorem bindJSON_ok_iff {jsonError : String → List UInt8 → String} {t : RequestType}
    {body : List UInt8} {req : Credentials} :
    bindJSON jsonError t body = .ok req ↔
      decodeCredentials body = some req ∧ t.check req = [] := by
  rw [bindJSON]
  cases hdec : decodeCredentials body with
  | none => exact iff_of_false (fun h => by cases h) (fun h => by cases h.1)
  | some req' =>
      constructor
      · intro h
        dsimp only at h
        split at h
        · rename_i hcheck
          rw [← Except.ok.inj h]
          exact ⟨rfl, hcheck⟩
        · cases h
      · rintro ⟨hreq, hcheck⟩
        rw [Option.some.inj hreq]
        simp only [hcheck]

/-- **`Register` accepts** usernames of 2 to 30 characters and passwords of 6 or more. -/
theorem registerRequest_check {req : Credentials} :
    registerRequest.check req = [] ↔
      (2 ≤ req.username.length ∧ req.username.length ≤ 30) ∧ 6 ≤ req.password.length := by
  have hne : ∀ s : String, 0 < s.length → s ≠ "" := by
    rintro s hlen rfl
    exact Nat.lt_irrefl 0 hlen
  rw [check_eq_nil]
  simp only [registerRequest, List.forall_mem_cons, Rule.holds, decide_eq_true_iff]
  constructor
  · rintro ⟨⟨-, hmin, hmax, -⟩, -, hpass, -⟩
    exact ⟨⟨hmin, hmax⟩, hpass⟩
  · rintro ⟨⟨hmin, hmax⟩, hpass⟩
    exact ⟨⟨hne _ (by omega), hmin, hmax, by simp⟩, hne _ (by omega), hpass, by simp⟩

/-- **`Login` accepts** whatever is not empty. -/
theorem loginRequest_check {req : Credentials} :
    loginRequest.check req = [] ↔ req.username ≠ "" ∧ req.password ≠ "" := by
  rw [check_eq_nil]
  simp only [loginRequest, List.forall_mem_cons, Rule.holds, decide_eq_true_iff]
  simp

/-! ## Every pair of strings can be sent -/

/-- The body a client writes. -/
def Credentials.json (req : Credentials) : List UInt8 :=
  encode (.obj [("username", .str req.username), ("password", .str req.password)])

/-- What a client writes decodes to what it wrote. -/
theorem decodeCredentials_json (req : Credentials) :
    decodeCredentials req.json = some req := by
  have hparse : parse req.json
      = some (.obj [("username", .str req.username), ("password", .str req.password)]) := by
    refine parse_encode (n := 1) (Textual.obj fun e he => ?_) (by decide)
    simp only [List.mem_cons, List.not_mem_nil, or_false] at he
    rcases he with rfl | rfl <;> exact Textual.str _
  have hfields : ∀ u p : String,
      stringField "username" [("username", .str u), ("password", .str p)] = ⟨u, true⟩ ∧
      stringField "password" [("username", .str u), ("password", .str p)] = ⟨p, true⟩ := by
    intro u p
    have huu : keyMatches "username" "username" = true := by decide
    have hup : keyMatches "username" "password" = false := by decide
    have hpu : keyMatches "password" "username" = false := by decide
    have hpp : keyMatches "password" "password" = true := by decide
    simp [stringField, decodeString, huu, hup, hpu, hpp]
  rw [decodeCredentials, decodeBody_of_parse hparse]
  simp only [hfields, Bool.and_self, if_true]

/-- Keys match in any case, and what follows the object is not looked at. -/
example : decodeCredentials (ascii "\x7b\"USERNAME\":\"al\",\"password\":\"secret\"\x7d]") =
    some ⟨"al", "secret"⟩ := by
  decide +kernel

end PeerAuth
