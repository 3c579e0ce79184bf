import PeerChat.EnvProofs
import PeerChat.JsonDecodeProofs

/-! # The frames the server pushes

    Every frame is a Go map that is marshalled once and then moved around as
    bytes nobody looks into again until the browser parses them.  A frame here
    is the data of that map; `Frame.fields` is the map, and `Frame.field` is
    what a reader that looks a key up by its exact spelling finds.

    The text formats of identifiers, times and floating-point numbers are not
    this program's, so they come in as `Formats`. -/

namespace PeerFrame

open PeerEnv JsonScan JsonDecode

/-- The text formats of packages `google/uuid`, `time` and `strconv`. -/
structure Formats where
  /-- `uuid.Parse`. -/
  uuidParse : String → Option UUID
  /-- The UUID `uuid.Parse` returns beside an error. -/
  uuidOnError : String → UUID
  /-- `UUID.String`, which is also how a UUID is marshalled. -/
  uuidString : UUID → String
  /-- A `time.Time`, marshalled. -/
  timeString : Nat → String
  /-- A JSON number decoded into a `float64` and marshalled again; `none` out of
      range. -/
  float64 : String → Option String

/-- The value of a string of hexadecimal digits. -/
def hexValue (cs : List Char) : Option Nat :=
  cs.foldlM (fun n c => (hexDigit (UInt8.ofNat c.toNat)).map (n * 16 + ·)) 0

/-- The 36 characters of a UUID in its canonical form, hyphens included. -/
def canonicalParse (s : String) : Option UUID :=
  let cs := s.toList
  if cs.length = 36 ∧ [8, 13, 18, 23].all (fun i => cs[i]? = some '-') then
    (hexValue (cs.filter (· ≠ '-'))).map fun n => ⟨BitVec.ofNat 128 n⟩
  else none

/-- The `k` lowest hexadecimal digits of `n`. -/
def hexDigits : Nat → Nat → List Char
  | 0, _ => []
  | k + 1, n => hexDigits k (n / 16) ++ [Nat.digitChar (n % 16)]

/-- The canonical form of a UUID. -/
def canonicalString (u : UUID) : String :=
  let n := u.bits.toNat
  String.ofList (hexDigits 8 (n / 16 ^ 24) ++ '-' :: hexDigits 4 (n / 16 ^ 20) ++
    '-' :: hexDigits 4 (n / 16 ^ 16) ++ '-' :: hexDigits 4 (n / 16 ^ 12) ++
    '-' :: hexDigits 12 n)

/-- The formats on canonical UUIDs and on plain numerals; the concrete runs use
    them on nothing else. -/
def plainFormats : Formats :=
  ⟨canonicalParse, fun _ => ⟨0⟩, canonicalString, fun t => toString t, some⟩

example : canonicalParse "00000000-0000-0000-0000-0000000000ff" = some ⟨255⟩ := by
  decide +kernel

/-- What `json.Marshal` is handed for a client. -/
inductive Frame where
  | message (sender : String) (fromID : UUID) (body : String) (messageID : UUID)
      (timestamp : Nat)
  | sent (messageID : UUID) (id : String)
  | read (messageID : UUID)
  | groupMessage (groupID : UUID) (sender : String) (fromID : UUID) (body : String)
      (messageID : UUID) (timestamp : Nat)
  | groupSent (messageID : UUID)
  | groupCreated (groupID : UUID) (name : String)
  | memberAdded (groupID userID : UUID)
  | leftGroup (groupID : UUID)
  | error (text : String)
  | rateLimited
  | presence (userID : UUID) (status : String)
  | pong
  | typing (sender : String) (fromID chatID : UUID)
  /-- A client's own map, rewritten by the WebRTC relay. -/
  | relay (raw : JsonMap)

/-- The map behind a frame. -/
def Frame.fields (fmt : Formats) : Frame → JsonMap
  | .message sender fromID body messageID timestamp =>
      [("type", .str "message"), ("from", .str sender),
       ("from_id", .str (fmt.uuidString fromID)), ("body", .str body),
       ("message_id", .str (fmt.uuidString messageID)),
       ("timestamp", .str (fmt.timeString timestamp))]
  | .sent messageID id =>
      [("type", .str "sent"), ("message_id", .str (fmt.uuidString messageID)),
       ("id", .str id), ("status", .str "sent")]
  | .read messageID =>
      [("type", .str "read"), ("message_id", .str (fmt.uuidString messageID))]
  | .groupMessage groupID sender fromID body messageID timestamp =>
      [("type", .str "group_message"), ("group_id", .str (fmt.uuidString groupID)),
       ("from", .str sender), ("from_id", .str (fmt.uuidString fromID)),
       ("body", .str body), ("message_id", .str (fmt.uuidString messageID)),
       ("timestamp", .str (fmt.timeString timestamp))]
  | .groupSent messageID =>
      [("type", .str "group_sent"), ("message_id", .str (fmt.uuidString messageID)),
       ("status", .str "sent")]
  | .groupCreated groupID name =>
      [("type", .str "group_created"), ("group_id", .str (fmt.uuidString groupID)),
       ("name", .str name)]
  | .memberAdded groupID userID =>
      [("type", .str "member_added"), ("group_id", .str (fmt.uuidString groupID)),
       ("user_id", .str (fmt.uuidString userID))]
  | .leftGroup groupID =>
      [("type", .str "left_group"), ("group_id", .str (fmt.uuidString groupID))]
  | .error text => [("type", .str "error"), ("message", .str text)]
  | .rateLimited => [("type", .str "error"), ("code", .str "rate_limited")]
  | .presence userID status =>
      [("type", .str "presence"), ("user_id", .str (fmt.uuidString userID)),
       ("status", .str status)]
  | .pong => [("type", .str "pong")]
  | .typing sender fromID chatID =>
      [("type", .str "typing"), ("from", .str sender),
       ("from_id", .str (fmt.uuidString fromID)),
       ("chat_id", .str (fmt.uuidString chatID))]
  | .relay raw => raw

/-- `msg[key]` in the browser: keys are read by their exact spelling. -/
def Frame.field (fmt : Formats) (f : Frame) (key : String) : Option Json :=
  lookup (f.fields fmt) key

/-- The types that show as a chat line. -/
def chatType (v : Option Json) : Prop :=
  v = some (.str "message") ∨ v = some (.str "group_message")

instance (v : Option Json) : Decidable (chatType v) :=
  match v with
  | some (.str t) =>
      decidable_of_iff (t = "message" ∨ t = "group_message") (by simp [chatType])
  | none => isFalse (by simp [chatType])
  | some .null => isFalse (by simp [chatType])
  | some (.bool _) => isFalse (by simp [chatType])
  | some (.num _) => isFalse (by simp [chatType])
  | some (.arr _) => isFalse (by simp [chatType])
  | some (.obj _) => isFalse (by simp [chatType])

/-- The frame of the direct message with this id. -/
def Frame.carries (id : UUID) : Frame → Bool
  | .message _ _ _ messageID _ => messageID = id
  | _ => false

/-- A frame that is neither a chat line nor a relayed map. -/
def Frame.plain : Frame → Bool
  | .message .. => false
  | .groupMessage .. => false
  | .relay _ => false
  | _ => true

/-- A plain frame has a type of its own, which is no chat type. -/
theorem not_chatType_of_plain {fmt : Formats} {f : Frame} (h : f.plain = true) :
    ¬ chatType (f.field fmt "type") := by
  cases f with
  | message _ _ _ _ _ => cases h
  | groupMessage _ _ _ _ _ _ => cases h
  | relay _ => cases h
  | _ => simp [chatType, Frame.field, Frame.fields, lookup]

end PeerFrame
