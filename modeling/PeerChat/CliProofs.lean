import PeerChat.AuthProofs
import PeerChat.FrameWireProofs
import PeerChat.GoStringsProofs

/-! # The command line (`cli/main.go`)

    A loop over the lines that are typed, with one token and one connection: a login
    replaces both, a registration replaces the token only.  Beside it a goroutine
    for each connection prints what arrives.

    What is typed after `send` comes out of the other side's frame as it was typed
    (`send_parsed`, `receive_outbound`), and what is typed after `login` or
    `register` reaches the handler as the credentials of the request
    (`credentials_read`).  Lines are UTF-8. -/

namespace PeerCli

open PeerEnv JsonScan JsonEncode JsonDecode JsonShape GoMarshal GoStrings PeerFrame PeerStore
open PeerHandler PeerDispatch PeerAuth

/-! ## Requests -/

/-- The errors of `authRequest`. -/
inductive AuthError where
  /-- `http.Post` fails. -/
  | request (text : String)
  /-- The response is no object, or holds a number out of range. -/
  | decode
  /-- `fmt.Errorf("%v", errMsg)`. -/
  | answered (errMsg : Json)
  /-- "no token in response". -/
  | noToken

/-- The body of the request: a `map[string]string`. -/
def authBody (username password : String) : List UInt8 :=
  marshal (.obj [("username", .str username), ("password", .str password)])

/-- `authRequest`, from what `http.Post` returns; `num` is the decoding of numbers. -/
def authRequest (num : String → Option String) (resp : Except String (List UInt8)) :
    Except AuthError String :=
  match resp with
  | .error text => .error (.request text)
  | .ok body =>
      match decodeBody body with
      | none => .error .decode
      | some es =>
          match unmarshalMap num es with
          | none => .error .decode
          | some result =>
              match lookup result "error" with
              | some errMsg => .error (.answered errMsg)
              | none =>
                  match lookup result "token" with
                  | some (.str token) => .ok token
                  | _ => .error .noToken

/-- The address of `connectWS`. -/
def wsURL (serverURL token : String) : String :=
  replaceFirst (replaceFirst serverURL "http://" "ws://") "https://" "wss://" ++ "/ws?token=" ++
    token

/-- The frame of `send`. -/
def sendFrame (pid : Nat) (dest text : String) : List UInt8 :=
  marshal (.obj [("type", .str "message"), ("to", .str dest), ("body", .str text),
    ("id", .str ("cli-" ++ toString pid))])

def pingFrame : List UInt8 := ascii "\x7b\"type\":\"ping\"\x7d"

/-! ## The scanner -/

/-- `bufio.MaxScanTokenSize`. -/
def maxScanTokenSize : Nat := 64 * 1024

/-- `dropCR` of `bufio.ScanLines`. -/
def dropCR (line : String) : String :=
  if line.toList.getLast? = some '\r' then String.ofList line.toList.dropLast else line

/-- The text `scanner.Scan` makes of a line that is typed: the line and its end fit into the
    scanner's buffer, or the scanner stops. -/
def scanLine (line : String) : Option String :=
  if '\n' ∈ line.toList ∨ maxScanTokenSize ≤ (utf8Bytes line).length then none
  else some (dropCR line)

/-! ## The loop -/

/-- The variables of `main`; `κ` are the connections. -/
structure Cli (κ : Type) where
  token : String
  ws : Option κ
  running : Bool

def start {κ : Type} : Cli κ := ⟨"", none, true⟩

/-- What the network answers while a line is worked off. -/
structure Net (κ : Type) where
  post : Except String (List UInt8)
  dial : Except String κ
  write : Except String Unit

/-- What is printed. -/
inductive Shown where
  | line (text : String)
  | failed (what : String) (error : String)
  | refused (error : AuthError)

/-- What working a line off does beside changing the variables. -/
inductive Effect (κ : Type) where
  | post (url : String) (body : List UInt8)
  | dial (url : String)
  | write (conn : κ) (data : List UInt8)
  | close (conn : κ)
  | print (shown : Shown)

variable {κ : Type}

/-- The commands, as the `switch` tells them apart. -/
inductive Cmd where
  | register (username password : String)
  | login (username password : String)
  | send (dest text : String)
  | ping
  | quit
  /-- A command without its arguments. -/
  | usage (text : String)
  | unknown (cmd : String)
  deriving DecidableEq, Repr

/-- `if len(parts) < 3` prints the usage. -/
def twoArgs (args : List String) (f : String → String → Cmd) (usage : String) : Cmd :=
  match args with
  | [a, b] => f a b
  | _ => .usage usage

/-- `strings.SplitN(line, " ", 3)`, and the `switch`. -/
def parseLine (line : String) : Cmd :=
  match splitN line ' ' 3 with
  | [] => .unknown ""
  | cmd :: args =>
      if cmd = "register" then
        twoArgs args .register "usage: register <username> <password>"
      else if cmd = "login" then twoArgs args .login "usage: login <username> <password>"
      else if cmd = "send" then twoArgs args .send "usage: send <user_id> <message>"
      else if cmd = "ping" then .ping
      else if cmd = "quit" ∨ cmd = "exit" then .quit
      else .unknown cmd

/-- What the process was started with. -/
structure Config where
  serverURL : String
  pid : Nat
  float64 : String → Option String

/-- A command. -/
def execCmd (cfg : Config) (s : Cli κ) (net : Net κ) : Cmd → Cli κ × List (Effect κ)
  | .usage text => (s, [.print (.line text)])
  | .unknown cmd => (s, [.print (.line ("unknown command: " ++ cmd))])
  | .register username password =>
      let posted := Effect.post (cfg.serverURL ++ "/auth/register") (authBody username password)
      match authRequest cfg.float64 net.post with
      | .error e => (s, [posted, .print (.refused e)])
      | .ok token =>
          ({ s with token := token },
            [posted, .print (.line "registered and logged in. token saved.")])
  | .login username password =>
      let posted := Effect.post (cfg.serverURL ++ "/auth/login") (authBody username password)
      match authRequest cfg.float64 net.post with
      | .error e => (s, [posted, .print (.refused e)])
      | .ok token =>
          let dialed := Effect.dial (wsURL cfg.serverURL token)
          match net.dial with
          -- the connection `Dial` returns beside an error is nil
          | .error text => ({ s with token := token, ws := none },
              [posted, dialed, .print (.failed "websocket connect error:" text)])
          | .ok conn => ({ s with token := token, ws := some conn },
              [posted, dialed, .print (.line "connected.")])
  | .send dest text =>
      match s.ws with
      | none => (s, [.print (.line "not connected. run login first.")])
      | some conn =>
          let written := Effect.write conn (sendFrame cfg.pid dest text)
          match net.write with
          | .error e => (s, [written, .print (.failed "send error:" e)])
          | .ok () => (s, [written])
  | .ping =>
      match s.ws with
      | none => (s, [.print (.line "not connected.")])
      | some conn => (s, [.write conn pingFrame])
  | .quit =>
      ({ s with running := false },
        (s.ws.map Effect.close).toList ++ [.print (.line "bye.")])

/-- One turn of the loop, for a scanned line. -/
def exec (cfg : Config) (s : Cli κ) (net : Net κ) (scanned : String) :
    Cli κ × List (Effect κ) :=
  let line := trimSpace scanned
  if line = "" then (s, []) else execCmd cfg s net (parseLine line)

/-! ## `receiveMessages` -/

/-- What is printed for a frame; a key the frame has not is `none`. -/
inductive Received where
  | msg (sender body : Option Json)
  | pong
  | ack (messageID : Option Json)
  | typing (sender : Option Json)

/-- `Unmarshal` into a map, and the `switch`. -/
def receive (num : String → Option String) (data : List UInt8) : Option Received :=
  match (structEntries data).bind (unmarshalMap num) with
  | none => none
  | some msg =>
      match lookup msg "type" with
      | some (.str "message") => some (.msg (lookup msg "from") (lookup msg "body"))
      | some (.str "pong") => some .pong
      | some (.str "sent") => some (.ack (lookup msg "message_id"))
      | some (.str "typing") => some (.typing (lookup msg "from"))
      | _ => none

/-! ## What is written, the other side reads -/

/-- Texts under keys in order are written as they stand. -/
theorem canon_texts {es : JsonMap} (h : Texts es)
    (hsorted : (es.map Prod.fst).Pairwise fun k k' => ¬ k' < k) : canon (.obj es) = .obj es := by
  have hentries : canonEntries es = es := by
    rw [canonEntries_eq]
    refine (List.map_congr_left fun e he => ?_).trans (List.map_id es)
    obtain ⟨s, hs⟩ := h e he
    obtain ⟨k, v⟩ := e
    cases hs
    rfl
  have hpairs : es.Pairwise fun a b => keyLe a b = true := by
    refine (List.pairwise_map.mp hsorted).imp fun hle => ?_
    rw [keyLe, decide_eq_false hle]
    rfl
  rw [canon, hentries, List.mergeSort_of_pairwise hpairs]

/-- Texts under keys in order: the object that is read back. -/
theorem parse_texts {es : JsonMap} (h : Texts es)
    (hsorted : (es.map Prod.fst).Pairwise fun k k' => ¬ k' < k) :
    parse (marshal (.obj es)) = some (.obj es) := by
  have hshaped : Shaped 1 (.obj es) := by
    refine .obj fun e he => ?_
    obtain ⟨s, hs⟩ := h e he
    rw [hs]
    exact .str s
  rw [parse_marshal hshaped (by decide), canon_texts h hsorted]

/-- The members of the frame of `send`, in the order they are written in. -/
def sendMembers (pid : Nat) (dest text : String) : JsonMap :=
  [("body", .str text), ("id", .str ("cli-" ++ toString pid)), ("to", .str dest),
    ("type", .str "message")]

/-- They are texts, under keys in order. -/
theorem sendMembers_texts (pid : Nat) (dest text : String) :
    Texts (sendMembers pid dest text) ∧
      ((sendMembers pid dest text).map Prod.fst).Pairwise fun k k' => ¬ k' < k := by
  refine ⟨by simp [Texts, sendMembers], ?_⟩
  show ["body", "id", "to", "type"].Pairwise fun k k' => ¬ k' < k
  decide

theorem sendFrame_eq (pid : Nat) (dest text : String) :
    sendFrame pid dest text = marshal (.obj (sendMembers pid dest text)) := by
  have hperm : ([("type", .str "message"), ("to", .str dest)] ++ [("body", .str text),
      ("id", .str ("cli-" ++ toString pid))] : JsonMap).Perm ([("body", .str text),
      ("id", .str ("cli-" ++ toString pid))] ++ [("to", .str dest), ("type", .str "message")]) :=
    List.perm_append_comm.trans ((List.Perm.swap _ _ _).append_left _)
  exact marshal_perm hperm (by simp [Keyed])

/-- The bytes of the frame. -/
theorem sendFrame_write (pid : Nat) (dest text : String) :
    sendFrame pid dest text = write (.obj (sendMembers pid dest text)) := by
  obtain ⟨htexts, hsorted⟩ := sendMembers_texts pid dest text
  rw [sendFrame_eq, marshal, canon_texts htexts hsorted]

/-- The frame is read back. -/
theorem parse_sendFrame (pid : Nat) (dest text : String) :
    parse (sendFrame pid dest text) = some (.obj (sendMembers pid dest text)) := by
  obtain ⟨htexts, hsorted⟩ := sendMembers_texts pid dest text
  rw [sendFrame_eq, parse_texts htexts hsorted]

/-- The server reads the two texts that were typed. -/
theorem parse_authBody (username password : String) :
    parse (authBody username password)
      = some (.obj [("password", .str password), ("username", .str username)]) := by
  have hperm : ([("username", .str username), ("password", .str password)] : JsonMap).Perm
      [("password", .str password), ("username", .str username)] := List.Perm.swap _ _ _
  rw [authBody, marshal_perm hperm (by simp [Keyed])]
  refine parse_texts (by simp [Texts]) ?_
  show ["password", "username"].Pairwise fun k k' => ¬ k' < k
  decide

/-- **THE CREDENTIALS ARE READ AS THEY WERE TYPED.** -/
theorem credentials_read (username password : String) :
    decodeCredentials (authBody username password) = some ⟨username, password⟩ := by
  have hother : ∀ name ∈ ["password", "username"], ∀ k ∈ ["password", "username"],
      keyMatches k name = true → k = name := by decide
  have husername : stringField "username" [("password", .str password), ("username", .str username)]
      = ⟨username, true⟩ :=
    stringField_keyed (by simp [Keyed]) (by simp) (hother _ (by simp))
  have hpassword : stringField "password" [("password", .str password), ("username", .str username)]
      = ⟨password, true⟩ :=
    stringField_keyed (by simp [Keyed]) (by simp) (hother _ (by simp))
  rw [decodeCredentials, decodeBody_of_parse (parse_authBody username password)]
  simp only [husername, hpassword, Bool.and_self, if_true]

/-- **WHAT IS TYPED AFTER `send`** is the call of `HandleDM`. -/
theorem send_parsed (fmt : Formats) (senderID : UUID) (senderName : String) (pid : Nat)
    (dest text : String) :
    baseKind (sendFrame pid dest text) = some .message ∧
      parseDM fmt senderID senderName (sendFrame pid dest text)
        = match fmt.uuidParse dest with
          | none => .error ⟨"invalid receiver id: ", .uuid⟩
          | some receiverID =>
              .ok ⟨senderID, senderName, receiverID, text, "cli-" ++ toString pid⟩ := by
  have hentries : structEntries (sendFrame pid dest text) = some [("body", .str text),
      ("id", .str ("cli-" ++ toString pid)), ("to", .str dest), ("type", .str "message")] := by
    rw [structEntries, parse_sendFrame]
    rfl
  have hother : ∀ name ∈ ["body", "id", "to", "type"], ∀ k ∈ ["body", "id", "to", "type"],
      keyMatches k name = true → k = name := by decide
  have hfield : ∀ name value, (name, Json.str value) ∈ ([("body", .str text),
      ("id", .str ("cli-" ++ toString pid)), ("to", .str dest),
      ("type", .str "message")] : JsonMap) → name ∈ ["body", "id", "to", "type"] →
      stringField name [("body", .str text), ("id", .str ("cli-" ++ toString pid)),
        ("to", .str dest), ("type", .str "message")] = ⟨value, true⟩ :=
    fun name value hmem hname => stringField_keyed (by simp [Keyed]) hmem (hother name hname)
  have htype := hfield "type" "message" (by simp) (by simp)
  have hto := hfield "to" dest (by simp) (by simp)
  have hbody := hfield "body" text (by simp) (by simp)
  have hid := hfield "id" ("cli-" ++ toString pid) (by simp) (by simp)
  constructor
  · rw [baseKind, hentries]
    show (if (stringField "type" _).ok = true then some (kindOf (stringField "type" _).value)
      else none) = _
    rw [htype]
    rfl
  · cases hdest : fmt.uuidParse dest with
    | none => simp only [parseDM, hentries, htype, hto, hbody, hid, hdest, Bool.and_self, if_true]
    | some receiverID =>
        simp only [parseDM, hentries, htype, hto, hbody, hid, hdest, Bool.and_self, if_true]

/-- The frame of a stored message is printed with its author and its text. -/
theorem receive_outbound (fmt : Formats) (num : String → Option String) (call : DmCall)
    (stored : Message) :
    receive num (frameBytes fmt (call.outbound stored))
      = some (.msg (some (.str call.senderName)) (some (.str stored.body))) := by
  have hnotRelay : ∀ raw, call.outbound stored ≠ .relay raw := fun raw heq => by cases heq
  obtain ⟨hkeyed, htexts⟩ : _ ∧ Texts ((call.outbound stored).fields fmt) :=
    texts_frame hnotRelay
  obtain ⟨m, hm, hlookup⟩ : ∃ m, unmarshalMap num _ = some m ∧ _ :=
    unmarshal_texts hkeyed htexts
  have hentries : structEntries (frameBytes fmt (call.outbound stored))
      = some (canonMap ((call.outbound stored).fields fmt)) := by
    rw [structEntries, (readBack_of_wired (wired_frame hnotRelay)).parsed]
  simp only [receive, hentries, Option.bind_some, hm, hlookup]
  rfl

/-! ## What the server answers -/

/-- **`authRequest` UNDERSTANDS THE HANDLERS**: it returns the token of a session, and their
    own words for anything else. -/
theorem authRequest_answer (fmt : Formats) (num : String → Option String) (a : Answer) :
    authRequest num (.ok (answerBytes fmt a)) = match a with
      | .error text => .error (.answered (.str text))
      | .session token _ _ => .ok token := by
  obtain ⟨hkeyed, htexts⟩ := texts_answer fmt a
  obtain ⟨m, hm, hlookup⟩ : ∃ m, unmarshalMap num _ = some m ∧ _ :=
    unmarshal_texts hkeyed htexts
  have hbody : decodeBody (answerBytes fmt a) = some (canonMap (answerFields fmt a)) :=
    decodeBody_of_parse (parse_answer fmt a)
  simp only [authRequest, hbody, hm, hlookup]
  cases a with
  | error text => rfl
  | session token userID username => rfl

/-! ## What can be typed -/

/-- What is scanned is the beginning of the line, which fits. -/
theorem scanLine_some {line scanned : String} (h : scanLine line = some scanned) :
    scanned.toList <+: line.toList ∧ '\n' ∉ line.toList ∧
      (utf8Bytes line).length < maxScanTokenSize := by
  rw [scanLine] at h
  split at h
  · cases h
  · rename_i hfits
    obtain ⟨hline, hsize⟩ := not_or.mp hfits
    obtain rfl : dropCR line = scanned := Option.some.inj h
    refine ⟨?_, hline, Nat.not_le.mp hsize⟩
    rw [dropCR]
    split
    · rw [String.toList_ofList]
      exact List.dropLast_prefix _
    · exact List.prefix_rfl

/-- A line that fits, and ends in no space, is scanned as it is. -/
theorem scanLine_plain {line : String} {cs : List Char} {c : Char} (hend : line.toList = cs ++ [c])
    (hc : GoStrings.isSpace c = false) (hline : '\n' ∉ line.toList)
    (hsize : (utf8Bytes line).length < maxScanTokenSize) : scanLine line = some line := by
  have hcr : line.toList.getLast? ≠ some '\r' := by
    rw [hend, List.getLast?_concat]
    intro heq
    rw [Option.some.inj heq] at hc
    revert hc
    decide
  rw [scanLine, if_neg (not_or.mpr ⟨hline, Nat.not_le.mpr hsize⟩), dropCR, if_neg hcr]

/-- A text that ends in no space, and is not empty. -/
theorem trimRight_iff {b : String} :
    (trimRight b = b ∧ b ≠ "") ↔ ∃ ds c, b.toList = ds ++ [c] ∧ GoStrings.isSpace c = false := by
  constructor
  · rintro ⟨htrim, hne⟩
    rcases List.eq_nil_or_concat' b.toList with hnil | ⟨ds, c, hds⟩
    · exact absurd (String.toList_eq_nil_iff.mp hnil) hne
    · have hchars : trimRightChars b.toList = ds ++ [c] := by
        rw [← hds, ← String.toList_ofList (l := trimRightChars b.toList)]
        exact congrArg String.toList htrim
      exact ⟨ds, c, hds, trimRightChars_last hchars⟩
  · rintro ⟨ds, c, hds, hc⟩
    constructor
    · rw [trimRight, hds, trimRightChars_of_last hc, ← hds, String.ofList_toList]
    · rintro rfl
      cases ds <;> cases hds

/-- A line with a command and two arguments. -/
def commandLine (cmd a b : String) : String :=
  cmd ++ String.singleton ' ' ++ (a ++ String.singleton ' ' ++ b)

theorem commandLine_toList (cmd a b : String) :
    (commandLine cmd a b).toList = cmd.toList ++ ' ' :: (a.toList ++ ' ' :: b.toList) := by
  simp [commandLine, String.toList_append]

/-- The first argument holds no blank, the second is not empty and ends in no space, and they
    are on one line that the scanner takes. -/
structure Typable (cmd a b : String) : Prop where
  first : ' ' ∉ a.toList
  second : trimRight b = b ∧ b ≠ ""
  oneLine : '\n' ∉ a.toList ∧ '\n' ∉ b.toList
  fits : (utf8Bytes (commandLine cmd a b)).length < maxScanTokenSize

/-- **A COMMAND WITH TWO ARGUMENTS**, as it comes out of a line that is scanned. -/
theorem splitN_trimmed {cmd a b : String} (hcmd : ∀ c ∈ cmd.toList, GoStrings.isSpace c = false)
    (hne : cmd ≠ "") :
    (∃ line scanned, scanLine line = some scanned ∧
      splitN (trimSpace scanned) ' ' 3 = [cmd, a, b]) ↔ Typable cmd a b := by
  have hnot : ∀ c, GoStrings.isSpace c = true → c ∉ cmd.toList := fun c hc hin => by
    rw [hcmd c hin] at hc
    cases hc
  constructor
  · rintro ⟨line, scanned, hscan, hsplit⟩
    obtain ⟨rest, hline, -, hrest⟩ := (splitN_cons_iff (List.cons_ne_nil a [b])).mp hsplit
    obtain ⟨rfl, ha⟩ := splitN_two.mp hrest
    -- the line ends as its last part does
    have htrim : trimSpace scanned = commandLine cmd a b := hline
    have hchars : trimRightChars (scanned.toList.dropWhile GoStrings.isSpace)
        = cmd.toList ++ ' ' :: (a.toList ++ ' ' :: b.toList) := by
      rw [← commandLine_toList, ← htrim, trimSpace, String.toList_ofList]
    have hend : trimRight b = b ∧ b ≠ "" := by
      rw [trimRight_iff]
      rcases List.eq_nil_or_concat' b.toList with hnil | ⟨ds, c, hds⟩
      · rw [hnil, ← List.cons_append, ← List.append_assoc] at hchars
        exact absurd (trimRightChars_last hchars) (by decide)
      · refine ⟨ds, c, hds, ?_⟩
        rw [hds] at hchars
        refine trimRightChars_last (hchars.trans (?_ :
          _ = (cmd.toList ++ ' ' :: (a.toList ++ ' ' :: ds)) ++ [c]))
        simp
    -- and it is a part of what was typed
    obtain ⟨hbegins, hnewline, hsize⟩ := scanLine_some hscan
    have hpart : (commandLine cmd a b).toList <:+: line.toList := by
      rw [← htrim]
      exact (trimSpace_part scanned).trans hbegins.isInfix
    have hnone : '\n' ∉ (commandLine cmd a b).toList := fun hin => hnewline (hpart.subset hin)
    rw [commandLine_toList] at hnone
    simp only [List.mem_append, List.mem_cons, not_or] at hnone
    exact ⟨ha, hend, ⟨hnone.2.2.1, hnone.2.2.2.2⟩,
      Nat.lt_of_le_of_lt (hpart.sublist.flatMap utf8).length_le hsize⟩
  · rintro ⟨ha, hend, ⟨hnewA, hnewB⟩, hsize⟩
    obtain ⟨ds, c, hds, hc⟩ := trimRight_iff.mp hend
    have hlast : (commandLine cmd a b).toList
        = (cmd.toList ++ ' ' :: (a.toList ++ ' ' :: ds)) ++ [c] := by
      rw [commandLine_toList, hds]
      simp
    have hnewline : '\n' ∉ (commandLine cmd a b).toList := by
      rw [commandLine_toList]
      simp [hnot '\n' (by decide), hnewA, hnewB]
    refine ⟨_, _, scanLine_plain hlast hc hnewline hsize, ?_⟩
    have hhead : ∀ c ∈ (commandLine cmd a b).toList.head?, GoStrings.isSpace c = false := by
      intro d hd
      rw [commandLine_toList] at hd
      cases hchars : cmd.toList with
      | nil => exact absurd (String.toList_eq_nil_iff.mp hchars) hne
      | cons e es =>
          rw [hchars] at hd
          obtain rfl : e = d := Option.some.inj hd
          exact hcmd e (by rw [hchars]; exact List.mem_cons_self)
    have htrim : trimSpace (commandLine cmd a b) = commandLine cmd a b := by
      rw [trimSpace_of_head hhead]
      exact (trimRight_iff.mpr ⟨_, c, hlast, hc⟩).1
    rw [htrim, commandLine, splitN_cons (hnot ' ' (by decide)), splitN_cons ha, splitN_one]

/-- The words of a command with two arguments. -/
def Cmd.words : Cmd → List String
  | .register username password => ["register", username, password]
  | .login username password => ["login", username, password]
  | .send dest text => ["send", dest, text]
  | _ => []

/-- A command with two arguments was given two. -/
theorem twoArgs_words {args : List String} {f : String → String → Cmd} {usage : String}
    (h : (twoArgs args f usage).words ≠ []) :
    ∃ a b, args = [a, b] ∧ twoArgs args f usage = f a b := by
  rw [twoArgs.eq_def] at h ⊢
  split at h
  · exact ⟨_, _, rfl, rfl⟩
  · exact absurd rfl h

/-- A line is a command exactly when it splits into its words. -/
theorem parseLine_eq {line : String} {c : Cmd} (hc : c.words ≠ []) :
    parseLine line = c ↔ splitN line ' ' 3 = c.words := by
  constructor
  · rintro rfl
    rw [parseLine.eq_def] at hc ⊢
    split
    · rename_i hsplit
      rw [hsplit] at hc
      exact absurd rfl hc
    · rename_i cmd args hsplit
      rw [hsplit] at hc
      simp only at hc
      split
      · rename_i hcmd
        rw [if_pos hcmd] at hc
        obtain ⟨a, b, rfl, hargs⟩ := twoArgs_words hc
        rw [hargs, hsplit, hcmd]
        rfl
      · rename_i hregister
        rw [if_neg hregister] at hc
        split
        · rename_i hcmd
          rw [if_pos hcmd] at hc
          obtain ⟨a, b, rfl, hargs⟩ := twoArgs_words hc
          rw [hargs, hsplit, hcmd]
          rfl
        · rename_i hlogin
          rw [if_neg hlogin] at hc
          split
          · rename_i hcmd
            rw [if_pos hcmd] at hc
            obtain ⟨a, b, rfl, hargs⟩ := twoArgs_words hc
            rw [hargs, hsplit, hcmd]
            rfl
          · rename_i hsend
            rw [if_neg hsend] at hc
            split at hc
            · exact absurd rfl hc
            · split at hc
              · exact absurd rfl hc
              · exact absurd rfl hc
  · intro hsplit
    rw [parseLine, hsplit]
    cases c with
    | register username password => rfl
    | login username password => rfl
    | send dest text => rfl
    | _ => exact absurd rfl hc

/-- **WHAT CAN BE TYPED**: the commands some line is read as. -/
theorem typed_iff (a b : String) :
    ((∃ line scanned, scanLine line = some scanned ∧
      parseLine (trimSpace scanned) = .register a b) ↔ Typable "register" a b) ∧
    ((∃ line scanned, scanLine line = some scanned ∧
      parseLine (trimSpace scanned) = .login a b) ↔ Typable "login" a b) ∧
    ((∃ line scanned, scanLine line = some scanned ∧
      parseLine (trimSpace scanned) = .send a b) ↔ Typable "send" a b) := by
  have hall : ∀ (c : Cmd) (cmd : String), c.words = [cmd, a, b] → cmd ≠ "" →
      cmd.toList.any GoStrings.isSpace = false →
      ((∃ line scanned, scanLine line = some scanned ∧ parseLine (trimSpace scanned) = c) ↔
        Typable cmd a b) := by
    intro c cmd hwords hne hcmd
    have hc : c.words ≠ [] := by
      rw [hwords]
      exact List.cons_ne_nil _ _
    have hspaces : ∀ d ∈ cmd.toList, GoStrings.isSpace d = false := fun d hd =>
      Bool.not_eq_true _ ▸ List.any_eq_false.mp hcmd d hd
    rw [← splitN_trimmed hspaces hne, ← hwords]
    exact exists_congr fun line => exists_congr fun scanned =>
      and_congr_right fun _ => parseLine_eq hc
  exact ⟨hall _ "register" rfl (by decide) (by decide),
    hall _ "login" rfl (by decide) (by decide),
    hall _ "send" rfl (by decide) (by decide)⟩

end PeerCli
