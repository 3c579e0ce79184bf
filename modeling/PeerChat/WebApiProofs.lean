import PeerChat.FrameWireProofs
import PeerChat.WebClientProofs

/-! # The requests of the web client (`api.ts`, `LoginForm.tsx`, `GET /messages`)

    A registration or a login is tried up to three times, as long as `fetch` throws;
    the first answer counts, whatever it is (`fetchWithRetry_ok`).  What the handlers
    answer comes out of `handleSubmit` as the credentials they handed out or as
    their own words (`handleSubmit_answered`), and the rows of a history as they
    were selected (`history_read`). -/

namespace PeerWeb

open JsonScan JsonDecode JsonEncode JsonShape GoMarshal PeerEnv PeerFrame PeerStore PeerAuth

/-! ## `fetchWithRetry` -/

structure HttpResponse where
  status : Nat
  body : List UInt8
  deriving DecidableEq, Repr

/-- `res.ok`. -/
def HttpResponse.ok (res : HttpResponse) : Bool := 200 ≤ res.status && res.status < 300

/-- The loop, from its `i`-th round on; `attempt i` is what `fetch` comes to there, and
    `none` an exception. -/
def fetchLoop (attempt : Nat → Option HttpResponse) (retries : Nat) :
    Nat → Nat → Except String HttpResponse
  | 0, _ => .error "Server unreachable"
  | left + 1, i =>
      match attempt i with
      | some res => .ok res
      | none =>
          if i = retries - 1 then .error "Server is waking up, please try again in a moment"
          else fetchLoop attempt retries left (i + 1)

def fetchWithRetry (attempt : Nat → Option HttpResponse) (retries : Nat) :
    Except String HttpResponse :=
  fetchLoop attempt retries retries 0

/-- An answer is the first one that came back. -/
theorem fetchLoop_ok {attempt : Nat → Option HttpResponse} {retries left i : Nat}
    (hleft : i + left = retries) {res : HttpResponse} :
    fetchLoop attempt retries left i = .ok res ↔
      ∃ j, i ≤ j ∧ j < retries ∧ attempt j = some res ∧ ∀ k, i ≤ k → k < j → attempt k = none := by
  induction left generalizing i with
  | zero =>
      refine iff_of_false (fun h => by cases h) ?_
      rintro ⟨j, hij, hj, -⟩
      omega
  | succ left ih =>
      rw [fetchLoop]
      cases hi : attempt i with
      | some first =>
          constructor
          · intro h
            cases h
            exact ⟨i, le_refl i, by omega, hi, fun k hik hki => absurd hik (by omega)⟩
          · rintro ⟨j, hij, hj, hres, hnone⟩
            -- no later one counts
            obtain rfl : i = j := by
              by_contra hne
              rw [hnone i (le_refl i) (by omega)] at hi
              cases hi
            rw [hi] at hres
            rw [Option.some.inj hres]
      | none =>
          simp only
          by_cases hlast : i = retries - 1
          · rw [if_pos hlast]
            refine iff_of_false (fun h => by cases h) ?_
            rintro ⟨j, hij, hj, hres, -⟩
            obtain rfl : i = j := by omega
            rw [hi] at hres
            cases hres
          · rw [if_neg hlast, ih (by omega)]
            constructor
            · rintro ⟨j, hij, hj, hres, hnone⟩
              refine ⟨j, by omega, hj, hres, fun k hik hkj => ?_⟩
              rcases Nat.eq_or_lt_of_le hik with rfl | hlt
              · exact hi
              · exact hnone k hlt hkj
            · rintro ⟨j, hij, hj, hres, hnone⟩
              have hne : i ≠ j := by
                rintro rfl
                rw [hi] at hres
                cases hres
              exact ⟨j, by omega, hj, hres, fun k hik hkj => hnone k (by omega) hkj⟩

/-- **THE FIRST ANSWER COUNTS**, of as many attempts as there are. -/
theorem fetchWithRetry_ok {attempt : Nat → Option HttpResponse} {retries : Nat}
    {res : HttpResponse} :
    fetchWithRetry attempt retries = .ok res ↔
      ∃ j, j < retries ∧ attempt j = some res ∧ ∀ k, k < j → attempt k = none := by
  rw [fetchWithRetry, fetchLoop_ok (Nat.zero_add retries)]
  simp only [Nat.zero_le, true_and, forall_const]

/-- The text about waking up is told after every attempt was lost. -/
theorem fetchLoop_error {attempt : Nat → Option HttpResponse} {retries left i : Nat}
    (hleft : i + left = retries) (hpos : 0 < left) {message : String} :
    fetchLoop attempt retries left i = .error message ↔
      message = "Server is waking up, please try again in a moment" ∧
        ∀ j, i ≤ j → j < retries → attempt j = none := by
  induction left generalizing i with
  | zero => exact absurd hpos (Nat.lt_irrefl 0)
  | succ left ih =>
      rw [fetchLoop]
      cases hi : attempt i with
      | some first =>
          refine iff_of_false (fun h => by cases h) ?_
          rintro ⟨-, hnone⟩
          cases hi.symm.trans (hnone i (le_refl i) (by omega))
      | none =>
          simp only
          by_cases hlast : i = retries - 1
          · rw [if_pos hlast]
            constructor
            · intro h
              refine ⟨(Except.error.inj h).symm, fun j hij hj => ?_⟩
              obtain rfl : i = j := by omega
              exact hi
            · rintro ⟨rfl, -⟩
              rfl
          · rw [if_neg hlast, ih (by omega) (by omega)]
            refine and_congr_right fun _ => ⟨fun hnone j hij hj => ?_, fun hnone j hij => ?_⟩
            · rcases Nat.eq_or_lt_of_le hij with rfl | hlt
              · exact hi
              · exact hnone j hlt hj
            · exact hnone j (by omega)

/-- **EVERY ATTEMPT HAS THROWN**, or there is an answer; nobody is ever told "Server
    unreachable". -/
theorem fetchWithRetry_error {attempt : Nat → Option HttpResponse} {retries : Nat}
    (hpos : 0 < retries) {message : String} :
    fetchWithRetry attempt retries = .error message ↔
      message = "Server is waking up, please try again in a moment" ∧
        ∀ j, j < retries → attempt j = none := by
  rw [fetchWithRetry, fetchLoop_error (Nat.zero_add retries) hpos]
  simp only [Nat.zero_le, forall_const]

/-! ## `register` and `login` -/

/-- What `setError` is given. -/
inductive ApiError where
  | text (message : String)
  /-- `new Error(v)` for a value that is no string. -/
  | coerced (v : Json)
  /-- `res.json()` throws. -/
  | notJson
  /-- A member of `null` is read. -/
  | typeError

/-- `v[k]`; of equal keys the last one counts. -/
def member (k : String) : Json → Except ApiError (Option Json)
  | .null => .error .typeError
  | .obj es => .ok (lookup es.reverse k)
  | _ => .ok none

/-- The two tabs of the form. -/
inductive Mode where
  | login
  | register
  deriving DecidableEq, Repr

def Mode.fallback : Mode → String
  | .login => "Login failed"
  | .register => "Registration failed"

/-- `login` and `register`, after `fetchWithRetry`. -/
def authCall (mode : Mode) (fetched : Except String HttpResponse) : Except ApiError Json :=
  match fetched with
  | .error message => .error (.text message)
  | .ok res =>
      match parse res.body with
      | none => .error .notJson
      | some v =>
          if res.ok then .ok v
          else match member "error" v with
            | .error e => .error e
            | .ok none => .error (.text mode.fallback)
            | .ok (some .null) => .error (.text mode.fallback)
            | .ok (some (.str message)) => .error (.text message)
            | .ok (some w) => .error (.coerced w)

/-- What `setAuth` is called with. -/
structure AuthResponse where
  token : Option Json
  userId : Option Json
  username : Option Json

/-- The credentials the store holds, where all three are strings. -/
def AuthResponse.auth : AuthResponse → Option Auth
  | ⟨some (.str token), some (.str userId), some (.str username)⟩ =>
      some ⟨token, userId, username⟩
  | _ => none

/-- `handleSubmit`. -/
def handleSubmit (mode : Mode) (username password : String)
    (attempt : Nat → Option HttpResponse) : Except ApiError AuthResponse :=
  if jsTrim username = "" ∨ jsTrim password = "" then
    .error (.text "Username and password are required")
  else do
    let res ← authCall mode (fetchWithRetry attempt 3)
    return ⟨← member "token" res, ← member "user_id" res, ← member "username" res⟩

-- ── What the handlers answer ──────────────────────────────────────────────────

/-- The response of a handler, as it arrives. -/
def arrived (fmt : Formats) (response : Response) : HttpResponse :=
  ⟨response.status, answerBytes fmt response.body⟩

/-- A session comes with a status of success, and nothing else does. -/
def Honest (response : Response) : Prop :=
  match response.body with
  | .error _ => ¬ (200 ≤ response.status ∧ response.status < 300)
  | .session .. => 200 ≤ response.status ∧ response.status < 300

/-- The client reads the members a handler wrote. -/
theorem member_canonMap {m : JsonMap} (h : Keyed m) (k : String) :
    member k (.obj (canonMap m)) = .ok ((lookup m k).map canon) := by
  rw [member, ← lookup_canon h]
  exact congrArg Except.ok (lookup_perm (List.reverse_perm _).symm (keyed_canonMap h) k).symm

/-- `res.ok` is a status of the two hundreds. -/
theorem arrived_ok (fmt : Formats) {response : Response} :
    (arrived fmt response).ok = true ↔ 200 ≤ response.status ∧ response.status < 300 := by
  rw [HttpResponse.ok, Bool.and_eq_true, decide_eq_true_eq, decide_eq_true_eq]
  rfl

/-- **THE FORM UNDERSTANDS THE HANDLERS.** -/
theorem handleSubmit_answered (fmt : Formats) {mode : Mode} {username password : String}
    {attempt : Nat → Option HttpResponse} {response : Response} (hhonest : Honest response)
    (hname : jsTrim username ≠ "") (hpassword : jsTrim password ≠ "")
    (hfetch : fetchWithRetry attempt 3 = .ok (arrived fmt response)) :
    handleSubmit mode username password attempt = match response.body with
      | .error text => .error (.text text)
      | .session token userID name =>
          .ok ⟨some (.str token), some (.str (fmt.uuidString userID)), some (.str name)⟩ := by
  have hmember := member_canonMap (texts_answer fmt response.body).1
  have hparse : parse (arrived fmt response).body
      = some (.obj (canonMap (answerFields fmt response.body))) := parse_answer fmt response.body
  rw [Honest] at hhonest
  rw [handleSubmit, if_neg (not_or.mpr ⟨hname, hpassword⟩), hfetch, authCall]
  simp only [hparse]
  cases hbody : response.body with
  | error text =>
      rw [hbody] at hhonest hmember
      rw [if_neg (mt (arrived_ok fmt).mp hhonest)]
      simp only [hmember]
      rfl
  | session token userID name =>
      rw [hbody] at hhonest hmember
      rw [if_pos ((arrived_ok fmt).mpr hhonest)]
      show (do
        let token ← member "token" (.obj (canonMap _))
        let userId ← member "user_id" (.obj (canonMap _))
        let username ← member "username" (.obj (canonMap _))
        pure (AuthResponse.mk token userId username)) = _
      rw [hmember, hmember, hmember]
      rfl

/-- Credentials come with an answer. -/
theorem handleSubmit_fetched {mode : Mode} {username password : String}
    {attempt : Nat → Option HttpResponse} {res : AuthResponse}
    (h : handleSubmit mode username password attempt = .ok res) :
    ∃ http, fetchWithRetry attempt 3 = .ok http := by
  rw [handleSubmit] at h
  split at h
  · cases h
  · cases hfetch : fetchWithRetry attempt 3 with
    | error message =>
        rw [hfetch] at h
        have hfail : (Except.error (.text message) : Except ApiError AuthResponse) = .ok res := h
        cases hfail
    | ok http => exact ⟨http, rfl⟩

/-- **WHAT IS STORED WAS HANDED OUT**: credentials come out of a session only. -/
theorem handleSubmit_session (fmt : Formats) {mode : Mode} {username password : String}
    {attempt : Nat → Option HttpResponse} {response : Response} {res : AuthResponse} {auth : Auth}
    (hhonest : Honest response) (hfetch : fetchWithRetry attempt 3 = .ok (arrived fmt response))
    (h : handleSubmit mode username password attempt = .ok res) (hauth : res.auth = some auth) :
    ∃ userID, response.body = .session auth.token userID auth.username ∧
      auth.userId = fmt.uuidString userID := by
  have hblank : ¬ (jsTrim username = "" ∨ jsTrim password = "") := by
    intro hblank
    rw [handleSubmit, if_pos hblank] at h
    cases h
  obtain ⟨hname, hpassword⟩ := not_or.mp hblank
  rw [handleSubmit_answered fmt hhonest hname hpassword hfetch] at h
  cases hbody : response.body with
  | error text =>
      rw [hbody] at h
      cases h
  | session token userID name =>
      rw [hbody] at h
      cases h
      cases hauth
      exact ⟨userID, rfl, rfl⟩

/-! ## `fetchHistory` -/

def statusText : Status → String
  | .sent => "sent"
  | .delivered => "delivered"
  | .read => "read"

def statusOf : String → Option Status
  | "sent" => some .sent
  | "delivered" => some .delivered
  | "read" => some .read
  | _ => none

/-- `msgJSON` of a row; `format` cuts a time to its second. -/
def historyFields (fmt : Formats) (format : Nat → String) (row : PendingMessage) : JsonMap :=
  [("id", .str (fmt.uuidString row.message.id)), ("from", .str row.senderUsername),
    ("from_id", .str (fmt.uuidString row.message.senderID)), ("body", .str row.message.body),
    ("status", .str (statusText row.message.status)),
    ("timestamp", .str (format row.message.createdAt))]

/-- The answer to a `GET /messages`: the fields of a struct stay in order. -/
def historyBytes (fmt : Formats) (format : Nat → String) (rows : List PendingMessage) :
    List UInt8 :=
  write (.arr (rows.map fun row => .obj (historyFields fmt format row)))

/-- `v[k]`, where it is a string. -/
def textMember (k : String) (v : Json) : Option String :=
  match member k v with
  | .ok (some (.str s)) => some s
  | _ => none

/-- `m.status`; there may be none. -/
def statusMember (v : Json) : Option (Option Status) :=
  match member "status" v with
  | .ok none => some none
  | .ok (some .null) => some none
  | .ok (some (.str s)) => (statusOf s).map some
  | _ => none

/-- A `HistoryMessage`, where its members are what they are cast to. -/
def historyMessage (v : Json) : Option HistoryMessage := do
  return ⟨← textMember "id" v, ← textMember "from" v, ← textMember "from_id" v,
    ← textMember "body" v, ← statusMember v, ← textMember "timestamp" v⟩

/-- What `fetchHistory` hands to the window, which ignores exceptions. -/
def fetchHistory (answer : Option HttpResponse) : Option (List HistoryMessage) :=
  match answer with
  | none => some []
  | some res =>
      if res.ok then
        match parse res.body with
        | some (.arr vs) => vs.mapM historyMessage
        | _ => some []
      else some []

/-- What the window is to make of a row. -/
def ofRow (fmt : Formats) (format : Nat → String) (row : PendingMessage) : HistoryMessage :=
  ⟨fmt.uuidString row.message.id, row.senderUsername, fmt.uuidString row.message.senderID,
    row.message.body, some row.message.status, format row.message.createdAt⟩

/-- A row of a history is read as it was written. -/
theorem historyMessage_row (fmt : Formats) (format : Nat → String) (row : PendingMessage) :
    historyMessage (.obj (historyFields fmt format row)) = some (ofRow fmt format row) := by
  obtain ⟨⟨id, chatID, senderID, body, status, createdAt⟩, name⟩ := row
  cases status <;> rfl

/-- **THE ROWS ARRIVE**, all of them and in order. -/
theorem history_read (fmt : Formats) (format : Nat → String) (rows : List PendingMessage) :
    fetchHistory (some ⟨200, historyBytes fmt format rows⟩)
      = some (rows.map (ofRow fmt format)) := by
  have hshaped : Shaped 2 (.arr (rows.map fun row => .obj (historyFields fmt format row))) := by
    refine .arr fun v hv => ?_
    obtain ⟨row, -, rfl⟩ := List.mem_map.mp hv
    refine .obj fun e he => ?_
    obtain ⟨s, hs⟩ : ∃ s, e.2 = .str s := by
      simp only [historyFields, List.mem_cons, List.not_mem_nil, or_false] at he
      rcases he with rfl | rfl | rfl | rfl | rfl | rfl <;> exact ⟨_, rfl⟩
    rw [hs]
    exact .str s
  have hparse : parse (historyBytes fmt format rows) = some _ := parse_write hshaped (by decide)
  show (match parse (historyBytes fmt format rows) with
    | some (.arr vs) => vs.mapM historyMessage
    | _ => some []) = _
  have hrows : (historyMessage ∘ fun row => .obj (historyFields fmt format row))
      = fun row => pure (ofRow fmt format row) :=
    funext fun row => historyMessage_row fmt format row
  rw [hparse]
  show (rows.map fun row => Json.obj (historyFields fmt format row)).mapM historyMessage = _
  rw [List.mapM_map, hrows]
  exact List.mapM_pure

end PeerWeb
