import PeerChat.CliProofs
import PeerChat.SystemClientProofs

/-! # A terminal and the system

    Somebody sits at `cli/main.go` and types, and the instances go on meanwhile with
    everybody else's business.  A command of his is worked off against the system:
    each of its effects is served by a step of the system, or the network loses it,
    on its way or on the way back.

    His connection is that of the account he logged in as, whatever else he has
    typed and whatever was lost (`manned_run`): a registration changes the token and
    not the connection.  So what he types after `send` is dispatched in the name he
    logged in with (`typed_as_account`). -/

namespace PeerSystem

open PeerEnv JsonDecode PeerFrame PeerHub PeerStore PeerRedis PeerWorld PeerHandler PeerDispatch
open PeerAuth PeerCli PeerCluster GoUrl GoStrings Transition
open PeerWeb (maxMessageSize)

variable {σ ι : Type}

/-! ## Effects -/

section Effects

variable [DecidableEq ι] (su : Setup σ) (who : ι → ClientId → UUID × String)

/-- An effect, as far as the system notices it: what is written arrives whenever the
    server's `readPump` comes to it. -/
def Happens (cfg : Config) (net : Net (ι × ClientId)) (s s' : System ι) :
    Effect (ι × ClientId) → Prop
  | .post url body => ∃ (r : Route) (answer : Except String Response),
      url = cfg.serverURL ++ r.path ∧
      net.post = answer.map (fun response => answerBytes su.fmt response.body) ∧
      Posted su who r body s answer s'
  | .dial url => Dialed su who url s net.dial s'
  | _ => s' = s

/-- The effects of a command, one after the other. -/
inductive Served (cfg : Config) (net : Net (ι × ClientId)) :
    System ι → List (Effect (ι × ClientId)) → System ι → Prop where
  | done (s : System ι) : Served cfg net s [] s
  | next (s s₁ s₂ : System ι) (e : Effect (ι × ClientId)) (es : List (Effect (ι × ClientId)))
      (he : Happens su who cfg net s s₁ e) (h : Served cfg net s₁ es s₂) :
      Served cfg net s (e :: es) s₂
  /-- Somebody else's step. -/
  | meanwhile (s s₁ s₂ : System ι) (a : Act ι σ) (es : List (Effect (ι × ClientId)))
      (hG : Unforged su s a) (hs : step su who s a = some s₁) (h : Served cfg net s₁ es s₂) :
      Served cfg net s es s₂

end Effects

/-! ## The terminal -/

/-- The program, and the names its token and its connection are to stand for. -/
structure Terminal (ι : Type) where
  cli : Cli (ι × ClientId)
  holder : Option String
  account : Option String

def Terminal.fresh : Terminal ι := ⟨PeerCli.start, none, none⟩

/-- Whose the token is: his who was typed when the server last handed one out. -/
def holderAfter {κ : Type} (cfg : Config) (net : Net κ) (holder : Option String) :
    Cmd → Option String
  | .register username _ | .login username _ =>
      match authRequest cfg.float64 net.post with
      | .ok _ => some username
      | .error _ => holder
  | _ => holder

/-- Whose the connection is: his who last logged in, if that came through. -/
def accountAfter {κ : Type} (cfg : Config) (net : Net κ) (account : Option String) :
    Cmd → Option String
  | .login username _ =>
      match authRequest cfg.float64 net.post, net.dial with
      | .ok _, .ok _ => some username
      | .ok _, .error _ => none
      | .error _, _ => account
  | _ => account

/-- A line is typed. -/
def Terminal.typed (t : Terminal ι) (cfg : Config) (net : Net (ι × ClientId))
    (scanned : String) : Terminal ι :=
  let cmd := parseLine (trimSpace scanned)
  ⟨(exec cfg t.cli net scanned).1, holderAfter cfg net t.holder cmd,
    accountAfter cfg net t.account cmd⟩

section Runs

variable [DecidableEq ι] (su : Setup σ) (who : ι → ClientId → UUID × String)

/-- A turn of the loop, or a step of the others. -/
inductive Turn (cfg : Config) : System ι × Terminal ι → System ι × Terminal ι → Prop where
  | typed (s s' : System ι) (t : Terminal ι) (net : Net (ι × ClientId)) (line scanned : String)
      (hrun : t.cli.running = true) (hscan : scanLine line = some scanned)
      (h : Served su who cfg net s (exec cfg t.cli net scanned).2 s') :
      Turn cfg (s, t) (s', t.typed cfg net scanned)
  | meanwhile (s s' : System ι) (t : Terminal ι) (a : Act ι σ) (hG : Unforged su s a)
      (hs : step su who s a = some s') : Turn cfg (s, t) (s', t)

/-- What the terminal can come to. -/
def Runs (cfg : Config) (db₀ : Db) : System ι × Terminal ι → Prop :=
  Relation.ReflTransGen (Turn su who cfg) (start db₀ who, .fresh)

end Runs

variable {su : Setup σ} {who : ι → ClientId → UUID × String} {db₀ : Db} {cfg : Config}
  {s s' s'' : System ι} {t t' : Terminal ι} {net : Net (ι × ClientId)}

variable [DecidableEq ι]

/-! ## Every command -/

/-- **THE INVARIANT**: the token is its holder's, and the connection the account's. -/
structure Manned (su : Setup σ) (who : ι → ClientId → UUID × String) (db₀ : Db)
    (s : System ι) (t : Terminal ι) : Prop where
  sound : Sound su who db₀ (fun _ _ => True) s
  holder : t.cli.token = "" ∧ t.holder = none ∨
    ∃ e ∈ s.issued, e.2 = t.cli.token ∧ t.holder = some e.1.username
  account : t.account = t.cli.ws.map fun c => (who c.1 c.2).2
  conns : ∀ c ∈ t.cli.ws, c.2 ∈ s.conns c.1

omit [DecidableEq ι] in
/-- A terminal stays its account's whatever happens elsewhere. -/
theorem Manned.later (h : Manned su who db₀ s t) (hk : Kept su who db₀ s s') :
    Manned su who db₀ s' t where
  sound := hk.sound
  holder := h.holder.imp_right fun ⟨e, he, hheld⟩ => ⟨e, hk.issued e he, hheld⟩
  account := h.account
  conns c hc := hk.conns c.1 c.2 (h.conns c hc)

/-- An effect is served after some of the others' steps. -/
theorem served_cons (hjwt : su.jwt.Lawful su.handler.lib)
    {e : Effect (ι × ClientId)} {es : List (Effect (ι × ClientId))}
    (hs : Sound su who db₀ (fun _ _ => True) s) (h : Served su who cfg net s (e :: es) s') :
    ∃ s₁ s₂, Kept su who db₀ s s₁ ∧ Happens su who cfg net s₁ s₂ e ∧
      Served su who cfg net s₂ es s' := by
  generalize hl : e :: es = l at h
  induction h with
  | done s => cases hl
  | next s s₁ s₂ e' es' he h ih =>
      cases hl
      exact ⟨s, s₁, Kept.refl hs, he, h⟩
  | meanwhile s s₁ s₂ a es' hG hstep h ih =>
      have hk := kept_step hjwt hs hG hstep
      obtain ⟨s₃, s₄, hk', he, hrest⟩ := ih hk.sound hl
      exact ⟨s₃, s₄, hk.trans hk', he, hrest⟩

/-- A line that asks nothing of the network leaves the server to the others. -/
theorem served_nil (hjwt : su.jwt.Lawful su.handler.lib)
    (hs : Sound su who db₀ (fun _ _ => True) s) (h : Served su who cfg net s [] s') :
    Kept su who db₀ s s' := by
  generalize hl : [] = l at h
  induction h with
  | done s => exact Kept.refl hs
  | next s s₁ s₂ e es he h ih => cases hl
  | meanwhile s s₁ s₂ a es hG hstep h ih =>
      have hk := kept_step hjwt hs hG hstep
      exact hk.trans (ih hk.sound hl)

/-- Does the effect wait for an answer of the server? -/
def awaits : Effect (ι × ClientId) → Bool
  | .post _ _ => true
  | .dial _ => true
  | _ => false

/-- What is printed and what is written changes nothing here and now. -/
theorem served_beside (hjwt : su.jwt.Lawful su.handler.lib)
    {es : List (Effect (ι × ClientId))} (hes : ∀ e ∈ es, awaits e = false)
    (hs : Sound su who db₀ (fun _ _ => True) s) (h : Served su who cfg net s es s') :
    Kept su who db₀ s s' := by
  induction es generalizing s with
  | nil => exact served_nil hjwt hs h
  | cons e es ih =>
      obtain ⟨s₁, s₂, hk, hhappens, hrest⟩ := served_cons hjwt hs h
      have hsame : s₂ = s₁ := by
        have he := hes e List.mem_cons_self
        cases e with
        | post url body => cases he
        | dial url => cases he
        | _ => exact hhappens
      rw [hsame] at hrest
      exact hk.trans (ih (fun e' he' => hes e' (List.mem_cons_of_mem e he')) hk.sound hrest)

/-- A request, and what is printed of it. -/
theorem served_post (hjwt : su.jwt.Lawful su.handler.lib) {url username password : String}
    {es : List (Effect (ι × ClientId))} (hs : Sound su who db₀ (fun _ _ => True) s)
    (h : Served su who cfg net s (.post url (authBody username password) :: es) s') :
    ∃ s₁, Kept su who db₀ s s₁ ∧ Served su who cfg net s₁ es s' ∧
      ∀ token, authRequest cfg.float64 net.post = .ok token →
        ∃ e ∈ s₁.issued, e.2 = token ∧ e.1.username = username := by
  obtain ⟨s₁, s₂, hk, ⟨r, answer, -, hanswer, hposted⟩, hrest⟩ := served_cons hjwt hs h
  refine ⟨s₂, hk.trans (kept_posted hjwt hk.sound hposted), hrest, ?_⟩
  intro token hauth
  cases answer with
  | error text =>
      rw [hanswer] at hauth
      cases hauth
  | ok response =>
      rw [hanswer, Except.map, authRequest_answer] at hauth
      cases hbody : response.body with
      | error text =>
          rw [hbody] at hauth
          cases hauth
      | session token' userID name =>
          rw [hbody] at hauth
          cases hauth
          obtain ⟨hname, e, he, ht, -, hentry⟩ :=
            issued_of_posted (credentials_read username password) hposted hbody
          exact ⟨e, he, ht, hentry.trans hname⟩

/-- The address the CLI dials. -/
def dialBase (cfg : Config) : String :=
  replaceFirst (replaceFirst cfg.serverURL "http://" "ws://") "https://" "wss://"

omit [DecidableEq ι] in
theorem dialBase_plain (h : PlainAddress cfg.serverURL) : PlainAddress (dialBase cfg) := by
  have hplain : ∀ c, c ∉ cfg.serverURL.toList → c ∉ "ws://".toList → c ∉ "wss://".toList →
      c ∉ (dialBase cfg).toList := by
    intro c hserver hws hwss hin
    rcases mem_replaceFirst hin with hin | hin
    · exact (mem_replaceFirst hin).elim hserver hws
    · exact hwss hin
  exact ⟨hplain '?' h.1 (by decide) (by decide), hplain '#' h.2 (by decide) (by decide)⟩

/-- A connection, with the token that has just come back. -/
theorem served_dial (hjwt : su.jwt.Lawful su.handler.lib) (hsafe : SafeTokens su)
    (hurl : PlainAddress cfg.serverURL) (hs : Sound su who db₀ (fun _ _ => True) s)
    {token username : String} (htoken : ∃ e ∈ s.issued, e.2 = token ∧ e.1.username = username)
    {es : List (Effect (ι × ClientId))}
    (h : Served su who cfg net s (.dial (wsURL cfg.serverURL token) :: es) s') :
    ∃ s₁, Kept su who db₀ s s₁ ∧ Served su who cfg net s₁ es s' ∧
      (∃ e ∈ s₁.issued, e.2 = token ∧ e.1.username = username) ∧
      ∀ c, net.dial = .ok c → c.2 ∈ s₁.conns c.1 ∧ (who c.1 c.2).2 = username := by
  obtain ⟨e, he, rfl, rfl⟩ := htoken
  obtain ⟨s₁, s₂, hk, hdialed, hrest⟩ := served_cons hjwt hs h
  obtain ⟨hk', hconn⟩ :=
    kept_dialed hjwt hsafe (dialBase_plain hurl) hk.sound (hk.issued e he) hdialed
  have hboth := hk.trans hk'
  refine ⟨s₂, hboth, hrest, ⟨e, hboth.issued e he, rfl, rfl⟩, fun c hc => ?_⟩
  obtain ⟨hin, hwho⟩ := hconn c hc
  exact ⟨hin, congrArg Prod.snd hwho⟩

/-- **A COMMAND KEEPS THE INVARIANT.** -/
theorem manned_cmd (hjwt : su.jwt.Lawful su.handler.lib) (hsafe : SafeTokens su)
    (hurl : PlainAddress cfg.serverURL) (h : Manned su who db₀ s t) (c : Cmd)
    (hserved : Served su who cfg net s (execCmd cfg t.cli net c).2 s') :
    Manned su who db₀ s' ⟨(execCmd cfg t.cli net c).1, holderAfter cfg net t.holder c,
      accountAfter cfg net t.account c⟩ := by
  -- nothing but printing and writing, and the variables stay
  have hquiet : ∀ es : List (Effect (ι × ClientId)),
      (∀ e ∈ es, awaits e = false) → Served su who cfg net s es s' → Manned su who db₀ s' t :=
    fun es hes hes' => h.later (served_beside hjwt hes h.sound hes')
  cases c with
  | usage text => exact hquiet _ (by simp [execCmd, awaits]) hserved
  | unknown cmd => exact hquiet _ (by simp [execCmd, awaits]) hserved
  | ping =>
      simp only [execCmd] at hserved ⊢
      cases hws : t.cli.ws with
      | none =>
          rw [hws] at hserved
          exact hquiet _ (by simp [awaits]) hserved
      | some conn =>
          rw [hws] at hserved
          exact hquiet _ (by simp [awaits]) hserved
  | send dest text =>
      simp only [execCmd] at hserved ⊢
      cases hws : t.cli.ws with
      | none =>
          rw [hws] at hserved
          exact hquiet _ (by simp [awaits]) hserved
      | some conn =>
          rw [hws] at hserved
          cases hwrite : net.write with
          | error e =>
              simp only [hwrite] at hserved
              exact hquiet _ (by simp [awaits]) hserved
          | ok _ =>
              simp only [hwrite] at hserved
              exact hquiet _ (by simp [awaits]) hserved
  | quit =>
      have hkept := hquiet _ (by cases hws : t.cli.ws <;> simp [execCmd, hws, awaits]) hserved
      exact ⟨hkept.sound, hkept.holder, hkept.account, hkept.conns⟩
  | register username password =>
      simp only [execCmd, holderAfter] at hserved ⊢
      cases hauth : authRequest cfg.float64 net.post with
      | error e =>
          simp only [hauth] at hserved
          obtain ⟨s₁, hk, hrest, -⟩ := served_post hjwt h.sound hserved
          exact (h.later hk).later (served_beside hjwt (by simp [awaits]) hk.sound hrest)
      | ok token =>
          simp only [hauth] at hserved
          obtain ⟨s₁, hk, hrest, htoken⟩ := served_post hjwt h.sound hserved
          obtain ⟨e, he, rfl, rfl⟩ := htoken token hauth
          have hkept := (h.later hk).later
            (served_beside hjwt (by simp [awaits]) hk.sound hrest)
          refine ⟨hkept.sound, Or.inr ⟨e, ?_, rfl, rfl⟩, hkept.account, hkept.conns⟩
          exact (served_beside hjwt (by simp [awaits]) hk.sound hrest).issued e he
  | login username password =>
      simp only [execCmd, holderAfter, accountAfter] at hserved ⊢
      cases hauth : authRequest cfg.float64 net.post with
      | error e =>
          simp only [hauth] at hserved
          obtain ⟨s₁, hk, hrest, -⟩ := served_post hjwt h.sound hserved
          exact (h.later hk).later (served_beside hjwt (by simp [awaits]) hk.sound hrest)
      | ok token =>
          simp only [hauth] at hserved
          cases hdial : net.dial with
          | error text =>
              simp only [hdial] at hserved
              obtain ⟨s₁, hk, hrest, htoken⟩ := served_post hjwt h.sound hserved
              obtain ⟨s₂, hk', hend, hentry, -⟩ :=
                served_dial hjwt hsafe hurl hk.sound (htoken token hauth) hrest
              have hlast := served_beside hjwt (by simp [awaits]) hk'.sound hend
              refine ⟨hlast.sound, Or.inr ?_, rfl, fun c hc => by cases hc⟩
              obtain ⟨e, he, rfl, rfl⟩ := hentry
              exact ⟨e, hlast.issued e he, rfl, rfl⟩
          | ok conn =>
              simp only [hdial] at hserved
              obtain ⟨s₁, hk, hrest, htoken⟩ := served_post hjwt h.sound hserved
              obtain ⟨s₂, hk', hend, hentry, hconn⟩ :=
                served_dial hjwt hsafe hurl hk.sound (htoken token hauth) hrest
              have hlast := served_beside hjwt (by simp [awaits]) hk'.sound hend
              obtain ⟨hin, hname⟩ := hconn conn hdial
              refine ⟨hlast.sound, Or.inr ?_, ?_, ?_⟩
              · obtain ⟨e, he, rfl, rfl⟩ := hentry
                exact ⟨e, hlast.issued e he, rfl, rfl⟩
              · show some username = some (who conn.1 conn.2).2
                rw [hname]
              · intro c hc
                obtain rfl : conn = c := Option.some.inj hc
                exact hlast.conns _ _ hin

/-! ## Every run -/

omit [DecidableEq ι] in
/-- At the start nobody is logged in. -/
theorem manned_start (su : Setup σ) (who : ι → ClientId → UUID × String) (db₀ : Db) :
    Manned su who db₀ (start db₀ who) .fresh where
  sound := sound_start su db₀ who fun _ _ _ => trivial
  holder := Or.inl ⟨rfl, rfl⟩
  account := rfl
  conns c hc := by cases hc

/-- **THE STEP LEMMA.** -/
theorem manned_turn (hjwt : su.jwt.Lawful su.handler.lib) (hsafe : SafeTokens su)
    (hurl : PlainAddress cfg.serverURL) {p p' : System ι × Terminal ι}
    (h : Manned su who db₀ p.1 p.2) (hturn : Turn su who cfg p p') :
    Manned su who db₀ p'.1 p'.2 := by
  cases hturn with
  | meanwhile s s' t a hG hs => exact h.later (kept_step hjwt h.sound hG hs)
  | typed s s' t net line scanned hrun hscan hserved =>
      show Manned su who db₀ s' (t.typed cfg net scanned)
      rw [exec] at hserved
      rw [Terminal.typed, exec]
      by_cases hblank : trimSpace scanned = ""
      · have hparse : parseLine "" = .unknown "" := by decide
        simp only [hblank, if_true, hparse] at hserved ⊢
        exact h.later (served_nil hjwt h.sound hserved)
      · simp only [hblank, if_false] at hserved ⊢
        exact manned_cmd hjwt hsafe hurl h _ hserved

/-- **THE RUN LEMMA.** -/
theorem manned_run (hjwt : su.jwt.Lawful su.handler.lib) (hsafe : SafeTokens su)
    (hurl : PlainAddress cfg.serverURL) {p : System ι × Terminal ι}
    (hr : Runs su who cfg db₀ p) : Manned su who db₀ p.1 p.2 := by
  induction hr with
  | refl => exact manned_start su who db₀
  | tail _ hturn ih => exact manned_turn hjwt hsafe hurl ih hturn

/-- What is written on connections. -/
def writes {κ : Type} (es : List (Effect κ)) : List (κ × List UInt8) :=
  es.filterMap fun e => match e with
    | .write conn data => some (conn, data)
    | _ => none

/-- A typed `send` writes its frame on the connection there is. -/
theorem writes_send {κ : Type} (cfg : Config) (cli : Cli κ) (net : Net κ)
    {scanned dest text : String} (hline : parseLine (trimSpace scanned) = .send dest text) :
    writes (exec cfg cli net scanned).2
      = (cli.ws.map fun conn => (conn, sendFrame cfg.pid dest text)).toList := by
  have hne : trimSpace scanned ≠ "" := by
    intro hblank
    have hparse : parseLine "" = .unknown "" := by decide
    rw [hblank, hparse] at hline
    cases hline
  rw [exec, hline]
  simp only [hne, if_false, execCmd]
  cases cli.ws with
  | none => rfl
  | some conn => cases net.write <;> rfl

/-- The call of `HandleDM` that a line after `send` is meant to be. -/
def typedCall (cfg : Config) (id : UUID) (name : String) (receiverID : UUID) (text : String) :
    DmCall :=
  ⟨id, name, receiverID, text, "cli-" ++ toString cfg.pid⟩

/-- What the server makes of the frame. -/
theorem receives_send (su : Setup σ) (cfg : Config) (w : World) (env : Env) (id : UUID)
    (name dest text : String) :
    (receives su.fmt w env id name (sendFrame cfg.pid dest text)).2 =
      if (w.redis.allow newLimiter env id).2 then
        ((su.fmt.uuidParse dest).map fun receiverID =>
          Task.socket (.dmFind (typedCall cfg id name receiverID text))).toList
      else [] := by
  obtain ⟨hkind, hparse⟩ := send_parsed su.fmt id name cfg.pid dest text
  simp only [receives, hkind, Kind.limited, if_true]
  cases hallow : (w.redis.allow newLimiter env id).2 with
  | false => simp
  | true =>
      simp only [if_true, begins, hparse]
      cases su.fmt.uuidParse dest <;> rfl

/-- **WHEN THE SERVER READS THE FRAME**: it fits, or the `readPump` hands nothing over. -/
theorem step_send (su : Setup σ) (who : ι → ClientId → UUID × String) (cfg : Config)
    {s₁ : System ι} {i : ι} {c : ClientId} (env : Env) (dest text : String)
    (hup : (s₁.hub i).panic = none) (hlive : .socket (.live c) ∈ s₁.tasks i) :
    (step su who s₁ (.payload i c env (sendFrame cfg.pid dest text))).map (fun s₂ => s₂.tasks i)
      = if (sendFrame cfg.pid dest text).length ≤ maxMessageSize then
          some (s₁.tasks i ++ if ((s₁.world i).redis.allow newLimiter env (who i c).1).2 then
            ((su.fmt.uuidParse dest).map fun receiverID => Task.socket
              (.dmFind (typedCall cfg (who i c).1 (who i c).2 receiverID text))).toList
          else [])
        else none := by
  have hany : (s₁.tasks i).any (isLive c) = true :=
    List.any_eq_true.mpr ⟨_, hlive, isLive_iff.mpr rfl⟩
  rw [step, if_neg (by simp [Act.on, hup]), stepOn]
  by_cases hfits : (sendFrame cfg.pid dest text).length ≤ maxMessageSize
  · rw [if_pos ⟨hany, hfits⟩, if_pos hfits, ← receives_send su cfg (s₁.world i) env]
    simp [System.set]
  · rw [if_neg fun h => hfits h.2, if_neg hfits]
    rfl

-- ── Dave logs in and writes ───────────────────────────────────────────────────

def daveCli : Config := ⟨"http://localhost:8080", 7, plainFormats.float64⟩

omit [DecidableEq ι] in
/-- The two clients post the same credentials. -/
theorem login_authBody (h : Handler σ) (db : Db) (env : AuthEnv σ) (username password : String) :
    h.login db env (authBody username password)
      = h.login db env (Credentials.mk username password).json := by
  have hbind : ∀ jsonError type, bindJSON jsonError type (authBody username password)
      = bindJSON jsonError type (Credentials.mk username password).json := by
    intro jsonError type
    rw [bindJSON, bindJSON, credentials_read, decodeCredentials_json]
  rw [Handler.login, Handler.login, hbind]

/-- Dave registers in his browser; his login is answered, and then his connection. -/
theorem dave_answered : ∃ s₁ s₂ s₃,
    step twoSetup daveAndErin (start threeUsers daveAndErin)
      (.register daveEnv (Credentials.mk "dave" "secret").json) = some s₁ ∧
    (twoSetup.handler.login s₁.db daveEnv (authBody "dave" "secret")).body
      = .session "d" ⟨9⟩ "dave" ∧
    step twoSetup daveAndErin s₁ (.login daveEnv (authBody "dave" "secret")) = some s₂ ∧
    step twoSetup daveAndErin s₂ (.connect () 2 ⟨"", "d"⟩ 0) = some s₃ ∧
    0 ∉ s₂.conns () ∧ 0 ∈ s₃.conns () := by
  have hrun : (step twoSetup daveAndErin (start threeUsers daveAndErin)
      (.register daveEnv (Credentials.mk "dave" "secret").json)).any (fun s₁ =>
        decide ((twoSetup.handler.login s₁.db daveEnv (Credentials.mk "dave" "secret").json).body
          = .session "d" ⟨9⟩ "dave") &&
        (step twoSetup daveAndErin s₁ (.login daveEnv (Credentials.mk "dave" "secret").json)).any
          fun s₂ => (step twoSetup daveAndErin s₂ (.connect () 2 ⟨"", "d"⟩ 0)).any
            fun s₃ => decide (0 ∉ s₂.conns () ∧ 0 ∈ s₃.conns ())) = true := by
    decide +kernel
  obtain ⟨s₁, hs₁, hrun⟩ := (Option.any_eq_true _ _).mp hrun
  obtain ⟨hbody, hrun⟩ := (Bool.and_eq_true _ _).mp hrun
  obtain ⟨s₂, hs₂, hrun⟩ := (Option.any_eq_true _ _).mp hrun
  obtain ⟨s₃, hs₃, hconns⟩ := (Option.any_eq_true _ _).mp hrun
  refine ⟨s₁, s₂, s₃, hs₁, ?_, ?_, hs₃, of_decide_eq_true hconns⟩
  · rw [login_authBody]
    exact of_decide_eq_true hbody
  · rw [← hs₂, step, step, stepOn, stepOn, login_authBody]
    rfl

/-- He logs in at a terminal. -/
theorem dave_typed : ∃ s t, Runs twoSetup daveAndErin daveCli threeUsers (s, t) ∧
    t.account = some "dave" := by
  obtain ⟨s₁, s₂, s₃, hregister, hbody, hlogin, hconnect, hold, hnew⟩ := dave_answered
  let net : Net (Unit × ClientId) :=
    ⟨.ok (answerBytes twoSetup.fmt (.session "d" ⟨9⟩ "dave")), .ok ((), 0), .ok ()⟩
  have hline : parseLine (trimSpace "login dave secret") = .login "dave" "secret" := by
    decide +kernel
  have hscan : scanLine "login dave secret" = some "login dave secret" := by decide +kernel
  have hauth : authRequest daveCli.float64 net.post = .ok "d" := authRequest_answer _ _ _
  have hposted : Posted twoSetup daveAndErin .login (authBody "dave" "secret") s₁
      (.ok (twoSetup.handler.login s₁.db daveEnv (authBody "dave" "secret"))) s₂ :=
    .answered daveEnv s₂ hlogin
  have hpresents : Presents (wsURL daveCli.serverURL "d") ⟨"", "d"⟩ := ⟨rfl, by decide +kernel⟩
  have hdialed : Dialed twoSetup daveAndErin (wsURL daveCli.serverURL "d") s₂ net.dial s₃ :=
    .accepted () 2 ⟨"", "d"⟩ 0 s₃ hpresents hconnect hold hnew
  have hexec : (exec daveCli PeerCli.start net "login dave secret").2
      = [.post (daveCli.serverURL ++ Route.login.path) (authBody "dave" "secret"),
        .dial (wsURL daveCli.serverURL "d"), .print (.line "connected.")] := by
    have hne : trimSpace "login dave secret" ≠ "" := by decide +kernel
    rw [exec, hline]
    simp only [hne, if_false, execCmd, hauth]
    rfl
  have hserved : Served twoSetup daveAndErin daveCli net s₁
      (exec daveCli PeerCli.start net "login dave secret").2 s₃ := by
    rw [hexec]
    exact .next _ _ _ _ _ ⟨.login, _, rfl, by rw [Except.map, hbody], hposted⟩
      (.next _ _ _ _ _ hdialed (.next _ _ _ _ _ rfl (.done s₃)))
  refine ⟨s₃, Terminal.fresh.typed daveCli net "login dave secret", ?_, ?_⟩
  · refine .tail (.tail .refl (.meanwhile _ s₁ _ _ ?_ hregister))
      (.typed _ _ _ net _ _ rfl hscan hserved)
    intro p hp
    cases hp
  · rw [Terminal.typed, hline]
    simp only [accountAfter, hauth]
    rfl

/-- **AS IT WAS TYPED, BY WHO LOGGED IN**: a line after `send` is written to no connection
    before a login has come through; from then on to one that the server has accepted for
    the stored user of that name.  If the frame is not too long for its `readPump`, it
    starts `HandleDM` with that sender, that name and that text, if the receiver is one and
    the limiter allows it, and nothing else; a frame that is too long starts nothing.  A
    terminal that is sent the stored message shows the name and the text. -/
theorem typed_as_account (hjwt : su.jwt.Lawful su.handler.lib) (hsafe : SafeTokens su)
    (hurl : PlainAddress cfg.serverURL) (hr : Runs su who cfg db₀ (s, t))
    (net : Net (ι × ClientId)) {scanned dest text : String}
    (hline : parseLine (trimSpace scanned) = .send dest text) :
    (t.account = none → writes (exec cfg t.cli net scanned).2 = []) ∧
    ∀ name, t.account = some name →
      ∃ i c id, who i c = (id, name) ∧ c ∈ s.conns i ∧ Named s.db id name ∧
        writes (exec cfg t.cli net scanned).2 = [((i, c), sendFrame cfg.pid dest text)] ∧
        (∀ (s₁ : System ι) env, (s₁.hub i).panic = none → .socket (.live c) ∈ s₁.tasks i →
          (step su who s₁ (.payload i c env (sendFrame cfg.pid dest text))).map
              (fun s₂ => s₂.tasks i)
            = if (sendFrame cfg.pid dest text).length ≤ maxMessageSize then
                some (s₁.tasks i ++ if ((s₁.world i).redis.allow newLimiter env id).2 then
                  ((su.fmt.uuidParse dest).map fun receiverID =>
                    Task.socket (.dmFind (typedCall cfg id name receiverID text))).toList
                else [])
              else none) ∧
        ∀ receiverID stored num, stored.body = text →
          receive num (frameBytes su.fmt ((typedCall cfg id name receiverID text).outbound stored))
            = some (.msg (some (.str name)) (some (.str text))) := by
  have h := manned_run hjwt hsafe hurl hr
  have haccount : t.account = t.cli.ws.map fun c => (who c.1 c.2).2 := h.account
  rw [writes_send cfg t.cli net hline]
  cases hws : t.cli.ws with
  | none =>
      rw [hws] at haccount
      refine ⟨fun _ => rfl, fun name hname => ?_⟩
      rw [haccount] at hname
      cases hname
  | some conn =>
      obtain ⟨i, c⟩ := conn
      rw [hws] at haccount
      refine ⟨fun hnone => ?_, fun name hname => ?_⟩
      · rw [haccount] at hnone
        cases hnone
      · rw [haccount] at hname
        obtain rfl : (who i c).2 = name := Option.some.inj hname
        have hc : c ∈ s.conns i := h.conns (i, c) hws
        obtain ⟨e, he, hid, hname⟩ := h.sound.conns i c hc
        have hnamed : Named s.db (who i c).1 (who i c).2 := by
          rw [← hid, ← hname]
          exact h.sound.named e he
        refine ⟨i, c, (who i c).1, rfl, hc, hnamed, rfl, ?_, ?_⟩
        · exact fun s₁ env hup hlive => step_send su who cfg env dest text hup hlive
        · rintro receiverID stored num rfl
          exact receive_outbound su.fmt num _ stored

/-- What dave types after `send` starts `HandleDM` in his name, wherever his connection is
    live. -/
theorem typed_as_account_dave : ∃ s t, Runs twoSetup daveAndErin daveCli threeUsers (s, t) ∧
    ∃ i c id data, daveAndErin i c = (id, "dave") ∧ c ∈ s.conns i ∧ Named s.db id "dave" ∧
      writes (exec daveCli t.cli ⟨.error "", .error "", .ok ()⟩
        "send 00000000-0000-0000-0000-000000000008 hi").2 = [((i, c), data)] ∧
      ∀ s₁ env, (s₁.hub i).panic = none → .socket (.live c) ∈ s₁.tasks i →
        (step twoSetup daveAndErin s₁ (.payload i c env data)).map (fun s₂ => s₂.tasks i)
          = some (s₁.tasks i ++ if ((s₁.world i).redis.allow newLimiter env id).2 then
              [.socket (.dmFind (typedCall daveCli id "dave" ⟨8⟩ "hi"))]
            else []) := by
  obtain ⟨s, t, hruns, haccount⟩ := dave_typed
  have hline : parseLine (trimSpace "send 00000000-0000-0000-0000-000000000008 hi")
      = .send "00000000-0000-0000-0000-000000000008" "hi" := by
    decide +kernel
  have herin : plainFormats.uuidParse "00000000-0000-0000-0000-000000000008" = some ⟨8⟩ := by
    decide +kernel
  have hfits : (sendFrame daveCli.pid "00000000-0000-0000-0000-000000000008" "hi").length
      ≤ maxMessageSize := by
    rw [sendFrame_write]
    decide +kernel
  obtain ⟨i, c, id, hwho, hc, hnamed, hwrites, hstarts, -⟩ :=
    (typed_as_account twoSetup_lawful twoSetup_safe ⟨by decide +kernel, by decide +kernel⟩ hruns
      ⟨.error "", .error "", .ok ()⟩ hline).2 "dave" haccount
  refine ⟨s, t, hruns, i, c, id, _, hwho, hc, hnamed, hwrites, fun s₁ env hup hlive => ?_⟩
  have hstep := hstarts s₁ env hup hlive
  rw [if_pos hfits, show twoSetup.fmt.uuidParse _ = some ⟨8⟩ from herin] at hstep
  exact hstep

end PeerSystem
