import PeerChat.GoUrlProofs
import PeerChat.SystemSessionProofs

/-! # A client and the system, over a network that loses things

    What a client can ask of the system before it has a connection: to be registered,
    to be logged in, and to be connected with the token it was handed.  Each request
    is one step of the system, or is lost on its way, or its answer is lost on the
    way back.

    A token that comes back was handed out to the name in the request
    (`issued_of_posted`), and a connection that comes through is that user's
    (`kept_dialed`), whatever everybody else does in between. -/

namespace PeerSystem

open PeerEnv KeyedTable PeerHub PeerStore PeerHandler PeerAuth PeerCluster GoUrl GoStrings
open SignedToken Transition

variable {σ ι : Type}

/-! ## The network -/

/-- The two handlers a body is posted to. -/
inductive Route where
  | register
  | login

def Route.path : Route → String
  | .register => "/auth/register"
  | .login => "/auth/login"

def Route.act : Route → AuthEnv σ → List UInt8 → Act ι σ
  | .register => .register
  | .login => .login

def Route.response (su : Setup σ) (s : System ι) : Route → AuthEnv σ → List UInt8 → Response
  | .register, env, body => (su.handler.register s.db env body).2
  | .login, env, body => su.handler.login s.db env body

/-- What a `GET` of the address presents. -/
def Presents (url : String) (p : Presented) : Prop :=
  p.authorization = "" ∧ utf8Bytes p.token = get (rawQuery url) (utf8Bytes "token")

section Network

variable [DecidableEq ι] (su : Setup σ) (who : ι → ClientId → UUID × String)

/-- A `POST`: the request may be lost, and so may the answer. -/
inductive Posted (r : Route) (body : List UInt8) (s : System ι) :
    Except String Response → System ι → Prop where
  | unheard (text : String) : Posted r body s (.error text) s
  | unanswered (text : String) (env : AuthEnv σ) (s' : System ι)
      (hs : step su who s (r.act env body) = some s') : Posted r body s (.error text) s'
  | answered (env : AuthEnv σ) (s' : System ι)
      (hs : step su who s (r.act env body) = some s') :
      Posted r body s (.ok (r.response su s env body)) s'

/-- A dial: a connection the server has accepted may still be lost. -/
inductive Dialed (url : String) (s : System ι) :
    Except String (ι × ClientId) → System ι → Prop where
  | unheard (text : String) : Dialed url s (.error text) s
  | unanswered (text : String) (i : ι) (now : Nat) (p : Presented) (c : ClientId) (s' : System ι)
      (hp : Presents url p) (hs : step su who s (.connect i now p c) = some s') :
      Dialed url s (.error text) s'
  | accepted (i : ι) (now : Nat) (p : Presented) (c : ClientId) (s' : System ι)
      (hp : Presents url p) (hs : step su who s (.connect i now p c) = some s')
      (hold : c ∉ s.conns i) (hnew : c ∈ s'.conns i) : Dialed url s (.ok (i, c)) s'

end Network

/-! ## What stays -/

/-- The system is sound, and has kept what it had. -/
structure Kept (su : Setup σ) (who : ι → ClientId → UUID × String) (db₀ : Db)
    (s s' : System ι) : Prop where
  sound : Sound su who db₀ (fun _ _ => True) s'
  issued : ∀ e ∈ s.issued, e ∈ s'.issued
  conns : ∀ i, ∀ c ∈ s.conns i, c ∈ s'.conns i
  grows : Grows s.db s'.db

variable {su : Setup σ} {who : ι → ClientId → UUID × String} {db₀ : Db} {s s' s'' : System ι}

/-- A system that does not move keeps all. -/
theorem Kept.refl (h : Sound su who db₀ (fun _ _ => True) s) : Kept su who db₀ s s where
  sound := h
  issued _ he := he
  conns _ _ hc := hc
  grows := Grows.refl s.db

/-- What is kept twice is kept. -/
theorem Kept.trans (h : Kept su who db₀ s s') (h' : Kept su who db₀ s' s'') :
    Kept su who db₀ s s'' where
  sound := h'.sound
  issued e he := h'.issued e (h.issued e he)
  conns i c hc := h'.conns i c (h.conns i c hc)
  grows := h.grows.trans h'.grows

variable [DecidableEq ι]

/-- A token that was handed out stays so. -/
theorem step_issued {a : Act ι σ} (h : step su who s a = some s') :
    ∀ e ∈ s.issued, e ∈ s'.issued := by
  cases step_cases h with
  | registered env body => exact fun e he => List.mem_append_left _ he
  | loggedIn env body => exact fun e he => List.mem_append_left _ he
  | _ => exact fun e he => he

/-- A connection that was accepted stays so. -/
theorem step_conns {a : Act ι σ} (h : step su who s a = some s') (i : ι) :
    ∀ c ∈ s.conns i, c ∈ s'.conns i := by
  cases step_cases h with
  | connected j now p c hp =>
      intro d hd
      show d ∈ Function.update s.conns j (c :: s.conns j) i
      by_cases hi : i = j
      · subst hi
        rw [Function.update_self]
        exact List.mem_cons_of_mem _ hd
      · rw [Function.update_of_ne hi]
        exact hd
  | _ => exact fun c hc => hc

/-- No step takes a user or a message out of the store. -/
theorem step_grows {a : Act ι σ} (hs : Sound su who db₀ (fun _ _ => True) s)
    (h : step su who s a = some s') : Grows s.db s'.db := by
  cases step_cases h with
  | registered env body =>
      rcases register_db su.handler s.db env body with hdb | ⟨username, hash, u, hcreate⟩
      · show Grows s.db (su.handler.register s.db env body).1
        rw [hdb]
        exact Grows.refl s.db
      · exact createUser_grows hcreate
  | received i c env raw hlive hfits =>
      exact (advance_receives (hs.fits i) (hs.conns i c (hs.tasks i _ hlive)) raw).grows
  | ran i k env t w t' new hk ht =>
      exact (advance_task (hs.fits i) (hs.tasks i t (List.mem_of_getElem? hk)) ht).grows
  | _ => exact Grows.refl s.db

/-- Anything but a forger's step. -/
theorem kept_step (hjwt : su.jwt.Lawful su.handler.lib) {a : Act ι σ}
    (hs : Sound su who db₀ (fun _ _ => True) s) (hG : Unforged su s a)
    (h : step su who s a = some s') : Kept su who db₀ s s' where
  sound := sound_step hjwt hs hG h fun _ _ _ => trivial
  issued := step_issued h
  conns := step_conns h
  grows := step_grows hs h

/-- The system stays where it is, or takes a step that is no forger's. -/
def Goes (su : Setup σ) (who : ι → ClientId → UUID × String) (s s' : System ι) : Prop :=
  s' = s ∨ ∃ a : Act ι σ, Unforged su s a ∧ step su who s a = some s'

/-- **A SOUND SYSTEM THAT GOES ON KEEPS ALL** that was handed out and stored. -/
theorem Goes.kept (hjwt : su.jwt.Lawful su.handler.lib)
    (hs : Sound su who db₀ (fun _ _ => True) s) (h : Goes su who s s') : Kept su who db₀ s s' := by
  rcases h with rfl | ⟨a, hG, hstep⟩
  · exact Kept.refl hs
  · exact kept_step hjwt hs hG hstep

/-- It stays sound, as long as `ever` takes in who joins. -/
theorem Goes.sound (hjwt : su.jwt.Lawful su.handler.lib) {ever : UUID → UUID → Prop}
    (hs : Sound su who db₀ ever s) (h : Goes su who s s') (hwithin : Within ever s') :
    Sound su who db₀ ever s' := by
  rcases h with rfl | ⟨a, hG, hstep⟩
  · exact hs
  · exact sound_step hjwt hs hG hstep hwithin

/-! ## A request -/

/-- A body is posted without a token. -/
theorem Posted.goes {r : Route} {body : List UInt8} {answer : Except String Response}
    (h : Posted su who r body s answer s') : Goes su who s s' := by
  have hG : ∀ env, Unforged su s (r.act env body) := by
    intro env p hp
    cases r <;> cases hp
  cases h with
  | unheard text => exact Or.inl rfl
  | unanswered text env _ hstep => exact Or.inr ⟨_, hG env, hstep⟩
  | answered env _ hstep => exact Or.inr ⟨_, hG env, hstep⟩

theorem kept_posted (hjwt : su.jwt.Lawful su.handler.lib) {r : Route} {body : List UInt8}
    {answer : Except String Response} (hs : Sound su who db₀ (fun _ _ => True) s)
    (h : Posted su who r body s answer s') : Kept su who db₀ s s' := h.goes.kept hjwt hs

/-- What a route hands out is in the ledger. -/
theorem issued_of_act {r : Route} {env : AuthEnv σ} {body : List UInt8}
    (h : step su who s (r.act env body) = some s') :
    ∀ e ∈ PeerAuth.issued env (r.response su s env body).body, e ∈ s'.issued := by
  cases r with
  | register =>
      cases step_cases h with
      | registered => exact fun e he => List.mem_append_right _ he
      | refused _ ha => cases ha
  | login =>
      cases step_cases h with
      | loggedIn => exact fun e he => List.mem_append_right _ he
      | refused _ ha => cases ha

omit [DecidableEq ι] in
/-- Either handler opens sessions for the username of its request only. -/
theorem response_username {r : Route} {env : AuthEnv σ} {body : List UInt8} {cred : Credentials}
    (hbody : decodeCredentials body = some cred) {token name : String} {userID : UUID}
    (h : (r.response su s env body).body = .session token userID name) : name = cred.username := by
  obtain ⟨type, req, hbind, hname⟩ : ∃ type req,
      bindJSON su.handler.lib.jsonError type body = .ok req ∧ req.username = name := by
    cases r with
    | register => exact ⟨_, register_username s.db env body h⟩
    | login =>
        obtain ⟨req, hbind, hname, -⟩ := login_session su.handler s.db env body
          (congrArg (Response.mk _) h)
        exact ⟨_, req, hbind, hname⟩
  have hreq := (bindJSON_ok_iff.mp hbind).1
  rw [hbody] at hreq
  rw [← hname, Option.some.inj hreq]

/-- **A TOKEN THAT COMES BACK** was handed out to the name in the request. -/
theorem issued_of_posted {r : Route} {body : List UInt8} {cred : Credentials}
    (hbody : decodeCredentials body = some cred) {response : Response}
    (h : Posted su who r body s (.ok response) s') {token name : String} {userID : UUID}
    (hsession : response.body = .session token userID name) :
    name = cred.username ∧
      ∃ e ∈ s'.issued, e.2 = token ∧ e.1.userID = userID ∧ e.1.username = name := by
  cases h with
  | answered env _ hs =>
      refine ⟨response_username hbody hsession, (sessionClaims env userID name, token), ?_, rfl,
        rfl, rfl⟩
      refine issued_of_act hs _ ?_
      rw [hsession]
      exact List.mem_singleton_self _

/-! ## A connection -/

/-- Signed strings need no escaping in an address. -/
def SafeTokens (su : Setup σ) : Prop :=
  ∀ claims key t, su.handler.lib.signedString claims key = some t →
    ∀ c ∈ t.toList, isUnreserved c = true

/-- An address without a query of its own. -/
def PlainAddress (url : String) : Prop := '?' ∉ url.toList ∧ '#' ∉ url.toList

omit [DecidableEq ι] in
theorem twoSetup_safe : SafeTokens twoSetup := by
  intro claims key t h
  have hmem : t ∈ twoTokens.map Prod.snd := by
    simp only [twoSetup, bookLibs] at h
    split at h
    · obtain ⟨e, he, rfl⟩ := Option.map_eq_some_iff.mp h
      exact List.mem_map_of_mem (List.mem_of_find?_eq_some he)
    · cases h
  have hall : (twoTokens.map Prod.snd).all (fun t => t.toList.all isUnreserved) = true := by
    decide +kernel
  exact List.all_eq_true.mp (List.all_eq_true.mp hall t hmem)

omit [DecidableEq ι] in
/-- **THE TOKEN ARRIVES AS IT WAS WRITTEN** into the address. -/
theorem presents_token {base token : String} (hbase : PlainAddress base)
    (htoken : ∀ c ∈ token.toList, isUnreserved c = true) {p : Presented}
    (hp : Presents (base ++ "/ws?token=" ++ token) p) : p.tokenStr = token := by
  have hplain : ∀ c, c ∉ base.toList → c ∉ "/ws".toList → c ∉ (base ++ "/ws").toList := by
    intro c hserver hpath hin
    rw [String.toList_append] at hin
    exact (List.mem_append.mp hin).elim hserver hpath
  have haddress : base ++ "/ws?token=" ++ token
      = base ++ "/ws" ++ String.ofList ('?' :: ("token".toList ++ '=' :: token.toList)) := by
    apply String.toList_inj.mp
    simp [String.toList_append]
  have hkey : ∀ c ∈ "token".toList, isUnreserved c = true := List.all_eq_true.mp (by decide)
  obtain ⟨hheader, hquery⟩ := hp
  rw [haddress] at hquery
  have hget := hquery.trans (get_appended (hplain '?' hbase.1 (by decide))
    (hplain '#' hbase.2 (by decide)) hkey htoken)
  obtain ⟨authorization, query⟩ := p
  obtain rfl : authorization = "" := hheader
  exact (tokenStr_of_query query).trans (utf8Bytes_injective hget)

omit [DecidableEq ι] in
/-- Whoever presents a token that was handed out passes as the user it was handed out to. -/
theorem held_passes (hjwt : su.jwt.Lawful su.handler.lib)
    (hs : Sound su who db₀ (fun _ _ => True) s) {e : Claims × String} (he : e ∈ s.issued)
    {p : Presented} (hp : p.tokenStr = e.2) :
    SignedToken.Unforged su.scheme su.handler.jwtSecret s.issued p.tokenStr ∧
      ∀ now user, jwtAuth su.jwt su.handler.jwtSecret now p = .ok user →
        user = (e.1.userID, e.1.username) := by
  have hcontent : su.jwt.content p.tokenStr = su.jwt.content e.2 := by rw [hp]
  refine ⟨unforged_signed (Jwt.scheme_lawful hjwt) hs.signed he hcontent, ?_⟩
  rintro now ⟨id, name⟩ hok
  obtain ⟨-, rfl, rfl⟩ := (hs.handedOut_iff hjwt he hcontent).mp hok
  rfl

/-- A token that was handed out is dialed with. -/
theorem Dialed.goes (hjwt : su.jwt.Lawful su.handler.lib) (hsafe : SafeTokens su)
    {base : String} (hbase : PlainAddress base) (hs : Sound su who db₀ (fun _ _ => True) s)
    {e : Claims × String} (he : e ∈ s.issued) {answer : Except String (ι × ClientId)}
    (h : Dialed su who (base ++ "/ws?token=" ++ e.2) s answer s') : Goes su who s s' := by
  have hG : ∀ i now p c, Presents (base ++ "/ws?token=" ++ e.2) p →
      Unforged su s (.connect i now p c) := by
    intro i now p c hp p' hp'
    cases hp'
    exact (held_passes hjwt hs he
      (presents_token hbase (hsafe _ _ _ (hs.signed e he)) hp)).1
  cases h with
  | unheard text => exact Or.inl rfl
  | unanswered text i now p c _ hp hstep => exact Or.inr ⟨_, hG i now p c hp, hstep⟩
  | accepted i now p c _ hp hstep hold hnew => exact Or.inr ⟨_, hG i now p c hp, hstep⟩

/-- **A CONNECTION THAT COMES THROUGH** is that of the user the token was handed out to. -/
theorem kept_dialed (hjwt : su.jwt.Lawful su.handler.lib) (hsafe : SafeTokens su)
    {base : String} (hbase : PlainAddress base) (hs : Sound su who db₀ (fun _ _ => True) s)
    {e : Claims × String} (he : e ∈ s.issued) {answer : Except String (ι × ClientId)}
    (h : Dialed su who (base ++ "/ws?token=" ++ e.2) s answer s') :
    Kept su who db₀ s s' ∧ ∀ c, answer = .ok c →
      c.2 ∈ s'.conns c.1 ∧ who c.1 c.2 = (e.1.userID, e.1.username) := by
  refine ⟨(h.goes hjwt hsafe hbase hs he).kept hjwt hs, ?_⟩
  intro d hd
  cases h with
  | unheard text => cases hd
  | unanswered text i now p c _ hp hstep => cases hd
  | accepted i now p c _ hp hstep hold hnew =>
      cases hd
      refine ⟨hnew, ?_⟩
      have hpasses := (held_passes hjwt hs he
        (presents_token hbase (hsafe _ _ _ (hs.signed e he)) hp)).2
      cases step_cases hstep with
      | refused _ _ => exact absurd hnew hold
      | connected _ _ _ _ hok => exact hpasses now _ hok

end PeerSystem
