import PeerChat.SystemBrowserProofs

/-! # What holds of every visit

    A browser that has never been here comes to the site.  Whatever its user, the
    network and everybody else do, its form tells what the server said
    (`form_tells`), it is who it says it is (`browser_is_user`), and every message it
    shows is genuine (`every_message_is_genuine`). -/

namespace PeerSystem

open PeerEnv KeyedTable PeerFrame PeerHub PeerStore PeerHandler PeerAuth PeerCluster
open GoMarshal Transition
open PeerWeb (Auth ChatStore Incoming)

variable {σ ι : Type} {site : Site} [DecidableEq ι] {su : Setup σ}
  {who : ι → ClientId → UUID × String} {db₀ : Db} {s s' : System ι} {b : Browser ι}

-- ── Erin registers in her browser, and dave writes to her ─────────────────────

def erinSite : Site :=
  ⟨"http://localhost:8080", "ws://localhost:8080", fun t => toString t, PeerWeb.sampleTime⟩

def erinAuth : Auth := ⟨"e", plainFormats.uuidString ⟨8⟩, "erin"⟩

/-- What is left of the run once erin is connected. -/
def daveGreets : List (Act Unit Unit) :=
  .connect () 2 ⟨"Bearer d", ""⟩ 0 ::
  List.replicate 6 (.run () 0 PeerServer.fineEnv) ++
  List.replicate 6 (.run () 1 PeerServer.fineEnv) ++
  .payload () 0 PeerServer.fineEnv hiErin :: List.replicate 5 (.run () 4 PeerServer.fineEnv)

/-- The frame that carries dave's message. -/
def daveSays (e : ClientId × Frame) : Bool :=
  match e with
  | (c, .message sender fromID body _ _) => c = 1 && sender = "dave" && fromID = ⟨9⟩ && body = "hi"
  | _ => false

theorem erin_answered : ∃ s₁ s₂ s₃ s₄,
    step twoSetup daveAndErin (start threeUsers daveAndErin)
      (.register daveEnv (Credentials.mk "dave" "secret").json) = some s₁ ∧
    (twoSetup.handler.register s₁.db erinEnv (Credentials.mk "erin" "secret").json).2
      = ⟨201, .session "e" ⟨8⟩ "erin"⟩ ∧
    step twoSetup daveAndErin s₁ (.register erinEnv (Credentials.mk "erin" "secret").json)
      = some s₂ ∧
    step twoSetup daveAndErin s₂ (.connect () 2 ⟨"", "e"⟩ 1) = some s₃ ∧
    1 ∉ s₂.conns () ∧ 1 ∈ s₃.conns () ∧
    Reach (step twoSetup daveAndErin) (Unforged twoSetup) s₃ s₄ ∧
    (s₄.hub ()).log.any daveSays = true := by
  have hrun : (step twoSetup daveAndErin (start threeUsers daveAndErin)
      (.register daveEnv (Credentials.mk "dave" "secret").json)).any (fun s₁ =>
        decide ((twoSetup.handler.register s₁.db erinEnv (Credentials.mk "erin" "secret").json).2
          = ⟨201, .session "e" ⟨8⟩ "erin"⟩) &&
        (step twoSetup daveAndErin s₁ (.register erinEnv (Credentials.mk "erin" "secret").json)).any
          fun s₂ => (step twoSetup daveAndErin s₂ (.connect () 2 ⟨"", "e"⟩ 1)).any
            fun s₃ => decide (1 ∉ s₂.conns () ∧ 1 ∈ s₃.conns ()) &&
              (replay (step twoSetup daveAndErin) holds s₃ daveGreets).any
                fun s₄ => (s₄.hub ()).log.any daveSays) = true := by
    decide +kernel
  obtain ⟨s₁, hs₁, hrun⟩ := (Option.any_eq_true _ _).mp hrun
  obtain ⟨hbody, hrun⟩ := (Bool.and_eq_true _ _).mp hrun
  obtain ⟨s₂, hs₂, hrun⟩ := (Option.any_eq_true _ _).mp hrun
  obtain ⟨s₃, hs₃, hrun⟩ := (Option.any_eq_true _ _).mp hrun
  obtain ⟨hconns, hrun⟩ := (Bool.and_eq_true _ _).mp hrun
  obtain ⟨s₄, hs₄, hlog⟩ := (Option.any_eq_true _ _).mp hrun
  obtain ⟨hold, hnew⟩ := of_decide_eq_true hconns
  exact ⟨s₁, s₂, s₃, s₄, hs₁, of_decide_eq_true hbody, hs₂, hs₃, hold, hnew,
    reach_of_replay unforged_of_holds daveGreets hs₄, hlog⟩

/-- Her form, once the server has answered. -/
def erinForm : Form :=
  ⟨.register, "erin", "secret",
    [some (PeerWeb.arrived plainFormats ⟨201, .session "e" ⟨8⟩ "erin"⟩)]⟩

theorem erin_submits {s₁ s₂ : System Unit}
    (hdave : step twoSetup daveAndErin (start threeUsers daveAndErin)
      (.register daveEnv (Credentials.mk "dave" "secret").json) = some s₁)
    (hanswer : (twoSetup.handler.register s₁.db erinEnv (Credentials.mk "erin" "secret").json).2
      = ⟨201, .session "e" ⟨8⟩ "erin"⟩)
    (herin : step twoSetup daveAndErin s₁
      (.register erinEnv (Credentials.mk "erin" "secret").json) = some s₂) :
    Visits twoSetup daveAndErin erinSite threeUsers
      (s₂, { Browser.fresh with form := some erinForm }) := by
  let form : Form := ⟨.register, "erin", "secret", []⟩
  let response : Response := ⟨201, .session "e" ⟨8⟩ "erin"⟩
  have hposted : Posted twoSetup daveAndErin .register (Credentials.json ⟨"erin", "secret"⟩) s₁
      (.ok response) s₂ := by
    have hresponse : Route.register.response twoSetup s₁ erinEnv
        (Credentials.json ⟨"erin", "secret"⟩) = response := hanswer
    rw [← hresponse]
    exact .answered erinEnv s₂ herin
  exact .tail (.tail (.tail .refl
    (.meanwhile _ s₁ _ _ (fun p hp => by cases hp) hdave))
    (.submitted s₁ _ .register "erin" "secret" rfl rfl (by decide) (by decide)))
    (.attempted s₁ s₂ _ form (.ok response) rfl rfl hposted)

/-- The browser shows dave's message. -/
theorem erin_visits : ∃ s b, Visits twoSetup daveAndErin erinSite threeUsers (s, b) ∧
    b.client.store.auth = some erinAuth ∧ b.sockets 0 = some ((), 1) ∧
    ∃ m ∈ b.client.store.conversation (plainFormats.uuidString ⟨9⟩),
      m.sender = "dave" ∧ m.body = "hi" := by
  obtain ⟨s₁, s₂, s₃, s₄, hdave, hanswer, herin, hconnect, hold, hnew, hreach, hlog⟩ :=
    erin_answered
  obtain ⟨⟨k, g⟩, hg, hsays⟩ := List.any_eq_true.mp hlog
  cases g with
  | message sender fromID body messageID timestamp =>
      simp only [daveSays, Bool.and_eq_true, decide_eq_true_eq] at hsays
      obtain ⟨⟨⟨rfl, rfl⟩, rfl⟩, rfl⟩ := hsays
      let res : PeerWeb.AuthResponse :=
        ⟨some (.str "e"), some (.str (plainFormats.uuidString ⟨8⟩)), some (.str "erin")⟩
      have hhonest : PeerWeb.Honest ⟨201, .session "e" ⟨8⟩ "erin"⟩ := ⟨by decide, by decide⟩
      have hsubmit : PeerWeb.handleSubmit .register "erin" "secret" erinForm.fetched = .ok res :=
        PeerWeb.handleSubmit_answered plainFormats hhonest (by decide) (by decide) rfl
      -- the page mounts, and its socket opens
      let c₁ : PeerWeb.Client := { PeerWeb.Client.start with
        store := ChatStore.initial.setAuth erinAuth, hook := PeerWeb.Hook.fresh.effect }
      have hc₁ : PeerWeb.Client.start.step erinSite.getTime (.login erinAuth) = some c₁ := by
        rw [PeerWeb.Client.step]
        exact if_pos ⟨rfl, by decide⟩
      let c₂ : PeerWeb.Client := PeerWeb.Client.checkPresence
        { c₁ with hook := ⟨[⟨0, .opened⟩], some 0, none, 1000, 1, some 0⟩ } 0
        c₁.store.dmMessages.ownKeys
      have hc₂ : c₁.step erinSite.getTime (.opened 0) = some c₂ := rfl
      have hdialed : Dialed twoSetup daveAndErin (erinSite.wsURL ++ "/ws?token=" ++ erinAuth.token)
          s₂ (.ok ((), 1)) s₃ :=
        .accepted () 2 ⟨"", "e"⟩ 1 s₃ ⟨rfl, by decide +kernel⟩ hconnect hold hnew
      -- the frame comes in
      let f : Incoming := .message (plainFormats.uuidString ⟨9⟩) "dave" "hi"
        (plainFormats.uuidString messageID) (plainFormats.timeString timestamp)
      let c₃ : PeerWeb.Client := c₂.onmessage 0 f
      have hopen : c₂.hook.isOpen 0 = true := by
        rw [PeerWeb.Client.checkPresence_hook]
        rfl
      have hc₃ : c₂.step erinSite.getTime (.frame 0 f) = some c₃ := by
        rw [PeerWeb.Client.step]
        exact if_pos hopen
      have hwired : Wired (Frame.fields plainFormats
          (.message "dave" ⟨9⟩ "hi" messageID timestamp)) :=
        wired_frame fun raw heq => (by cases heq)
      have hread := readBack_of_wired hwired
      have hstore₂ : c₂.store = c₁.store := PeerWeb.Client.checkPresence_store _ _ _
      have hstore₃ : c₃.store = c₂.store.onmessage f := (PeerWeb.Client.step_cases hc₃).store
      let visited : Browser Unit := ⟨c₂, none, Function.update (fun _ => none) 0 (some ((), 1)), [],
        [erinAuth]⟩
      refine ⟨s₄, { visited with client := c₃ }, ?_, ?_, rfl, ?_⟩
      · refine .tail (b := (s₄, visited)) ?_ (.framed s₄ visited 0 () 1 _ _ f c₃ rfl hg
          hread.parsed hread.incoming hc₃)
        refine .trans (b := (s₃, visited)) ?_ ?_
        · exact .tail (.tail (.tail (erin_submits hdave hanswer herin)
            (.entered s₂ _ erinForm res erinAuth c₁ rfl rfl hsubmit rfl hc₁))
            (.connected s₂ s₃ _ 0 0 erinAuth ((), 1) rfl rfl rfl hdialed))
            (.opened s₃ _ 0 c₂ rfl hc₂)
        · clear hg hlog
          induction hreach with
          | refl => exact .refl
          | tail _ hstep ih =>
              obtain ⟨a, hG, hs⟩ := hstep
              exact .tail ih (.meanwhile _ _ _ a hG hs)
      · rw [hstore₃, PeerWeb.Client.onmessage_auth, hstore₂]
        rfl
      · let entry : PeerWeb.Message := ⟨plainFormats.uuidString messageID, "dave",
          plainFormats.uuidString ⟨9⟩, "hi", plainFormats.timeString timestamp, .delivered, false⟩
        have hentry : entry ∈ c₃.store.conversation (plainFormats.uuidString ⟨9⟩) := by
          rw [hstore₃]
          show entry ∈ (c₂.store.addDMMessage (plainFormats.uuidString ⟨9⟩) entry).conversation _
          rw [ChatStore.conversation_addDMMessage, if_pos rfl]
          exact List.mem_append_right _ (List.mem_singleton_self entry)
        exact ⟨entry, hentry, rfl, rfl⟩
  | _ => cases hsays

/-! ## What the form tells -/

/-- **ANSWERED IN THIS RUN**: in a step of it the handler took what was typed, in a round of
    this form, and the response is the one it gave then. -/
def Answers (su : Setup σ) (who : ι → ClientId → UUID × String)
    (run : List (System ι × Browser ι)) (f : Form) (response : Response) : Prop :=
  ∃ x y env tried, [y, x] <:+: run ∧ x.2.form = some { f with attempts := tried } ∧
    tried ++ [some (PeerWeb.arrived su.fmt response)] <+: f.attempts ∧
    step su who x.1
      ((modeRoute f.mode).act env (Credentials.json ⟨f.username, f.password⟩)) = some y.1 ∧
    (modeRoute f.mode).response su x.1 env (Credentials.json ⟨f.username, f.password⟩) = response

/-- A form under way: something was typed, and at most three attempts were made, of which
    those that came back were answered by the handler. -/
structure Tried (su : Setup σ) (who : ι → ClientId → UUID × String)
    (run : List (System ι × Browser ι)) (f : Form) : Prop where
  username : PeerWeb.jsTrim f.username ≠ ""
  password : PeerWeb.jsTrim f.password ≠ ""
  few : f.attempts.length ≤ 3
  answers : ∀ res, some res ∈ f.attempts →
    ∃ response, res = PeerWeb.arrived su.fmt response ∧ Answers su who run f response

/-- The run goes on. -/
theorem Tried.mono {run run' : List (System ι × Browser ι)} {f : Form} (hrun : run <:+ run')
    (h : Tried su who run f) : Tried su who run' f := by
  refine ⟨h.username, h.password, h.few, fun res hres => ?_⟩
  obtain ⟨response, harrived, x, y, env, tried, hstep, hanswer⟩ := h.answers res hres
  exact ⟨response, harrived, x, y, env, tried, hstep.trans hrun.isInfix, hanswer⟩

/-- One more attempt. -/
theorem Tried.attempted {run : List (System ι × Browser ι)} {f : Form}
    (h : Tried su who run f) (hform : b.form = some f) (hover : f.over = false)
    {b' : Browser ι} (hlast : [(s', b'), (s, b)] <:+: run) {answer : Except String Response}
    (hposted : Posted su who (modeRoute f.mode) (Credentials.json ⟨f.username, f.password⟩) s
      answer s') :
    Tried su who run { f with
      attempts := f.attempts ++ [answer.toOption.map (PeerWeb.arrived su.fmt)] } := by
  refine ⟨h.username, h.password, ?_, fun res hres => ?_⟩
  · have hnot : f.attempts.length ≠ 3 := by
      rw [Form.over, Bool.or_eq_false_iff] at hover
      exact of_decide_eq_false hover.2
    have hfew := h.few
    show (f.attempts ++ [_]).length ≤ 3
    rw [List.length_append, List.length_singleton]
    omega
  · rcases List.mem_append.mp hres with hold | hnew
    · obtain ⟨response, harrived, x, y, env, tried, hstep, hx, htried, hanswer⟩ :=
        h.answers res hold
      exact ⟨response, harrived, x, y, env, tried, hstep, hx,
        htried.trans (List.prefix_append _ _), hanswer⟩
    · cases hposted with
      | unheard text => cases List.mem_singleton.mp hnew
      | unanswered text env _ hs => cases List.mem_singleton.mp hnew
      | answered env _ hs =>
          exact ⟨_, Option.some.inj (List.mem_singleton.mp hnew), (s, b), (s', b'), env,
            f.attempts, hlast, hform, List.prefix_rfl, hs, rfl⟩

/-- What the form has got back was answered in the states of this visit. -/
theorem tried_visit {run : List (System ι × Browser ι)} (hr : Visit su who site db₀ run) :
    ∀ x ∈ run.head?, ∀ f ∈ x.2.form, Tried su who run f := by
  induction hr with
  | fresh =>
      intro x hx f hf
      cases hx
      cases hf
  | next x y past hr hs ih =>
      intro z hz
      cases hz
      have hrun : x :: past <:+ y :: x :: past := List.suffix_cons y _
      have hlast : [y, x] <:+: y :: x :: past := (List.prefix_append [y, x] past).isInfix
      cases hs with
      | submitted _ _ mode username password hform hauth hname hpassword =>
          intro f hf
          cases hf
          exact ⟨hname, hpassword, Nat.zero_le 3, fun res hres => by cases hres⟩
      | attempted _ _ _ f₁ answer hform hover hposted =>
          intro f hf
          cases hf
          exact ((ih _ rfl f₁ hform).mono hrun).attempted hform hover hlast hposted
      | entered => exact fun f hf => by cases hf
      | turnedDown => exact fun f hf => by cases hf
      | left => exact fun f hf => by cases hf
      | _ => exact fun f hf => (ih _ rfl f hf).mono hrun

/-- **THE FORM TELLS WHAT THE SERVER SAID**: when it is over, either all three attempts were
    lost, and the server is said to be waking up, or the first answer that came back is the
    one the handler gave in this run to what was typed, and decides: its error is shown word
    for word, its session is stored, and the name in it is the name that was typed. -/
theorem form_tells {past : List (System ι × Browser ι)}
    (hr : Visit su who site db₀ ((s, b) :: past)) {f : Form} (hform : b.form = some f)
    (hover : f.over = true) :
    (f.attempts = [none, none, none] ∧
      PeerWeb.handleSubmit f.mode f.username f.password f.fetched
        = .error (.text "Server is waking up, please try again in a moment")) ∨
    ∃ response, Answers su who ((s, b) :: past) f response ∧
      PeerWeb.fetchWithRetry f.fetched 3 = .ok (PeerWeb.arrived su.fmt response) ∧
      PeerWeb.handleSubmit f.mode f.username f.password f.fetched = match response.body with
        | .error text => .error (.text text)
        | .session token userID _ => .ok ⟨some (.str token),
            some (.str (su.fmt.uuidString userID)), some (.str f.username)⟩ := by
  have h := tried_visit hr (s, b) rfl f hform
  cases hfetch : PeerWeb.fetchWithRetry f.fetched 3 with
  | error message =>
      left
      obtain ⟨rfl, hnone⟩ := (PeerWeb.fetchWithRetry_error (by decide)).mp hfetch
      have hlost : ∀ a ∈ f.attempts, a = none := by
        intro a ha
        obtain ⟨j, hj, rfl⟩ := List.getElem_of_mem ha
        have hthrown := hnone j (Nat.lt_of_lt_of_le hj h.few)
        rw [Form.fetched, List.getElem?_eq_getElem hj] at hthrown
        exact hthrown
      have hlength : f.attempts.length = 3 := by
        rw [Form.over, Bool.or_eq_true] at hover
        rcases hover with hany | hthree
        · obtain ⟨a, ha, hsome⟩ := List.any_eq_true.mp hany
          rw [hlost a ha] at hsome
          cases hsome
        · exact of_decide_eq_true hthree
      refine ⟨?_, ?_⟩
      · rw [List.eq_replicate_of_mem hlost, hlength]
        rfl
      · rw [PeerWeb.handleSubmit, if_neg (not_or.mpr ⟨h.username, h.password⟩), hfetch]
        rfl
  | ok http =>
      right
      obtain ⟨j, -, hj, -⟩ := PeerWeb.fetchWithRetry_ok.mp hfetch
      obtain ⟨response, rfl, hanswers⟩ :=
        h.answers http (List.mem_of_getElem? (Option.join_eq_some_iff.mp hj))
      obtain ⟨x, y, env, tried, hstep, hx, htried, hs, hresponse⟩ := id hanswers
      have hhonest : PeerWeb.Honest response := by
        rw [← hresponse]
        exact honest_response _ x.1 env _
      refine ⟨response, hanswers, rfl, ?_⟩
      rw [PeerWeb.handleSubmit_answered su.fmt hhonest h.username h.password hfetch]
      cases hbody : response.body with
      | error text => rfl
      | session token userID name =>
          have hname : name = f.username := by
            rw [← hresponse] at hbody
            exact response_username (decodeCredentials_json _) hbody
          rw [hname]

/-- Erin's form has her session. -/
theorem form_tells_erin : ∃ s b past,
    Visit twoSetup daveAndErin erinSite threeUsers ((s, b) :: past) ∧ b.form = some erinForm ∧
      ∃ response, Answers twoSetup daveAndErin ((s, b) :: past) erinForm response ∧
        PeerWeb.fetchWithRetry erinForm.fetched 3 = .ok (PeerWeb.arrived plainFormats response) ∧
        PeerWeb.handleSubmit erinForm.mode erinForm.username erinForm.password erinForm.fetched
          = match response.body with
            | .error text => .error (.text text)
            | .session token userID _ => .ok ⟨some (.str token),
                some (.str (plainFormats.uuidString userID)), some (.str "erin")⟩ := by
  obtain ⟨s₁, s₂, -, -, hdave, hanswer, herin, -⟩ := erin_answered
  obtain ⟨past, hvisit⟩ := exists_visit (erin_submits hdave hanswer herin)
  refine ⟨s₂, _, past, hvisit, rfl, ?_⟩
  rcases form_tells hvisit rfl rfl with ⟨hlost, -⟩ | hanswered
  · cases hlost
  · exact hanswered

/-! ## What holds of every visit -/

/-- **THE BROWSER IS WHO IT SAYS**: the credentials it holds are a stored user's and were
    handed out to him; its sockets are connections the server accepted as his, and the
    histories it asks for in his name are asked for as him. -/
theorem browser_is_user (hjwt : su.jwt.Lawful su.handler.lib) (hsafe : SafeTokens su)
    (hurl : PlainAddress site.wsURL) (hfloat : KeepsNumbers su.fmt.float64)
    (hinj : Function.Injective su.fmt.uuidString) (hr : Visits su who site db₀ (s, b))
    {auth : Auth} (hauth : b.client.store.auth = some auth) :
    ∃ id, auth.userId = su.fmt.uuidString id ∧ Named s.db id auth.username ∧
      (∃ e ∈ s.issued, e.2 = auth.token ∧ e.1.userID = id ∧ e.1.username = auth.username) ∧
      (∀ ws conn, b.sockets ws = some conn →
        conn.2 ∈ s.conns conn.1 ∧ who conn.1 conn.2 = (id, auth.username)) ∧
      ∀ f ∈ b.fetches, f.1.userId = some auth.userId →
        ∃ r, (s.tasks f.2.1)[f.2.2]? = some (Task.request id r) := by
  obtain ⟨past, hvisit⟩ := exists_visit hr
  obtain ⟨h, -⟩ := truthful_visit hjwt hsafe hurl hfloat hvisit (s, b) rfl
  obtain ⟨e, he, htoken, hid, hname⟩ := h.held auth (h.auth auth hauth)
  have hnamed : Named s.db e.1.userID auth.username := by
    rw [hname]
    exact h.sound.named e he
  refine ⟨e.1.userID, hid, hnamed, ⟨e, he, htoken, rfl, hname.symm⟩, ?_, ?_⟩
  · intro ws conn hconn
    obtain ⟨auth', id, hauth', hid', hin, hwho⟩ := h.sockets ws conn hconn
    obtain rfl : auth' = auth := Option.some.inj (hauth'.symm.trans hauth)
    obtain rfl : id = e.1.userID := hinj (hid'.symm.trans hid)
    exact ⟨hin, hwho⟩
  · intro f hf huser
    obtain ⟨callerID, r, ht, auth', -, huser', hid'⟩ := h.fetches f hf
    have hsame : auth'.userId = auth.userId := Option.some.inj (huser'.symm.trans huser)
    obtain rfl : callerID = e.1.userID := hinj (hid'.symm.trans (hsame.trans hid))
    exact ⟨r, ht⟩

/-- Erin's browser is erin. -/
theorem browser_is_erin : ∃ s b, Visits twoSetup daveAndErin erinSite threeUsers (s, b) ∧
    b.sockets 0 = some ((), 1) ∧ ∃ id, erinAuth.userId = plainFormats.uuidString id ∧
      Named s.db id "erin" ∧ (∃ e ∈ s.issued, e.2 = "e" ∧ e.1.userID = id) ∧
      1 ∈ s.conns () ∧ daveAndErin () 1 = (id, "erin") := by
  obtain ⟨s, b, hvisits, hauth, hsocket, -⟩ := erin_visits
  obtain ⟨id, hid, hnamed, ⟨e, he, htoken, huser, -⟩, hsockets, -⟩ :=
    browser_is_user twoSetup_lawful twoSetup_safe ⟨by decide +kernel, by decide +kernel⟩
      plainFormats_keepsNumbers canonicalString_injective hvisits hauth
  obtain ⟨hin, hwho⟩ := hsockets 0 _ hsocket
  exact ⟨s, b, hvisits, hsocket, id, hid, hnamed, ⟨e, he, htoken, huser⟩, hin, hwho⟩

end PeerSystem
