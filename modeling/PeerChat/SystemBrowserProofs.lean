import PeerChat.SystemClientProofs
import PeerChat.SystemWireProofs
import PeerChat.WebApiProofs
import PeerChat.WebShownProofs

/-! # A browser and the system

    The client of `web/src` against any number of instances: its form posts what was
    typed, its sockets dial with the token of the store, the frames of its
    connections come in as bytes, and histories are asked for and answered.  Every
    request may be lost, on its way or on the way back, and everybody else's steps
    come in between.

    A `Visit` is a run, with every state it has passed through.  `Truthful` is the
    invariant: the store has the credentials of a user the system knows, the sockets
    are that user's, and what is shown is `Genuine`: written in this run, or a row,
    or a relayed map that came in and was made up to look like a message, which gives
    the id of its sender away.  Every step keeps it (`truthful_step`).

    Frames whose members are not the texts the page takes them for do not come in
    here: no frame of the server's own is one, and of what `Dispatch` relays only
    what `incoming` reads. -/

namespace PeerSystem

open PeerEnv JsonDecode KeyedTable PeerFrame PeerHub PeerStore PeerWorld PeerHandler PeerAuth
open PeerCluster PeerDispatch GoUrl GoMarshal Transition ThreadPool
open PeerWeb (Auth ChatStore ClientEvent HistoryRequest HttpResponse Incoming Mode)

variable {σ ι : Type}

/-! ## The browser -/

/-- Where the pages of a browser look for the server, and the two readings of a time: what
    `GET /messages` writes for one, and what the browser makes of what it reads. -/
structure Site where
  base : String
  wsURL : String
  format : Nat → String
  getTime : String → Option Int

/-- A `handleSubmit` under way, with what its attempts have come to. -/
structure Form where
  mode : Mode
  username : String
  password : String
  attempts : List (Option HttpResponse)

/-- What `fetch` comes to in each round. -/
def Form.fetched (f : Form) (i : Nat) : Option HttpResponse := (f.attempts[i]?).join

/-- Has `fetchWithRetry` returned? -/
def Form.over (f : Form) : Bool := f.attempts.any Option.isSome || f.attempts.length = 3

/-- The handler a tab of the form posts to. -/
def modeRoute : Mode → Route
  | .login => .login
  | .register => .register

/-- The client, its form, the connections behind its sockets, the requests for histories the
    server has let pass with the place of their goroutine, and every login there was. -/
structure Browser (ι : Type) where
  client : PeerWeb.Client
  form : Option Form
  sockets : Nat → Option (ι × ClientId)
  fetches : List (HistoryRequest × ι × Nat)
  held : List Auth

def Browser.fresh : Browser ι := ⟨PeerWeb.Client.start, none, fun _ => none, [], []⟩

/-- What happens in the browser alone. -/
def ownEvent : ClientEvent → Bool
  | .login _ => false
  | .logout => false
  | .reload => false
  | .history _ _ => false
  | .opened _ => false
  | .frame _ _ => false
  | _ => true

section Browsing

variable [DecidableEq ι] (su : Setup σ) (who : ι → ClientId → UUID × String) (site : Site)

/-- Something happens, in the browser or in the system. -/
inductive Browses : System ι × Browser ι → System ι × Browser ι → Prop where
  /-- Somebody else's step. -/
  | meanwhile (s s' : System ι) (b : Browser ι) (a : Act ι σ) (hG : Unforged su s a)
      (hs : step su who s a = some s') : Browses (s, b) (s', b)
  | submitted (s : System ι) (b : Browser ι) (mode : Mode) (username password : String)
      (hform : b.form = none) (hauth : b.client.store.auth = none)
      (hname : PeerWeb.jsTrim username ≠ "") (hpassword : PeerWeb.jsTrim password ≠ "") :
      Browses (s, b) (s, { b with form := some ⟨mode, username, password, []⟩ })
  /-- A round of `fetchWithRetry`. -/
  | attempted (s s' : System ι) (b : Browser ι) (f : Form) (answer : Except String Response)
      (hform : b.form = some f) (hover : f.over = false)
      (h : Posted su who (modeRoute f.mode) (Credentials.json ⟨f.username, f.password⟩) s answer
        s') :
      Browses (s, b) (s', { b with form := some { f with
        attempts := f.attempts ++ [answer.toOption.map (PeerWeb.arrived su.fmt)] } })
  /-- `setAuth` is called. -/
  | entered (s : System ι) (b : Browser ι) (f : Form) (res : PeerWeb.AuthResponse) (auth : Auth)
      (c : PeerWeb.Client) (hform : b.form = some f) (hover : f.over = true)
      (hsubmit : PeerWeb.handleSubmit f.mode f.username f.password f.fetched = .ok res)
      (hauth : res.auth = some auth) (hc : b.client.step site.getTime (.login auth) = some c) :
      Browses (s, b) (s, { b with
        client := c, form := none, sockets := fun _ => none, held := b.held ++ [auth] })
  /-- `setError` is called. -/
  | turnedDown (s : System ι) (b : Browser ι) (f : Form) (err : PeerWeb.ApiError)
      (hform : b.form = some f) (hover : f.over = true)
      (hsubmit : PeerWeb.handleSubmit f.mode f.username f.password f.fetched = .error err) :
      Browses (s, b) (s, { b with form := none })
  /-- The page goes, and its sockets with it. -/
  | left (s : System ι) (b : Browser ι) (e : ClientEvent) (c : PeerWeb.Client)
      (he : e = .logout ∨ e = .reload) (hc : b.client.step site.getTime e = some c) :
      Browses (s, b) (s, { b with client := c, form := none, sockets := fun _ => none })
  /-- The server accepts the connection of a socket. -/
  | connected (s s' : System ι) (b : Browser ι) (ws owner : Nat) (auth : Auth)
      (conn : ι × ClientId)
      (hsocket : b.client.hook.sockets[ws]? = some ⟨owner, .connecting⟩)
      (hfree : b.sockets ws = none) (hauth : b.client.store.auth = some auth)
      (h : Dialed su who (site.wsURL ++ "/ws?token=" ++ auth.token) s (.ok conn) s') :
      Browses (s, b) (s', { b with sockets := Function.update b.sockets ws (some conn) })
  | opened (s : System ι) (b : Browser ι) (ws : Nat) (c : PeerWeb.Client)
      (hconn : (b.sockets ws).isSome = true)
      (hc : b.client.step site.getTime (.opened ws) = some c) :
      Browses (s, b) (s, { b with client := c })
  /-- A frame that was enqueued for the connection comes in. -/
  | framed (s : System ι) (b : Browser ι) (ws : Nat) (i : ι) (k : ClientId) (g : Frame)
      (m : JsonMap) (f : Incoming) (c : PeerWeb.Client) (hconn : b.sockets ws = some (i, k))
      (hg : (k, g) ∈ (s.hub i).log) (hm : JsonScan.parse (frameBytes su.fmt g) = some (.obj m))
      (hf : PeerWeb.incoming m = some f)
      (hc : b.client.step site.getTime (.frame ws f) = some c) :
      Browses (s, b) (s, { b with client := c })
  /-- The server lets a request for a history pass. -/
  | asked (s s' : System ι) (b : Browser ι) (r : HistoryRequest) (auth : Auth) (i : ι)
      (now : Nat) (p : Presented) (partnerIDStr : String) (hr : r ∈ b.client.requests)
      (ha : auth ∈ b.held) (huser : r.userId = some auth.userId)
      (hp : p.authorization = "Bearer " ++ auth.token)
      (hpartner : utf8Bytes partnerIDStr = get
        (rawQuery (site.base ++ "/messages?partner_id=" ++ r.partnerId)) (utf8Bytes "partner_id"))
      (hs : step su who s (.getMessages i now p partnerIDStr) = some s')
      (hnew : (s.tasks i).length < (s'.tasks i).length) :
      Browses (s, b) (s', { b with fetches := b.fetches ++ [(r, i, (s.tasks i).length)] })
  /-- The answer comes in. -/
  | answered (s : System ι) (b : Browser ι) (n : Nat) (r : HistoryRequest) (i : ι) (k : Nat)
      (callerID : UUID) (rows : List PendingMessage) (msgs : List PeerWeb.HistoryMessage)
      (c : PeerWeb.Client) (hr : b.client.requests[n]? = some r) (hf : (r, i, k) ∈ b.fetches)
      (ht : (s.tasks i)[k]? = some (.request callerID (.answered rows)))
      (hmsgs : PeerWeb.fetchHistory
        (some ⟨200, PeerWeb.historyBytes su.fmt site.format rows⟩) = some msgs)
      (hc : b.client.step site.getTime (.history n msgs) = some c) :
      Browses (s, b) (s, { b with client := c })
  /-- No answer, or none with a status of success. -/
  | unanswered (s : System ι) (b : Browser ι) (n : Nat) (c : PeerWeb.Client)
      (hc : b.client.step site.getTime (.history n []) = some c) :
      Browses (s, b) (s, { b with client := c })
  | acted (s : System ι) (b : Browser ι) (e : ClientEvent) (c : PeerWeb.Client)
      (he : ownEvent e = true) (hc : b.client.step site.getTime e = some c) :
      Browses (s, b) (s, { b with client := c })

/-- What a browser that has never been here can come to. -/
def Visits (db₀ : Db) : System ι × Browser ι → Prop :=
  Relation.ReflTransGen (Browses su who site) (start db₀ who, .fresh)

/-- A run, as the states it has passed through, the last one first. -/
inductive Visit (db₀ : Db) : List (System ι × Browser ι) → Prop where
  | fresh : Visit db₀ [(start db₀ who, .fresh)]
  | next (x y : System ι × Browser ι) (past : List (System ι × Browser ι))
      (h : Visit db₀ (x :: past)) (hs : Browses su who site x y) : Visit db₀ (y :: x :: past)

end Browsing

/-- Whatever can be come to is come to in a run. -/
theorem exists_visit [DecidableEq ι] {su : Setup σ} {who : ι → ClientId → UUID × String}
    {site : Site} {db₀ : Db} {x : System ι × Browser ι} (h : Visits su who site db₀ x) :
    ∃ past, Visit su who site db₀ (x :: past) := by
  induction h with
  | refl => exact ⟨[], .fresh⟩
  | @tail y z _ hs ih =>
      obtain ⟨past, hy⟩ := ih
      exact ⟨y :: past, .next y z past hy hs⟩

/-- Who has been in which group in some state of the run. -/
def EverIn (run : List (System ι × Browser ι)) (g u : UUID) : Prop :=
  ∃ x ∈ run, x.1.db.InGroup g u

/-! ## What it shows -/

section Shown

variable (fmt : Formats) (site : Site) (run : List (System ι × Browser ι)) (db : Db)
  (held : List Auth)

/-- The frame came in, in this run, over a socket of the page. -/
def CameIn (g : Frame) (f : Incoming) : Prop :=
  ∃ x y ws i k, [y, x] <:+: run ∧ x.2.sockets ws = some (i, k) ∧ (k, g) ∈ (x.1.hub i).log ∧
    PeerWeb.incoming (g.fields fmt) = some f ∧
    x.2.client.step site.getTime (.frame ws f) = some y.2.client

/-- **WRITTEN HERE**: what `handleSend` wrote, in a step of this run, for an account that was
    logged in. -/
def Written (m : PeerWeb.Message) : Prop :=
  ∃ x y id timestamp m₀ auth, [y, x] <:+: run ∧ x.2.client.store.auth = some auth ∧
    auth ∈ held ∧ x.2.client.step site.getTime (.send id timestamp) = some y.2.client ∧
    x.2.client.optimistic id timestamp = some m₀ ∧ m = { m₀ with id := m.id, status := m.status }

/-- **A ROW**, as it is stored, of a chat that somebody who was logged in here is in. -/
def OfRow (m : PeerWeb.Message) : Prop :=
  ∃ row ∈ db.messages.rows, m.fromID = fmt.uuidString row.senderID ∧
    Named db row.senderID m.sender ∧ m.body = row.body ∧
    (m.timestamp = fmt.timeString row.createdAt ∨ m.timestamp = site.format row.createdAt) ∧
    ∃ auth ∈ held, ∃ u, auth.userId = fmt.uuidString u ∧ db.Member row.chatID u ∧
      (m.mine = true → m.fromID = auth.userId)

/-- A row of a group that somebody who was logged in here has been in. -/
def OfGroupRow (m : PeerWeb.GroupMessage) : Prop :=
  ∃ row ∈ db.groupMessages.rows, m.groupID = fmt.uuidString row.groupID ∧
    m.fromID = fmt.uuidString row.senderID ∧ Named db row.senderID m.sender ∧
    m.body = row.body ∧ m.timestamp = fmt.timeString row.createdAt ∧
    ∃ auth ∈ held, ∃ u, auth.userId = fmt.uuidString u ∧ EverIn run row.groupID u

/-- **RELAYED**: a payload the server relayed for a stored user, and which came in here. -/
def RelayedFor (f : Incoming) (id : UUID) : Prop :=
  ∃ name payload es, Named db id name ∧ structEntries payload = some es ∧
    CameIn fmt site run (.relay (relayMap fmt id name es)) f

/-- **MADE UP** to look like a message: where the name of the sender should be stands the id
    of who had it relayed. -/
def MadeUp (m : PeerWeb.Message) : Prop :=
  ∃ f id m₀, RelayedFor fmt site run db f id ∧ f.entry = some m₀ ∧
    m = { m₀ with id := m.id, status := m.status } ∧ m.sender = fmt.uuidString id

def Genuine (m : PeerWeb.Message) : Prop :=
  Written site run held m ∨ OfRow fmt site db held m ∨ MadeUp fmt site run db m

def GenuineGroup (m : PeerWeb.GroupMessage) : Prop :=
  OfGroupRow fmt run db held m ∨
    ∃ f id, RelayedFor fmt site run db f id ∧ f.groupEntry = some m ∧ m.sender = fmt.uuidString id

end Shown

variable {fmt : Formats} {site : Site} {run run' : List (System ι × Browser ι)} {db db' : Db}
  {held held' : List Auth}

/-- A frame that has come in has come in for good. -/
theorem CameIn.mono (hrun : run <:+ run') {g : Frame} {f : Incoming}
    (h : CameIn fmt site run g f) : CameIn fmt site run' g f := by
  obtain ⟨x, y, ws, i, k, hstep, hcame⟩ := h
  exact ⟨x, y, ws, i, k, hstep.trans hrun.isInfix, hcame⟩

/-- A relay that was made stays made. -/
theorem RelayedFor.mono (hrun : run <:+ run') (hg : Grows db db') {f : Incoming} {id : UUID}
    (h : RelayedFor fmt site run db f id) : RelayedFor fmt site run' db' f id := by
  obtain ⟨name, payload, es, hnamed, hpayload, hcame⟩ := h
  exact ⟨name, payload, es, hnamed.mono hg, hpayload, hcame.mono hrun⟩

/-- Whoever was in a group in some state of the run was so in a longer one. -/
theorem EverIn.mono (hrun : run <:+ run') {g u : UUID} (h : EverIn run g u) : EverIn run' g u := by
  obtain ⟨x, hx, hin⟩ := h
  exact ⟨x, hrun.subset hx, hin⟩

/-- The run goes on, the tables grow, and more accounts have been logged in. -/
theorem Genuine.mono (hrun : run <:+ run') (hg : Grows db db') (hheld : ∀ a ∈ held, a ∈ held')
    {m : PeerWeb.Message} (h : Genuine fmt site run db held m) :
    Genuine fmt site run' db' held' m := by
  rcases h with ⟨x, y, id, timestamp, m₀, auth, hstep, hauth, hin, hwrites⟩ |
    ⟨row, hrow, hid, hname, hbody, htime, hreader⟩ | ⟨f, id, m₀, hrelayed, hentry⟩
  · exact Or.inl ⟨x, y, id, timestamp, m₀, auth, hstep.trans hrun.isInfix, hauth, hheld auth hin,
      hwrites⟩
  · obtain ⟨auth, ha, u, hu, hmember, hby⟩ := hreader
    obtain ⟨st, hst⟩ := hg.messages row hrow
    exact Or.inr (Or.inl ⟨_, hst, hid, hname.mono hg, hbody, htime, auth, hheld auth ha, u, hu,
      hg.members _ _ hmember, hby⟩)
  · exact Or.inr (Or.inr ⟨f, id, m₀, hrelayed.mono hrun hg, hentry⟩)

/-- A group message that is genuine stays so. -/
theorem GenuineGroup.mono (hrun : run <:+ run') (hg : Grows db db')
    (hheld : ∀ a ∈ held, a ∈ held') {m : PeerWeb.GroupMessage}
    (h : GenuineGroup fmt site run db held m) : GenuineGroup fmt site run' db' held' m := by
  rcases h with ⟨row, hrow, hgroup, hid, hname, hbody, htime, auth, ha, u, hu, hin⟩ |
    ⟨f, id, hrelayed, hentry⟩
  · exact Or.inl ⟨row, hg.groupMessages row hrow, hgroup, hid, hname.mono hg, hbody, htime, auth,
      hheld auth ha, u, hu, hin.mono hrun⟩
  · exact Or.inr ⟨f, id, hrelayed.mono hrun hg, hentry⟩

/-- `sent` and `read` leave it genuine. -/
theorem genuine_lasting : PeerWeb.Message.Lasting (Genuine fmt site run db held) := by
  rintro m id status (⟨x, y, i, timestamp, m₀, auth, hstep, hauth, hin, hclient, hwrites, hm⟩ |
    hrow | ⟨f, i, m₀, hrelayed, hentry, hm, hsender⟩)
  · refine Or.inl ⟨x, y, i, timestamp, m₀, auth, hstep, hauth, hin, hclient, hwrites, ?_⟩
    rw [hm]
  · exact Or.inr (Or.inl hrow)
  · refine Or.inr (Or.inr ⟨f, i, m₀, hrelayed, hentry, ?_, hsender⟩)
    rw [hm]

/-- **A FRAME BRINGS WHAT IS GENUINE** to somebody who is logged in as the user it was for. -/
theorem genuine_of_told {u : UUID} {g : Frame} {f : Incoming}
    (htold : Told fmt (EverIn run) db u g) (hcame : CameIn fmt site run g f) {auth : Auth}
    (ha : auth ∈ held) (hu : auth.userId = fmt.uuidString u) :
    (∀ m ∈ f.entry, Genuine fmt site run db held m) ∧
      ∀ m ∈ f.groupEntry, GenuineGroup fmt site run db held m := by
  obtain ⟨_, _, _, _, _, -, -, -, hf, -⟩ := id hcame
  have hreads := PeerWeb.reads_incoming hf
  -- a relayed map has the id of its sender under `from`
  have hmadeUp : ∀ raw sender, g = .relay raw → PeerWeb.text (g.fields fmt) "from" = some sender →
      ∃ id, RelayedFor fmt site run db f id ∧ sender = fmt.uuidString id := by
    rintro raw sender rfl hfrom
    obtain ⟨id, name, payload, es, hnamed, hpayload, rfl⟩ := htold.attributed
    refine ⟨id, ⟨name, payload, es, hnamed, hpayload, hcame⟩, ?_⟩
    rw [Frame.fields, PeerWeb.text, (relayMap_from fmt id name es).1] at hfrom
    exact (Option.some.inj hfrom).symm
  cases f with
  | message fromID sender body messageID timestamp =>
      obtain ⟨htype, hfrom, hid, hbody, htime⟩ := hreads
      refine ⟨fun m hm => ?_, fun m hm => by cases hm⟩
      cases hm
      cases g with
      | relay raw =>
          obtain ⟨id, hrelayed, hsender⟩ := hmadeUp raw sender rfl hfrom
          exact Or.inr (Or.inr ⟨_, id, _, hrelayed, rfl, rfl, hsender⟩)
      | message sender' fromID' body' messageID' timestamp' =>
          obtain rfl : sender' = sender := Option.some.inj hfrom
          obtain rfl : fmt.uuidString fromID' = fromID := Option.some.inj hid
          obtain rfl : body' = body := Option.some.inj hbody
          obtain rfl : fmt.timeString timestamp' = timestamp := Option.some.inj htime
          obtain ⟨hnamed, row, hrow, hrowid, hsender, hrowbody, hrowtime⟩ := htold.attributed
          obtain ⟨row', hrow', hrowid', hmember⟩ := htold.confided
          rw [eq_of_key hrow' hrow (hrowid'.trans hrowid.symm)] at hmember
          subst hsender hrowbody hrowtime
          exact Or.inr (Or.inl ⟨row, hrow, rfl, hnamed, rfl, Or.inl rfl, auth, ha, u, hu, hmember,
            fun hmine => by cases hmine⟩)
      | _ => simp [PeerWeb.text, Frame.fields, lookup] at htype
  | groupMessage groupID messageID sender fromID body timestamp =>
      obtain ⟨htype, hfrom, hid, hbody, htime, hgroup⟩ := hreads
      refine ⟨fun m hm => (by cases hm), fun m hm => ?_⟩
      cases hm
      cases g with
      | relay raw =>
          obtain ⟨id, hrelayed, hsender⟩ := hmadeUp raw sender rfl hfrom
          exact Or.inr ⟨_, id, hrelayed, rfl, hsender⟩
      | groupMessage groupID' sender' fromID' body' messageID' timestamp' =>
          obtain rfl : sender' = sender := Option.some.inj hfrom
          obtain rfl : fmt.uuidString fromID' = fromID := Option.some.inj hid
          obtain rfl : body' = body := Option.some.inj hbody
          obtain rfl : fmt.timeString timestamp' = timestamp := Option.some.inj htime
          obtain rfl : fmt.uuidString groupID' = groupID := Option.some.inj hgroup
          obtain ⟨hnamed, row, hrow, -, hrowgroup, hsender, hrowbody, hrowtime⟩ :=
            htold.attributed
          have hever : EverIn run groupID' u := htold.grouped
          subst hrowgroup hsender hrowbody hrowtime
          exact Or.inl ⟨row, hrow, rfl, rfl, hnamed, rfl, rfl, auth, ha, u, hu, hever⟩
      | _ => simp [PeerWeb.text, Frame.fields, lookup] at htype
  | _ => exact ⟨fun m hm => (by cases hm), fun m hm => (by cases hm)⟩

/-- The rows of a history are genuine for whoever they were selected for. -/
theorem genuine_of_row {ever : UUID → UUID → Prop} {u : UUID} {row : PendingMessage}
    (htold : Told fmt ever db u (PeerServer.drainFrame row)) {auth : Auth} (ha : auth ∈ held)
    (hu : auth.userId = fmt.uuidString u) :
    Genuine fmt site run db held
      (PeerWeb.Client.fromHistory (some auth.userId) (PeerWeb.ofRow fmt site.format row)) := by
  obtain ⟨hnamed, m, hm, hid, hsender, hbody, htime⟩ := htold.attributed
  obtain ⟨m', hm', hid', hmember⟩ := htold.confided
  rw [eq_of_key hm' hm (hid'.trans hid.symm)] at hmember
  refine Or.inr (Or.inl ⟨m, hm, ?_, ?_, hbody.symm, Or.inr ?_, auth, ha, u, hu, hmember, ?_⟩)
  · rw [hsender]
    rfl
  · rw [hsender]
    exact hnamed
  · rw [htime]
    rfl
  · intro hmine
    exact Option.some.inj (of_decide_eq_true hmine)

/-! ## Requests that are under way -/

section Steps

variable [DecidableEq ι] {su : Setup σ} {who : ι → ClientId → UUID × String} {db₀ : Db}
  {s s' : System ι} {b b' : Browser ι}

/-- The goroutine of a request stays at its place. -/
def KeepsRequests (s s' : System ι) : Prop :=
  ∀ i (k : Nat) callerID r, (s.tasks i)[k]? = some (Task.request callerID r) →
    ∃ r', (s'.tasks i)[k]? = some (Task.request callerID r')

omit [DecidableEq ι] in
theorem KeepsRequests.refl (s : System ι) : KeepsRequests s s := fun _ _ _ r h => ⟨r, h⟩

/-- An instance goes on, and the goroutines of its requests stay where they are. -/
theorem keepsRequests_set {i : ι} {w : World} {ts : List Task}
    (h : ∀ (k : Nat) callerID r, (s.tasks i)[k]? = some (Task.request callerID r) →
      ∃ r', ts[k]? = some (Task.request callerID r')) : KeepsRequests s (s.set i w ts) := by
  intro j k callerID r hk
  show ∃ r', (Function.update s.tasks i ts j)[k]? = some (Task.request callerID r')
  by_cases hj : j = i
  · subst hj
    rw [Function.update_self]
    exact h k callerID r hk
  · rw [Function.update_of_ne hj]
    exact ⟨r, hk⟩

/-- In every step the goroutine of a request stays at its place. -/
theorem keepsRequests_step {a : Act ι σ} (h : step su who s a = some s') : KeepsRequests s s' := by
  cases step_cases h with
  | registered env body => exact fun i k callerID r hk => ⟨r, hk⟩
  | loggedIn env body => exact fun i k callerID r hk => ⟨r, hk⟩
  | refused _ _ => exact KeepsRequests.refl s
  | asked i now p partnerIDStr myID name partnerID hp =>
      exact keepsRequests_set fun k callerID r hk => ⟨r, getElem?_spawned _ hk⟩
  | connected i now p c hp =>
      exact keepsRequests_set (w := s.world i) fun k callerID r hk => ⟨r, getElem?_spawned _ hk⟩
  | received i c env raw hlive hfits =>
      exact keepsRequests_set fun k callerID r hk => ⟨r, getElem?_spawned _ hk⟩
  | ran i j env t w t' new hj ht =>
      refine keepsRequests_set fun k callerID r hk => ?_
      by_cases hjk : j = k
      · -- the request itself goes on
        subst hjk
        obtain rfl : t = .request callerID r := Option.some.inj (hj.symm.trans hk)
        simp only [stepTask] at ht
        split at ht
        · cases ht
        · rename_i db r' hr
          cases ht
          exact ⟨r', getElem?_moved_self hk⟩
      · exact ⟨r, getElem?_moved_ne t' new hjk hk⟩
  | activated i sub => exact keepsRequests_set fun k callerID r hk => ⟨r, hk⟩
  | wrote i c => exact keepsRequests_set fun k callerID r hk => ⟨r, hk⟩

/-- A system that goes on leaves the goroutine of a request at its place. -/
theorem Goes.keepsRequests (h : Goes su who s s') : KeepsRequests s s' := by
  rcases h with rfl | ⟨a, -, hstep⟩
  · exact KeepsRequests.refl s'
  · exact keepsRequests_step hstep

/-! ## The invariant -/

/-- The credentials are a token that was handed out, with the id and the name it was handed
    out to. -/
def Owns (su : Setup σ) (s : System ι) (auth : Auth) : Prop :=
  ∃ e ∈ s.issued, e.2 = auth.token ∧ auth.userId = su.fmt.uuidString e.1.userID ∧
    auth.username = e.1.username

/-- A session the response opens was handed out. -/
def Opens (s : System ι) (response : Response) : Prop :=
  ∀ token userID name, response.body = .session token userID name →
    ∃ e ∈ s.issued, e.2 = token ∧ e.1.userID = userID ∧ e.1.username = name

/-- **THE INVARIANT** of a browser and the system, in a run. -/
structure Truthful (su : Setup σ) (who : ι → ClientId → UUID × String) (site : Site) (db₀ : Db)
    (run : List (System ι × Browser ι)) (s : System ι) (b : Browser ι) : Prop where
  sound : Sound su who db₀ (fun _ _ => True) s
  held : ∀ auth ∈ b.held, Owns su s auth
  auth : ∀ auth, b.client.store.auth = some auth → auth ∈ b.held
  form : ∀ f ∈ b.form, ∀ res, some res ∈ f.attempts →
    ∃ response, res = PeerWeb.arrived su.fmt response ∧ PeerWeb.Honest response ∧
      Opens s response
  sockets : ∀ ws conn, b.sockets ws = some conn → ∃ auth id,
    b.client.store.auth = some auth ∧ auth.userId = su.fmt.uuidString id ∧
      conn.2 ∈ s.conns conn.1 ∧ who conn.1 conn.2 = (id, auth.username)
  requests : ∀ r ∈ b.client.requests, ∃ auth ∈ b.held, r.userId = some auth.userId
  fetches : ∀ f ∈ b.fetches, ∃ callerID r,
    (s.tasks f.2.1)[f.2.2]? = some (Task.request callerID r) ∧
      ∃ auth ∈ b.held, f.1.userId = some auth.userId ∧ auth.userId = su.fmt.uuidString callerID
  shown : b.client.store.Shows (Genuine su.fmt site run s.db b.held)
    (GenuineGroup su.fmt site run s.db b.held)

omit [DecidableEq ι] in
/-- Before anything has happened nothing is shown. -/
theorem truthful_start (su : Setup σ) (who : ι → ClientId → UUID × String) (site : Site)
    (db₀ : Db) (run : List (System ι × Browser ι)) :
    Truthful su who site db₀ run (start db₀ who) .fresh where
  sound := sound_start su db₀ who fun _ _ _ => trivial
  held _ ha := by cases ha
  auth _ ha := by cases ha
  form _ hf := by cases hf
  sockets _ _ hc := by cases hc
  requests _ hr := by cases hr
  fetches _ hf := by cases hf
  shown := PeerWeb.ChatStore.shows_initial

omit [DecidableEq ι] in
/-- A session that was handed out stays so. -/
theorem Opens.later (hk : Kept su who db₀ s s') {response : Response} (h : Opens s response) :
    Opens s' response := by
  intro token userID name hbody
  obtain ⟨e, he, hsession⟩ := h token userID name hbody
  exact ⟨e, hk.issued e he, hsession⟩

omit [DecidableEq ι] in
/-- The system goes on. -/
theorem Truthful.later (h : Truthful su who site db₀ run s b) (hk : Kept su who db₀ s s')
    (hr : KeepsRequests s s') : Truthful su who site db₀ run s' b where
  sound := hk.sound
  held auth ha := by
    obtain ⟨e, he, howns⟩ := h.held auth ha
    exact ⟨e, hk.issued e he, howns⟩
  auth := h.auth
  form f hf res hres := by
    obtain ⟨response, harrived, hhonest, hopens⟩ := h.form f hf res hres
    exact ⟨response, harrived, hhonest, hopens.later hk⟩
  sockets ws conn hconn := by
    obtain ⟨auth, id, hauth, hid, hin, hwho⟩ := h.sockets ws conn hconn
    exact ⟨auth, id, hauth, hid, hk.conns _ _ hin, hwho⟩
  requests := h.requests
  fetches f hf := by
    obtain ⟨callerID, r, ht, hby⟩ := h.fetches f hf
    obtain ⟨r', ht'⟩ := hr _ _ _ _ ht
    exact ⟨callerID, r', ht', hby⟩
  shown := h.shown.imp
    (fun _ => Genuine.mono (List.suffix_refl run) hk.grows fun _ ha => ha)
    fun _ => GenuineGroup.mono (List.suffix_refl run) hk.grows fun _ ha => ha

omit [DecidableEq ι] in
/-- The run goes on. -/
theorem Truthful.mono (h : Truthful su who site db₀ run s b) (hrun : run <:+ run') :
    Truthful su who site db₀ run' s b :=
  ⟨h.sound, h.held, h.auth, h.form, h.sockets, h.requests, h.fetches,
    h.shown.imp (fun _ => Genuine.mono hrun (Grows.refl s.db) fun _ ha => ha)
      fun _ => GenuineGroup.mono hrun (Grows.refl s.db) fun _ ha => ha⟩

omit [DecidableEq ι] in
/-- **AN EVENT THAT BRINGS WHAT IS GENUINE**, and is neither a login nor a logout. -/
theorem Truthful.event (h : Truthful su who site db₀ run s b) {e : ClientEvent} {c : PeerWeb.Client}
    (hc : b.client.step site.getTime e = some c) (he : PeerWeb.Client.staysIn e = true)
    (hm : ∀ m ∈ b.client.brought e, Genuine su.fmt site run s.db b.held m)
    (hg : ∀ m ∈ PeerWeb.Client.broughtGroup e, GenuineGroup su.fmt site run s.db b.held m) :
    Truthful su who site db₀ run s { b with client := c } := by
  have hauth : c.store.auth = b.client.store.auth := PeerWeb.Client.auth_step hc he
  refine ⟨h.sound, h.held, ?_, h.form, ?_, ?_, h.fetches, ?_⟩
  · intro auth ha
    exact h.auth auth (hauth.symm.trans ha)
  · intro ws conn hconn
    obtain ⟨auth, id, ha, hby⟩ := h.sockets ws conn hconn
    exact ⟨auth, id, hauth.trans ha, hby⟩
  · intro r hr
    rcases PeerWeb.Client.requests_step hc hr with hold | ⟨auth, ha, huser⟩
    · exact h.requests r hold
    · exact ⟨auth, h.auth auth ha, huser⟩
  · show c.store.Shows _ _
    rw [(PeerWeb.Client.step_cases hc).store]
    exact PeerWeb.Client.shows_storeAfter h.shown genuine_lasting hm hg

omit [DecidableEq ι] in
/-- What is brought by an event of the browser alone is written here. -/
theorem Truthful.own (h : Truthful su who site db₀ run s b) {e : ClientEvent}
    (he : ownEvent e = true) {c : PeerWeb.Client} (hc : b.client.step site.getTime e = some c)
    (hstep : [(s, { b with client := c }), (s, b)] <:+: run) :
    (∀ m ∈ b.client.brought e, Genuine su.fmt site run s.db b.held m) ∧
      ∀ m ∈ PeerWeb.Client.broughtGroup e, GenuineGroup su.fmt site run s.db b.held m := by
  cases e with
  | send id timestamp =>
      refine ⟨fun m hm => ?_, fun m hm => by cases hm⟩
      have hwrites : b.client.optimistic id timestamp = some m := Option.mem_toList.mp hm
      obtain ⟨auth, hauth, -⟩ := PeerWeb.Client.optimistic_by hwrites
      exact Or.inl ⟨(s, b), _, id, timestamp, m, auth, hstep, hauth, h.auth auth hauth, hc,
        hwrites, rfl⟩
  | history n msgs => cases he
  | frame ws f => cases he
  | _ => exact ⟨fun m hm => (by cases hm), fun m hm => (by cases hm)⟩

omit [DecidableEq ι] in
/-- Both handlers open a session with a status of success, and with no other. -/
theorem honest_response (r : Route) (s : System ι) (env : AuthEnv σ) (body : List UInt8) :
    PeerWeb.Honest (r.response su s env body) := by
  have herror : ∀ {status text}, 300 ≤ status → PeerWeb.Honest ⟨status, .error text⟩ :=
    fun h hok => absurd hok.2 (Nat.not_lt.mpr h)
  have hsession : ∀ {status token userID name}, 200 ≤ status → status < 300 →
      PeerWeb.Honest ⟨status, .session token userID name⟩ := fun h h' => ⟨h, h'⟩
  cases r with
  | register =>
      rw [Route.response, Handler.register]
      split
      · exact herror (by decide)
      · split
        · exact herror (by decide)
        · split
          · exact herror (by decide)
          · split
            · exact herror (by decide)
            · exact hsession (by decide) (by decide)
  | login =>
      rw [Route.response, Handler.login]
      split
      · exact herror (by decide)
      · split
        · exact herror (by decide)
        · exact herror (by decide)
        · split
          · split
            · exact herror (by decide)
            · exact hsession (by decide) (by decide)
          · exact herror (by decide)

/-- What a handler answers is an honest answer. -/
theorem honest_posted {r : Route} {body : List UInt8} {response : Response}
    (h : Posted su who r body s (.ok response) s') : PeerWeb.Honest response := by
  cases h with
  | answered env _ hs => exact honest_response r s env body

omit [DecidableEq ι] in
/-- **THE CREDENTIALS THAT ARE STORED** were handed out. -/
theorem Truthful.owns (h : Truthful su who site db₀ run s b) {f : Form} (hform : b.form = some f)
    {res : PeerWeb.AuthResponse} {auth : Auth}
    (hsubmit : PeerWeb.handleSubmit f.mode f.username f.password f.fetched = .ok res)
    (hauth : res.auth = some auth) : Owns su s auth := by
  obtain ⟨http, hfetch⟩ := PeerWeb.handleSubmit_fetched hsubmit
  obtain ⟨j, -, hj, -⟩ := PeerWeb.fetchWithRetry_ok.mp hfetch
  -- it is one of the answers that came in
  have hin : some http ∈ f.attempts := List.mem_of_getElem? (Option.join_eq_some_iff.mp hj)
  obtain ⟨response, rfl, hhonest, hopens⟩ := h.form f hform http hin
  obtain ⟨userID, hbody, hid⟩ :=
    PeerWeb.handleSubmit_session su.fmt hhonest hfetch hsubmit hauth
  obtain ⟨e, he, htoken, huser, hname⟩ := hopens _ _ _ hbody
  refine ⟨e, he, htoken, ?_, hname.symm⟩
  rw [hid, huser]

/-- An attempt of the form, answered or lost, keeps the invariant. -/
theorem Truthful.attempted (hjwt : su.jwt.Lawful su.handler.lib)
    (h : Truthful su who site db₀ run s b) {f : Form} {answer : Except String Response}
    (hform : b.form = some f)
    (hposted : Posted su who (modeRoute f.mode) (Credentials.json ⟨f.username, f.password⟩) s
      answer s') :
    Truthful su who site db₀ run s' { b with form := some { f with
      attempts := f.attempts ++ [answer.toOption.map (PeerWeb.arrived su.fmt)] } } := by
  have h' := h.later (kept_posted hjwt h.sound hposted) (hposted.goes.keepsRequests)
  refine ⟨h'.sound, h'.held, h'.auth, ?_, h'.sockets, h'.requests, h'.fetches, h'.shown⟩
  intro f' hf' res hres
  cases hf'
  rcases List.mem_append.mp hres with hold | hnew
  · exact h'.form f hform res hold
  · cases answer with
    | error text => cases List.mem_singleton.mp hnew
    | ok response =>
        obtain rfl : res = PeerWeb.arrived su.fmt response :=
          Option.some.inj (List.mem_singleton.mp hnew)
        refine ⟨response, rfl, honest_posted hposted, fun token userID name hbody => ?_⟩
        exact (issued_of_posted (decodeCredentials_json _) hposted hbody).2

omit [DecidableEq ι] in
/-- A login, with credentials that were handed out. -/
theorem Truthful.entered (h : Truthful su who site db₀ run s b) {auth : Auth} {c : PeerWeb.Client}
    (howns : Owns su s auth) (hc : b.client.step site.getTime (.login auth) = some c) :
    Truthful su who site db₀ run s { b with
      client := c, form := none, sockets := fun _ => none, held := b.held ++ [auth] } := by
  have hheld : ∀ a ∈ b.held, a ∈ b.held ++ [auth] := fun a ha => List.mem_append_left _ ha
  have hshown := h.shown.imp
    (fun _ => Genuine.mono (List.suffix_refl run) (Grows.refl s.db) hheld)
    fun _ => GenuineGroup.mono (List.suffix_refl run) (Grows.refl s.db) hheld
  refine ⟨h.sound, ?_, ?_, (fun f hf => by cases hf), (fun ws conn hconn => by cases hconn), ?_,
    ?_, ?_⟩
  · intro a ha
    rcases List.mem_append.mp ha with hold | hnew
    · exact h.held a hold
    · rw [List.mem_singleton.mp hnew]
      exact howns
  · intro a ha
    have hauth : c.store.auth = some auth :=
      congrArg ChatStore.auth (PeerWeb.Client.step_cases hc).store
    obtain rfl : auth = a := Option.some.inj (hauth.symm.trans ha)
    exact List.mem_append_right _ (List.mem_singleton_self auth)
  · intro r hr
    rcases PeerWeb.Client.requests_step hc hr with hold | ⟨a, ha, huser⟩
    · obtain ⟨a, ha, huser⟩ := h.requests r hold
      exact ⟨a, hheld a ha, huser⟩
    · exact ⟨a, hheld a (h.auth a ha), huser⟩
  · intro f hf
    obtain ⟨callerID, r, ht, a, ha, hby⟩ := h.fetches f hf
    exact ⟨callerID, r, ht, a, hheld a ha, hby⟩
  · show c.store.Shows _ _
    rw [(PeerWeb.Client.step_cases hc).store]
    exact PeerWeb.Client.shows_storeAfter hshown genuine_lasting (fun m hm => (by cases hm))
      fun m hm => (by cases hm)

omit [DecidableEq ι] in
/-- A logout or a reload. -/
theorem Truthful.left (h : Truthful su who site db₀ run s b) {e : ClientEvent} {c : PeerWeb.Client}
    (he : e = .logout ∨ e = .reload) (hc : b.client.step site.getTime e = some c) :
    Truthful su who site db₀ run s
      { b with client := c, form := none, sockets := fun _ => none } := by
  refine ⟨h.sound, h.held, ?_, (fun f hf => by cases hf), (fun ws conn hconn => by cases hconn),
    ?_, h.fetches, ?_⟩
  · intro a ha
    rcases he with rfl | rfl
    · have hnone : c.store.auth = none :=
        congrArg ChatStore.auth (PeerWeb.Client.step_cases hc).store
      cases hnone.symm.trans ha
    · exact h.auth a ((PeerWeb.Client.auth_step hc rfl).symm.trans ha)
  · intro r hr
    rcases PeerWeb.Client.requests_step hc hr with hold | ⟨a, ha, huser⟩
    · exact h.requests r hold
    · exact ⟨a, h.auth a ha, huser⟩
  · show c.store.Shows _ _
    rw [(PeerWeb.Client.step_cases hc).store]
    refine PeerWeb.Client.shows_storeAfter h.shown genuine_lasting (fun m hm => ?_) fun m hm => ?_
    · rcases he with rfl | rfl <;> cases hm
    · rcases he with rfl | rfl <;> cases hm

/-- A socket that is dialed with the token of the store is the user's. -/
theorem Truthful.connected (hjwt : su.jwt.Lawful su.handler.lib) (hsafe : SafeTokens su)
    (hurl : PlainAddress site.wsURL) (h : Truthful su who site db₀ run s b) {ws : Nat} {auth : Auth}
    {conn : ι × ClientId} (hauth : b.client.store.auth = some auth)
    (hdialed : Dialed su who (site.wsURL ++ "/ws?token=" ++ auth.token) s (.ok conn) s') :
    Truthful su who site db₀ run s'
      { b with sockets := Function.update b.sockets ws (some conn) } := by
  obtain ⟨e, he, htoken, hid, hname⟩ := h.held auth (h.auth auth hauth)
  rw [← htoken] at hdialed
  have hreq := (hdialed.goes hjwt hsafe hurl h.sound he).keepsRequests
  obtain ⟨hk, hconn⟩ := kept_dialed hjwt hsafe hurl h.sound he hdialed
  have h' := h.later hk hreq
  refine ⟨h'.sound, h'.held, h'.auth, h'.form, ?_, h'.requests, h'.fetches, h'.shown⟩
  intro ws' conn' hconn'
  by_cases hws : ws' = ws
  · subst hws
    obtain rfl : conn = conn' := by
      simp only [Function.update_self] at hconn'
      exact Option.some.inj hconn'
    obtain ⟨hin, hwho⟩ := hconn conn rfl
    refine ⟨auth, e.1.userID, hauth, hid, hin, ?_⟩
    rw [hwho, hname]
  · simp only [Function.update_of_ne hws] at hconn'
    exact h'.sockets ws' conn' hconn'

omit [DecidableEq ι] in
/-- A request for a history presents a token that was handed out. -/
theorem Truthful.presented (hjwt : su.jwt.Lawful su.handler.lib)
    (h : Truthful su who site db₀ run s b) {auth : Auth} (ha : auth ∈ b.held) {p : Presented}
    (hp : p.authorization = "Bearer " ++ auth.token) :
    ∃ e ∈ s.issued, p.tokenStr = e.2 ∧ auth.userId = su.fmt.uuidString e.1.userID := by
  obtain ⟨e, he, htoken, hid, -⟩ := h.held auth ha
  refine ⟨e, he, ?_, hid⟩
  obtain ⟨authorization, query⟩ := p
  obtain rfl : authorization = "Bearer " ++ auth.token := hp
  rw [← htoken]
  exact tokenStr_of_header e.2 query (hjwt.text (h.sound.signed e he))

/-- A request for a history is made as the user it says. -/
theorem Truthful.asked (hjwt : su.jwt.Lawful su.handler.lib) (h : Truthful su who site db₀ run s b)
    {r : HistoryRequest} {auth : Auth} {i : ι} {now : Nat} {p : Presented}
    {partnerIDStr : String} (ha : auth ∈ b.held) (huser : r.userId = some auth.userId)
    (hp : p.authorization = "Bearer " ++ auth.token)
    (hs : step su who s (.getMessages i now p partnerIDStr) = some s')
    (hnew : (s.tasks i).length < (s'.tasks i).length) :
    Truthful su who site db₀ run s'
      { b with fetches := b.fetches ++ [(r, i, (s.tasks i).length)] } := by
  obtain ⟨e, he, hsent, hid⟩ := h.presented hjwt ha hp
  obtain ⟨hunforged, hpasses⟩ := held_passes hjwt h.sound he hsent
  have hk : Kept su who db₀ s s' := by
    refine kept_step hjwt h.sound (fun p' hp' => ?_) hs
    cases hp'
    exact hunforged
  have h' := h.later hk (keepsRequests_step hs)
  refine ⟨h'.sound, h'.held, h'.auth, h'.form, h'.sockets, h'.requests, ?_, h'.shown⟩
  intro f hf
  rcases List.mem_append.mp hf with hold | hone
  · exact h'.fetches f hold
  · rw [List.mem_singleton.mp hone]
    cases step_cases hs with
    | refused _ _ => exact absurd hnew (Nat.lt_irrefl _)
    | asked _ _ _ _ myID name partnerID hok =>
        refine ⟨myID, .lookup (.find myID partnerID), ?_, auth, ha, huser, ?_⟩
        · show (Function.update s.tasks i _ i)[(s.tasks i).length]? = _
          rw [Function.update_self, List.getElem?_append_right (le_refl _), Nat.sub_self]
          rfl
        · have hself : myID = e.1.userID := congrArg Prod.fst (hpasses now _ hok)
          rw [hid, hself]

omit [DecidableEq ι] in
/-- A frame of a connection, in bytes. -/
theorem Truthful.framed (hfloat : KeepsNumbers su.fmt.float64)
    (h : Truthful su who site db₀ run s b) (hsound : Sound su who db₀ (EverIn run) s) {ws : Nat}
    {i : ι} {k : ClientId} {g : Frame} {m : JsonMap} {f : Incoming} {c : PeerWeb.Client}
    (hconn : b.sockets ws = some (i, k)) (hg : (k, g) ∈ (s.hub i).log)
    (hm : JsonScan.parse (frameBytes su.fmt g) = some (.obj m)) (hf : PeerWeb.incoming m = some f)
    (hc : b.client.step site.getTime (.frame ws f) = some c)
    (hstep : [(s, { b with client := c }), (s, b)] <:+: run) :
    Truthful su who site db₀ run s { b with client := c } := by
  have htold := (hsound.airs i).log (k, g) hg
  obtain ⟨auth, id, hauth, hid, -, hwho⟩ := h.sockets ws (i, k) hconn
  have huser : (s.hub i).userOf k = id := (h.sound.users i k).trans (congrArg Prod.fst hwho)
  -- what was parsed is what was marshalled
  have hread := readBack_of_wired (wired_of_attributed hfloat htold.attributed)
  obtain rfl : canonMap (g.fields su.fmt) = m :=
    JsonScan.Json.obj.inj (Option.some.inj (hread.parsed.symm.trans hm))
  have hincoming : PeerWeb.incoming (g.fields su.fmt) = some f := hread.incoming.symm.trans hf
  have hcame : CameIn su.fmt site run g f := ⟨(s, b), _, ws, i, k, hstep, hconn, hg, hincoming, hc⟩
  have hgenuine : (∀ x ∈ f.entry, Genuine su.fmt site run s.db b.held x) ∧
      ∀ x ∈ f.groupEntry, GenuineGroup su.fmt site run s.db b.held x :=
    genuine_of_told htold hcame (h.auth auth hauth)
      (hid.trans (congrArg su.fmt.uuidString huser.symm))
  refine h.event hc rfl (fun x hx => ?_) fun x hx => ?_
  · exact hgenuine.1 x (Option.mem_toList.mp hx)
  · exact hgenuine.2 x (Option.mem_toList.mp hx)

omit [DecidableEq ι] in
/-- The answer to a request for a history, in bytes. -/
theorem Truthful.answered (h : Truthful su who site db₀ run s b) {n : Nat} {r : HistoryRequest}
    {i : ι} {k : Nat} {callerID : UUID} {rows : List PendingMessage}
    {msgs : List PeerWeb.HistoryMessage} {c : PeerWeb.Client}
    (hr : b.client.requests[n]? = some r) (hf : (r, i, k) ∈ b.fetches)
    (ht : (s.tasks i)[k]? = some (.request callerID (.answered rows)))
    (hmsgs : PeerWeb.fetchHistory
      (some ⟨200, PeerWeb.historyBytes su.fmt site.format rows⟩) = some msgs)
    (hc : b.client.step site.getTime (.history n msgs) = some c) :
    Truthful su who site db₀ run s { b with client := c } := by
  obtain ⟨callerID', r', ht', auth, ha, huser, hid⟩ := h.fetches (r, i, k) hf
  obtain ⟨rfl, -⟩ : callerID' = callerID ∧ r' = .answered rows := by
    have heq := Option.some.inj (ht'.symm.trans ht)
    cases heq
    exact ⟨rfl, rfl⟩
  rw [PeerWeb.history_read] at hmsgs
  obtain ⟨-, hrows⟩ := h.sound.tasks i _ (List.mem_of_getElem? ht)
  refine h.event hc rfl (fun x hx => ?_) fun x hx => by cases hx
  rw [PeerWeb.Client.brought, hr, ← Option.some.inj hmsgs] at hx
  obtain ⟨msg, hmsg, rfl⟩ := List.mem_map.mp hx
  obtain ⟨row, hrow, rfl⟩ := List.mem_map.mp hmsg
  rw [show r.userId = some auth.userId from huser]
  exact genuine_of_row (hrows row hrow) ha hid

/-- What the browser does is a step of the system, or none. -/
theorem Truthful.goes (hjwt : su.jwt.Lawful su.handler.lib) (hsafe : SafeTokens su)
    (hurl : PlainAddress site.wsURL) (h : Truthful su who site db₀ run s b)
    (hs : Browses su who site (s, b) (s', b')) : Goes su who s s' := by
  cases hs with
  | meanwhile _ _ _ a hG hstep => exact Or.inr ⟨a, hG, hstep⟩
  | attempted _ _ _ f answer hform hover hposted => exact hposted.goes
  | connected _ _ _ ws owner auth conn hsocket hfree hauth hdialed =>
      obtain ⟨e, he, htoken, -⟩ := h.held auth (h.auth auth hauth)
      rw [← htoken] at hdialed
      exact hdialed.goes hjwt hsafe hurl h.sound he
  | asked _ _ _ r auth i now p partnerIDStr hr ha huser hp hpartner hstep hnew =>
      obtain ⟨e, he, hsent, -⟩ := h.presented hjwt ha hp
      refine Or.inr ⟨_, fun p' hp' => ?_, hstep⟩
      cases hp'
      exact (held_passes hjwt h.sound he hsent).1
  | _ => exact Or.inl rfl

/-- **EVERY STEP KEEPS THE INVARIANT.** -/
theorem truthful_step (hjwt : su.jwt.Lawful su.handler.lib) (hsafe : SafeTokens su)
    (hurl : PlainAddress site.wsURL) (hfloat : KeepsNumbers su.fmt.float64)
    (h : Truthful su who site db₀ run s b) (hsound : Sound su who db₀ (EverIn run) s)
    (hs : Browses su who site (s, b) (s', b')) (hlast : [(s', b'), (s, b)] <:+: run) :
    Truthful su who site db₀ run s' b' := by
  cases hs with
  | meanwhile _ _ _ a hG hstep =>
      exact h.later (kept_step hjwt h.sound hG hstep) (keepsRequests_step hstep)
  | submitted _ _ mode username password hform hauth hname hpassword =>
      refine ⟨h.sound, h.held, h.auth, ?_, h.sockets, h.requests, h.fetches, h.shown⟩
      intro f hf res hres
      cases hf
      cases hres
  | attempted _ _ _ f answer hform hover hposted => exact h.attempted hjwt hform hposted
  | entered _ _ f res auth c hform hover hsubmit hauth hc =>
      exact h.entered (h.owns hform hsubmit hauth) hc
  | turnedDown _ _ f err hform hover hsubmit =>
      exact ⟨h.sound, h.held, h.auth, (fun f hf => by cases hf), h.sockets, h.requests, h.fetches,
        h.shown⟩
  | left _ _ e c he hc => exact h.left he hc
  | connected _ _ _ ws owner auth conn hsocket hfree hauth hdialed =>
      exact h.connected hjwt hsafe hurl hauth hdialed
  | opened _ _ ws c hconn hc =>
      exact h.event hc rfl (fun m hm => (by cases hm)) fun m hm => (by cases hm)
  | framed _ _ ws i k g m f c hconn hg hm hf hc =>
      exact h.framed hfloat hsound hconn hg hm hf hc hlast
  | asked _ _ _ r auth i now p partnerIDStr hr ha huser hp hpartner hstep hnew =>
      exact h.asked hjwt ha huser hp hstep hnew
  | answered _ _ n r i k callerID rows msgs c hr hf ht hmsgs hc =>
      exact h.answered hr hf ht hmsgs hc
  | unanswered _ _ n c hc =>
      refine h.event hc rfl (fun m hm => ?_) fun m hm => by cases hm
      rw [PeerWeb.Client.brought] at hm
      split at hm <;> cases hm
  | acted _ _ e c he hc =>
      obtain ⟨hm, hg⟩ := h.own he hc hlast
      refine h.event hc ?_ hm hg
      cases e with
      | login auth => cases he
      | logout => cases he
      | _ => rfl

/-- **THE RUN LEMMA**: the invariant holds where a run is, and the system is sound there with
    the groups of the run. -/
theorem truthful_visit (hjwt : su.jwt.Lawful su.handler.lib) (hsafe : SafeTokens su)
    (hurl : PlainAddress site.wsURL) (hfloat : KeepsNumbers su.fmt.float64)
    (hr : Visit su who site db₀ run) : ∀ x ∈ run.head?,
      Truthful su who site db₀ run x.1 x.2 ∧ Sound su who db₀ (EverIn run) x.1 := by
  induction hr with
  | fresh =>
      intro x hx
      cases hx
      exact ⟨truthful_start su who site db₀ _, sound_start su db₀ who fun g u hin =>
        ⟨_, List.mem_singleton_self _, hin⟩⟩
  | next x y past hr hs ih =>
      intro z hz
      cases hz
      obtain ⟨htruthful, hsound⟩ := ih x rfl
      have hrun : x :: past <:+ y :: x :: past := List.suffix_cons y _
      have hever : Sound su who db₀ (EverIn (y :: x :: past)) x.1 :=
        hsound.mono fun g u h => h.mono hrun
      exact ⟨truthful_step hjwt hsafe hurl hfloat (htruthful.mono hrun) hever hs
          (List.prefix_append [y, x] past).isInfix,
        (htruthful.goes hjwt hsafe hurl hs).sound hjwt hever fun g u hin =>
          ⟨y, List.mem_cons_self, hin⟩⟩

end Steps

end PeerSystem
