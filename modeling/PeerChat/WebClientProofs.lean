import PeerChat.WebFrameProofs
import PeerChat.WebSocketProofs

/-! # The web client (`ChatPage.tsx`, `ChatWindow.tsx`, `useWebSocket.ts`)

    The client as a machine: the persisted store, the refs of the mounted page, the
    open chat window and what is under way (history requests, the timers that end a
    typing indicator).  Its events are what the user does, what the network does and
    when React runs an effect, in any order.

    `written` are the frames written to OPEN sockets.  The page is mounted while
    there are credentials; a page that unmounts has run its cleanup, and nothing is
    written through its refs any more (`Hook.refOpen_cleanup`), so the next one
    starts with `Hook.fresh`. -/

namespace PeerWeb

open JsRecord

/-- White space and line terminators, as `String.prototype.trim` strips them. -/
def isJsSpace (c : Char) : Bool :=
  let n := c.toNat
  (0x09 ≤ n && n ≤ 0x0D) || n = 0x20 || n = 0xA0 || n = 0x1680 ||
    (0x2000 ≤ n && n ≤ 0x200A) || n = 0x2028 || n = 0x2029 || n = 0x202F || n = 0x205F ||
    n = 0x3000 || n = 0xFEFF

/-- `s.trim()`. -/
def jsTrim (s : String) : String :=
  String.ofList (((s.toList.dropWhile isJsSpace).reverse.dropWhile isJsSpace).reverse)

/-- `HistoryMessage`. -/
structure HistoryMessage where
  id : String
  sender : String
  fromID : String
  body : String
  status : Option PeerStore.Status
  timestamp : String
  deriving DecidableEq, Repr

/-- The state of a mounted `ChatWindow`.  It has no key, so it is one component for
    whichever partner it shows. -/
structure ChatWindow where
  partnerId : String
  body : String
  ackedIds : List String
  deriving DecidableEq, Repr

/-- A `fetchHistory` under way, with what its closure captured. -/
structure HistoryRequest where
  partnerId : String
  userId : Option String
  deriving DecidableEq, Repr

structure Client where
  store : ChatStore
  hook : Hook
  window : Option ChatWindow
  requests : List HistoryRequest
  typingTimers : List String
  written : List OutFrame

/-- A browser that has never been here. -/
def Client.start : Client := ⟨ChatStore.initial, Hook.fresh, none, [], [], []⟩

inductive ClientEvent where
  /-- `setAuth`, from the login form. -/
  | login (auth : Auth)
  /-- `clearAuth`. -/
  | logout
  /-- The page is loaded again. -/
  | reload
  /-- `setSelectedContact({ id, … })`. -/
  | openChat (id : String)
  /-- `setSelectedContact(null)`. -/
  | back
  /-- A change of the text area. -/
  | input (body : String)
  /-- `handleSend`, with what `uuidv4()` and the clock return. -/
  | send (id timestamp : String)
  /-- The effect that acks and marks as read. -/
  | ackEffect
  /-- The answer to the `n`-th request under way; no messages where it failed. -/
  | history (n : Nat) (msgs : List HistoryMessage)
  | opened (ws : Nat)
  | closing (ws : Nat)
  | closed (ws : Nat)
  | reconnect
  | heartbeat (ws : Nat)
  | frame (ws : Nat) (f : Incoming)
  /-- Five seconds after a typing frame. -/
  | typingTimeout (chatId : String)

namespace Client

/-- `send` of the hook. -/
def send (c : Client) (f : OutFrame) : Client :=
  if c.hook.refOpen then { c with written := c.written ++ [f] } else c

/-- `checkPresence(ws, userIds)`. -/
def checkPresence (c : Client) (ws : Nat) (userIds : List String) : Client :=
  if c.hook.isOpen ws ∧ userIds ≠ [] then
    { c with written := c.written ++ [.presenceCheck userIds] }
  else c

/-- The entry of a history message: `mine` by the user id the closure captured. -/
def fromHistory (userId : Option String) (m : HistoryMessage) : Message :=
  ⟨m.id, m.sender, m.fromID, m.body, m.timestamp, m.status.getD .delivered,
    some m.fromID = userId⟩

/-- The ids a run of the ack effect passes to `send`, in order. -/
def toAck : List String → List Message → List String
  | _, [] => []
  | acked, m :: ms =>
      if !m.mine ∧ m.status ≠ .read ∧ m.id ∉ acked then m.id :: toAck (m.id :: acked) ms
      else toAck acked ms

/-- Ack one message and mark it as read. -/
def ackOne (partnerId : String) (c : Client) (id : String) : Client :=
  let c := c.send (.ack id partnerId)
  { c with store := c.store.updateDMMessageStatus partnerId id .read }

/-- A run of the ack effect. -/
def ackEffect (c : Client) (w : ChatWindow) : Client :=
  let ids := toAck w.ackedIds (c.store.conversation w.partnerId)
  let c := ids.foldl (ackOne w.partnerId) c
  { c with window := some { w with ackedIds := w.ackedIds ++ ids } }

/-- `handleSend`. -/
def handleSend (c : Client) (auth : Auth) (w : ChatWindow) (id timestamp : String) : Client :=
  if jsTrim w.body = "" then c
  else
    let entry : Message :=
      ⟨id, auth.username, auth.userId, jsTrim w.body, timestamp, .sent, true⟩
    let c := { c with store := c.store.addDMMessage w.partnerId entry }
    let c := c.send (.message w.partnerId (jsTrim w.body) id)
    { c with window := some { w with body := "" } }

/-- `ws.onmessage`. -/
def onmessage (c : Client) (ws : Nat) (f : Incoming) : Client :=
  let c := { c with store := c.store.onmessage f }
  match f with
  | .message fromID .. => c.checkPresence ws [fromID]
  | .typing chatID => { c with typingTimers := c.typingTimers ++ [chatID] }
  | _ => c

/-- The window a selected contact is shown in, and the history request its effect makes. -/
def openChat (c : Client) (auth : Auth) (id : String) : Client :=
  let request : HistoryRequest := ⟨id, some auth.userId⟩
  match c.window with
  | none =>
      { c with
        window := some ⟨id, "", []⟩
        requests := c.requests ++ [request] }
  | some w =>
      if w.partnerId = id then c
      else
        { c with
          window := some { w with partnerId := id }
          requests := c.requests ++ [request] }

/-- The answer to a request. -/
def historyAnswer (getTime : String → Option Int) (c : Client) (n : Nat) (r : HistoryRequest)
    (msgs : List HistoryMessage) : Client :=
  { c with
    requests := c.requests.eraseIdx n
    store :=
      if msgs = [] then c.store
      else c.store.setDMHistory getTime r.partnerId (msgs.map (fromHistory r.userId)) }

/-- One event; `none` where it cannot happen. -/
def step (getTime : String → Option Int) (c : Client) : ClientEvent → Option Client
  | .login auth =>
      -- the page mounts, and its effect connects
      if c.store.auth = none ∧ auth.token ≠ "" then
        some { c with store := c.store.setAuth auth, hook := Hook.fresh.effect, window := none }
      else none
  | .logout =>
      c.store.auth.map fun _ =>
        { c with store := c.store.clearAuth, hook := Hook.fresh, window := none }
  | .reload =>
      -- the store is persisted; what was under way is not
      some { c with
        hook := if c.store.auth.isSome then Hook.fresh.effect else Hook.fresh
        window := none
        requests := []
        typingTimers := [] }
  | .openChat id => c.store.auth.map fun auth => c.openChat auth id
  | .back => c.store.auth.map fun _ => { c with window := none }
  | .input body =>
      c.window.map fun w =>
        ({ c with window := some { w with body := body } }).send (.typing w.partnerId)
  | .send id timestamp =>
      c.store.auth.bind fun auth => c.window.map fun w => c.handleSend auth w id timestamp
  | .ackEffect => c.window.map fun w => c.ackEffect w
  | .history n msgs => (c.requests[n]?).map fun r => c.historyAnswer getTime n r msgs
  | .opened ws =>
      (c.hook.onopen ws).map fun hook =>
        ({ c with hook := hook }).checkPresence ws c.store.dmMessages.ownKeys
  | .closing ws => (c.hook.closing ws).map fun hook => { c with hook := hook }
  | .closed ws => (c.hook.onclose ws).map fun hook => { c with hook := hook }
  | .reconnect => c.hook.onTimer.map fun hook => { c with hook := hook }
  | .heartbeat ws =>
      if c.hook.isOpen ws then
        some (({ c with written := c.written ++ [OutFrame.ping] }).checkPresence ws
          c.store.dmMessages.ownKeys)
      else none
  | .frame ws f => if c.hook.isOpen ws then some (c.onmessage ws f) else none
  | .typingTimeout chatId =>
      -- nothing clears these timers, not even a logout
      if chatId ∈ c.typingTimers then
        some { c with
          typingTimers := c.typingTimers.erase chatId
          store := c.store.setTyping chatId false }
      else some c

def run (getTime : String → Option Int) (c : Client) : List ClientEvent → Option Client
  | [] => some c
  | e :: es => (c.step getTime e).bind fun c' => c'.run getTime es

/-- `P` holds at every step of a run. -/
def Always (getTime : String → Option Int) (P : Client → ClientEvent → Prop) (c : Client) :
    List ClientEvent → Prop
  | [] => True
  | e :: es => P c e ∧ (c.step getTime e).elim True fun c' => c'.Always getTime P es

/-- A run of two lists is one after the other. -/
theorem run_append (getTime : String → Option Int) (c : Client) (es es' : List ClientEvent) :
    c.run getTime (es ++ es') = (c.run getTime es).bind fun c' => c'.run getTime es' := by
  induction es generalizing c with
  | nil => rfl
  | cons e es ih =>
      rw [List.cons_append, run, run, Option.bind_assoc]
      congr 1
      funext c'
      exact ih c'

/-- What holds at every step of a run holds at those of its first part. -/
theorem always_left {getTime : String → Option Int} {P : Client → ClientEvent → Prop}
    {c : Client} {es es' : List ClientEvent} (h : c.Always getTime P (es ++ es')) :
    c.Always getTime P es := by
  induction es generalizing c with
  | nil => trivial
  | cons e es ih =>
      obtain ⟨hone, hrest⟩ := h
      refine ⟨hone, ?_⟩
      cases hstep : c.step getTime e with
      | none => trivial
      | some c' =>
          rw [hstep] at hrest
          exact ih hrest

/-- What holds at every step of a run holds at those of its second part. -/
theorem always_right {getTime : String → Option Int} {P : Client → ClientEvent → Prop}
    {c c' : Client} {es es' : List ClientEvent} (h : c.Always getTime P (es ++ es'))
    (hrun : c.run getTime es = some c') : c'.Always getTime P es' := by
  induction es generalizing c with
  | nil =>
      cases hrun
      exact h
  | cons e es ih =>
      obtain ⟨mid, hstep, hrest⟩ := Option.bind_eq_some_iff.mp hrun
      have htail := h.2
      rw [List.append_eq, hstep] at htail
      exact ih htail hrest

/-! ## What a step writes -/

/-- The frames owed for what a step shows: the entry `handleSend` adds, the messages the
    ack effect marks as read. -/
def owed (c : Client) : ClientEvent → List OutFrame
  | .send id _ =>
      match c.store.auth, c.window with
      | some _, some w =>
          if jsTrim w.body = "" then [] else [.message w.partnerId (jsTrim w.body) id]
      | _, _ => []
  | .ackEffect =>
      match c.window with
      | some w =>
          (toAck w.ackedIds (c.store.conversation w.partnerId)).map fun id => .ack id w.partnerId
      | none => []
  | _ => []

/-- A check over all contacts, if there are any. -/
def presenceFrames (c : Client) : List OutFrame :=
  if c.store.dmMessages.ownKeys = [] then [] else [.presenceCheck c.store.dmMessages.ownKeys]

/-- The frames a step writes. -/
def writes (c : Client) : ClientEvent → List OutFrame
  | .input _ =>
      if c.hook.refOpen then (c.window.map fun w => .typing w.partnerId).toList else []
  | .send id timestamp => if c.hook.refOpen then c.owed (.send id timestamp) else []
  | .ackEffect => if c.hook.refOpen then c.owed .ackEffect else []
  | .opened _ => c.presenceFrames
  | .heartbeat _ => .ping :: c.presenceFrames
  | .frame _ (.message fromID ..) => [.presenceCheck [fromID]]
  | _ => []

@[simp] theorem send_hook (c : Client) (f : OutFrame) : (c.send f).hook = c.hook := by
  rw [send]
  split <;> rfl

@[simp] theorem send_store (c : Client) (f : OutFrame) : (c.send f).store = c.store := by
  rw [send]
  split <;> rfl

@[simp] theorem send_window (c : Client) (f : OutFrame) : (c.send f).window = c.window := by
  rw [send]
  split <;> rfl

@[simp] theorem send_requests (c : Client) (f : OutFrame) :
    (c.send f).requests = c.requests := by
  rw [send]
  split <;> rfl

/-- `send` writes through an open socket, and nowhere else. -/
theorem send_written (c : Client) (f : OutFrame) :
    (c.send f).written = c.written ++ if c.hook.refOpen then [f] else [] := by
  rw [send]
  split
  · rfl
  · rw [List.append_nil]

@[simp] theorem checkPresence_store (c : Client) (ws : Nat) (ids : List String) :
    (c.checkPresence ws ids).store = c.store := by
  rw [checkPresence]
  split <;> rfl

@[simp] theorem checkPresence_hook (c : Client) (ws : Nat) (ids : List String) :
    (c.checkPresence ws ids).hook = c.hook := by
  rw [checkPresence]
  split <;> rfl

@[simp] theorem checkPresence_window (c : Client) (ws : Nat) (ids : List String) :
    (c.checkPresence ws ids).window = c.window := by
  rw [checkPresence]
  split <;> rfl

@[simp] theorem checkPresence_requests (c : Client) (ws : Nat) (ids : List String) :
    (c.checkPresence ws ids).requests = c.requests := by
  rw [checkPresence]
  split <;> rfl

/-- A presence check without contacts is not sent. -/
theorem checkPresence_written (c : Client) {ws : Nat} (h : c.hook.isOpen ws = true)
    (ids : List String) : (c.checkPresence ws ids).written
      = c.written ++ if ids = [] then [] else [.presenceCheck ids] := by
  rw [checkPresence]
  by_cases hids : ids = []
  · rw [if_neg fun hc => hc.2 hids, if_pos hids, List.append_nil]
  · rw [if_pos ⟨h, hids⟩, if_neg hids]

@[simp] theorem ackOne_hook (p : String) (c : Client) (id : String) :
    (ackOne p c id).hook = c.hook := by
  rw [ackOne]
  exact send_hook c _

theorem ackAll_requests (p : String) (c : Client) (ids : List String) :
    (ids.foldl (ackOne p) c).requests = c.requests := by
  induction ids generalizing c with
  | nil => rfl
  | cons id ids ih =>
      rw [List.foldl_cons, ih, ackOne]
      exact send_requests c _

/-- Acking a list of ids marks each message read. -/
theorem ackAll_store (p : String) (c : Client) (ids : List String) :
    (ids.foldl (ackOne p) c).store
      = ids.foldl (fun s id => s.updateDMMessageStatus p id .read) c.store := by
  induction ids generalizing c with
  | nil => rfl
  | cons id ids ih =>
      have hone : (ackOne p c id).store = c.store.updateDMMessageStatus p id .read := by
        rw [ackOne]
        exact congrArg (fun s : ChatStore => s.updateDMMessageStatus p id .read) (send_store c _)
      rw [List.foldl_cons, ih, hone]
      rfl

/-- Acking a list of ids writes an ack for each, if the socket is open. -/
theorem ackAll_written (p : String) (c : Client) (ids : List String) :
    (ids.foldl (ackOne p) c).written
      = c.written ++ if c.hook.refOpen then ids.map fun id => .ack id p else [] := by
  induction ids generalizing c with
  | nil => simp
  | cons id ids ih =>
      have hone : (ackOne p c id).written
          = c.written ++ if c.hook.refOpen then [.ack id p] else [] := send_written c _
      rw [List.foldl_cons, ih, hone, ackOne_hook, List.append_assoc]
      congr 1
      split <;> rfl

variable {getTime : String → Option Int} {c c' : Client}

/-- The store after a step, read off the state before it. -/
def storeAfter (getTime : String → Option Int) (c : Client) : ClientEvent → ChatStore
  | .login auth => c.store.setAuth auth
  | .logout => c.store.clearAuth
  | .send id timestamp =>
      match c.store.auth, c.window with
      | some auth, some w =>
          if jsTrim w.body = "" then c.store
          else c.store.addDMMessage w.partnerId
            ⟨id, auth.username, auth.userId, jsTrim w.body, timestamp, .sent, true⟩
      | _, _ => c.store
  | .ackEffect =>
      match c.window with
      | some w =>
          (toAck w.ackedIds (c.store.conversation w.partnerId)).foldl
            (fun s id => s.updateDMMessageStatus w.partnerId id .read) c.store
      | none => c.store
  | .history n msgs =>
      match c.requests[n]? with
      | some r =>
          if msgs = [] then c.store
          else c.store.setDMHistory getTime r.partnerId (msgs.map (fromHistory r.userId))
      | none => c.store
  | .frame _ f => c.store.onmessage f
  | .typingTimeout chatId =>
      if chatId ∈ c.typingTimers then c.store.setTyping chatId false else c.store
  | _ => c.store

/-- **WHAT A STEP DOES**, read off the state before it: the store it leaves, what it
    writes, and that only a selection brings a new partner into the window or a request. -/
structure Stepped (getTime : String → Option Int) (c : Client) (e : ClientEvent)
    (c' : Client) : Prop where
  store : c'.store = c.storeAfter getTime e
  written : c'.written = c.written ++ c.writes e
  window : ∀ w' ∈ c'.window, (∃ w ∈ c.window, w.partnerId = w'.partnerId) ∨
    e = .openChat w'.partnerId
  requests : ∀ r' ∈ c'.requests, r' ∈ c.requests ∨ e = .openChat r'.partnerId

/-- A step that writes nothing and leaves the window and the requests. -/
theorem Stepped.quiet {e : ClientEvent} (hstore : c'.store = c.storeAfter getTime e)
    (hwrites : c.writes e = []) (hwritten : c'.written = c.written)
    (hwindow : c'.window = none ∨ c'.window = c.window)
    (hrequests : c'.requests ⊆ c.requests) : Stepped getTime c e c' where
  store := hstore
  written := by rw [hwritten, hwrites, List.append_nil]
  window := by
    intro w' hw'
    rcases hwindow with hnone | hsame
    · rw [hnone] at hw'
      cases hw'
    · rw [hsame] at hw'
      exact Or.inl ⟨w', hw', rfl⟩
  requests := fun r' hr' => Or.inl (hrequests hr')

/-- Selecting a contact is a step. -/
theorem stepped_openChat (c : Client) (auth : Auth) (id : String) :
    Stepped getTime c (.openChat id) (c.openChat auth id) := by
  have hnew : ∀ r' ∈ c.requests ++ [⟨id, some auth.userId⟩],
      r' ∈ c.requests ∨ ClientEvent.openChat id = .openChat r'.partnerId := by
    intro r' hmem
    rcases List.mem_append.mp hmem with hold | hone
    · exact Or.inl hold
    · rw [List.mem_singleton.mp hone]
      exact Or.inr rfl
  cases hw : c.window with
  | none =>
      rw [openChat, hw]
      refine ⟨rfl, (List.append_nil _).symm, fun w' hw' => ?_, hnew⟩
      cases hw'
      exact Or.inr rfl
  | some w =>
      rw [openChat, hw]
      simp only
      split
      · exact Stepped.quiet rfl rfl rfl (Or.inr rfl) (List.Subset.refl _)
      · refine ⟨rfl, (List.append_nil _).symm, fun w' hw' => ?_, hnew⟩
        cases hw'
        exact Or.inr rfl

/-- `handleSend` is a step. -/
theorem stepped_send {auth : Auth} {w : ChatWindow} (hauth : c.store.auth = some auth)
    (hw : c.window = some w) (id timestamp : String) :
    Stepped getTime c (.send id timestamp) (c.handleSend auth w id timestamp) := by
  have hstore : c.storeAfter getTime (.send id timestamp) = if jsTrim w.body = "" then c.store
      else c.store.addDMMessage w.partnerId
        ⟨id, auth.username, auth.userId, jsTrim w.body, timestamp, .sent, true⟩ := by
    rw [storeAfter, hauth, hw]
  have hwrites : c.writes (.send id timestamp) = if c.hook.refOpen then
      (if jsTrim w.body = "" then [] else [.message w.partnerId (jsTrim w.body) id]) else [] := by
    rw [writes, owed, hauth, hw]
  rw [handleSend]
  by_cases hblank : jsTrim w.body = ""
  · rw [if_pos hblank] at hstore ⊢
    rw [if_pos hblank, ite_self] at hwrites
    exact Stepped.quiet hstore.symm hwrites rfl (Or.inr rfl) (List.Subset.refl _)
  · rw [if_neg hblank] at hstore ⊢
    rw [if_neg hblank] at hwrites
    refine ⟨?_, ?_, fun w' hw' => ?_, fun r' hr' => ?_⟩
    · rw [hstore]
      exact send_store _ _
    · rw [hwrites]
      exact send_written _ _
    · cases hw'
      exact Or.inl ⟨w, hw, rfl⟩
    · left
      simp only [send_requests] at hr'
      exact hr'

/-- A run of the ack effect is a step. -/
theorem stepped_ackEffect {w : ChatWindow} (hw : c.window = some w) :
    Stepped getTime c .ackEffect (c.ackEffect w) where
  store := by
    rw [storeAfter, hw]
    exact ackAll_store w.partnerId c _
  written := by
    rw [writes, owed, hw]
    exact ackAll_written w.partnerId c _
  window := by
    intro w' hw'
    cases hw'
    exact Or.inl ⟨w, hw, rfl⟩
  requests := by
    intro r' hr'
    rw [ackEffect, ackAll_requests] at hr'
    exact Or.inl hr'

/-- A presence check that is written on an open socket, after other frames. -/
theorem stepped_checkPresence {d : Client} {e : ClientEvent} {ws : Nat} {ids : List String}
    {fs : List OutFrame} (hopen : d.hook.isOpen ws = true)
    (hstore : d.store = c.storeAfter getTime e) (hwritten : d.written = c.written ++ fs)
    (hwrites : c.writes e = fs ++ if ids = [] then [] else [.presenceCheck ids])
    (hwindow : d.window = c.window) (hrequests : d.requests = c.requests) :
    Stepped getTime c e (d.checkPresence ws ids) where
  store := (checkPresence_store d ws ids).trans hstore
  written := by
    rw [checkPresence_written d hopen, hwritten, hwrites, List.append_assoc]
  window := by
    intro w' hw'
    rw [checkPresence_window, hwindow] at hw'
    exact Or.inl ⟨w', hw', rfl⟩
  requests := by
    intro r' hr'
    rw [checkPresence_requests, hrequests] at hr'
    exact Or.inl hr'

/-- **WHAT A STEP OF THE CLIENT DOES**, event by event. -/
theorem step_cases {e : ClientEvent} (h : c.step getTime e = some c') :
    Stepped getTime c e c' := by
  cases e with
  | login auth =>
      obtain ⟨-, heq⟩ := Option.ite_none_right_eq_some.mp h
      cases heq
      exact Stepped.quiet rfl rfl rfl (Or.inl rfl) (List.Subset.refl _)
  | logout =>
      obtain ⟨auth, -, rfl⟩ := Option.map_eq_some_iff.mp h
      exact Stepped.quiet rfl rfl rfl (Or.inl rfl) (List.Subset.refl _)
  | reload =>
      cases h
      exact Stepped.quiet rfl rfl rfl (Or.inl rfl) (List.nil_subset _)
  | openChat id =>
      obtain ⟨auth, -, rfl⟩ := Option.map_eq_some_iff.mp h
      exact stepped_openChat c auth id
  | back =>
      obtain ⟨auth, -, rfl⟩ := Option.map_eq_some_iff.mp h
      exact Stepped.quiet rfl rfl rfl (Or.inl rfl) (List.Subset.refl _)
  | input body =>
      obtain ⟨w, hw, rfl⟩ := Option.map_eq_some_iff.mp h
      refine ⟨send_store _ _, ?_, fun w' hw' => ?_, fun r' hr' => ?_⟩
      · rw [send_written, writes, hw]
        rfl
      · rw [send_window] at hw'
        cases hw'
        exact Or.inl ⟨w, hw, rfl⟩
      · rw [send_requests] at hr'
        exact Or.inl hr'
  | send id timestamp =>
      obtain ⟨auth, hauth, hmap⟩ := Option.bind_eq_some_iff.mp h
      obtain ⟨w, hw, rfl⟩ := Option.map_eq_some_iff.mp hmap
      exact stepped_send hauth hw id timestamp
  | ackEffect =>
      obtain ⟨w, hw, rfl⟩ := Option.map_eq_some_iff.mp h
      exact stepped_ackEffect hw
  | history n msgs =>
      obtain ⟨r, hr, rfl⟩ := Option.map_eq_some_iff.mp h
      refine Stepped.quiet ?_ rfl rfl (Or.inr rfl) fun r' hr' => List.mem_of_mem_eraseIdx hr'
      rw [storeAfter, hr]
      rfl
  | opened ws =>
      obtain ⟨hook, hopen, rfl⟩ := Option.map_eq_some_iff.mp h
      exact stepped_checkPresence (Hook.isOpen_onopen hopen) rfl (List.append_nil _).symm rfl rfl rfl
  | closing ws =>
      obtain ⟨hook, -, rfl⟩ := Option.map_eq_some_iff.mp h
      exact Stepped.quiet rfl rfl rfl (Or.inr rfl) (List.Subset.refl _)
  | closed ws =>
      obtain ⟨hook, -, rfl⟩ := Option.map_eq_some_iff.mp h
      exact Stepped.quiet rfl rfl rfl (Or.inr rfl) (List.Subset.refl _)
  | reconnect =>
      obtain ⟨hook, -, rfl⟩ := Option.map_eq_some_iff.mp h
      exact Stepped.quiet rfl rfl rfl (Or.inr rfl) (List.Subset.refl _)
  | heartbeat ws =>
      obtain ⟨hopen, heq⟩ := Option.ite_none_right_eq_some.mp h
      cases heq
      exact stepped_checkPresence hopen rfl rfl rfl rfl rfl
  | frame ws f =>
      obtain ⟨hopen, heq⟩ := Option.ite_none_right_eq_some.mp h
      cases heq
      cases f with
      | message fromID sender body messageID timestamp =>
          exact stepped_checkPresence hopen rfl (List.append_nil _).symm rfl rfl rfl
      | sent | read | groupMessage | presence | typing | ignored =>
          exact Stepped.quiet rfl rfl rfl (Or.inr rfl) (List.Subset.refl _)
  | typingTimeout chatId =>
      rw [step] at h
      split at h <;> rename_i hmem <;> cases h
      · exact Stepped.quiet (if_pos hmem).symm rfl rfl (Or.inr rfl) (List.Subset.refl _)
      · exact Stepped.quiet (if_neg hmem).symm rfl rfl (Or.inr rfl) (List.Subset.refl _)

end Client

end PeerWeb
