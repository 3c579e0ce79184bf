import PeerChat.WebClientProofs

/-! # Sessions of different users in one browser

    Logging out clears the credentials; the messages stay, so that history survives
    logout and login.  Whoever logs in next in the same browser is shown them.

    What is shown and written is a function of the messages, the credentials, the
    refs of the page, the open window and the requests under way: `core` forgets the
    rest, and a step commutes with it.  So two sessions that leave the same messages
    and the same open requests leave nothing else that a later user could see. -/

namespace PeerWeb

open JsRecord KeyedTable

/-! ## What the user is shown -/

/-- A row of the contact list; ids are ASCII. -/
structure Contact where
  id : String
  name : String
  lastMessage : Option String
  lastTime : Option String
  unread : Nat
  deriving DecidableEq, Repr

/-- `contacts` of `ChatPage`. -/
def ChatStore.contacts (s : ChatStore) : List Contact :=
  s.dmMessages.ownKeys.map fun id =>
    let msgs := s.conversation id
    { id := id
      name := ((msgs.find? fun m => m.fromID = id).map Message.sender).getD
        (String.ofList (id.toList.take 8))
      lastMessage := msgs.getLast?.map Message.body
      lastTime := msgs.getLast?.map Message.timestamp
      unread := msgs.countP Message.isUnread }

/-- From `a₁` to `c₁` and from `a₂` to `c₂` the same is written, and the same is shown in
    the end. -/
structure SameForUser (a₁ a₂ c₁ c₂ : Client) : Prop where
  contacts : c₁.store.contacts = c₂.store.contacts
  messages : ∀ k, c₁.store.conversation k = c₂.store.conversation k
  frames : ∃ fs, c₁.written = a₁.written ++ fs ∧ c₂.written = a₂.written ++ fs

/-- A session: the login, whatever follows, the logout. -/
def session (auth : Auth) (es : List ClientEvent) : List ClientEvent :=
  .login auth :: es ++ [.logout]

/-! ## What a later step can depend on -/

/-- The store without presence, typing indicators and groups. -/
def ChatStore.core (s : ChatStore) : ChatStore :=
  { s with groupMessages := Record.empty, presence := Record.empty, typing := Record.empty }

namespace Client

def core (c : Client) : Client :=
  { c with store := c.store.core, typingTimers := [], written := [] }

variable {getTime : String → Option Int} {c c' c₁ c₂ a₁ a₂ : Client}

@[simp] theorem core_core (c : Client) : c.core.core = c.core := rfl

/-- What is written is no part of the core. -/
theorem core_send (c : Client) (f : OutFrame) : (c.send f).core = c.core := by
  rw [send]
  split <;> rfl

/-- Clients with one core have one after `send`. -/
theorem core_send_congr (h : c.core = c'.core) (f : OutFrame) :
    (c.send f).core = (c'.send f).core := by
  rw [core_send, core_send, h]

/-- A presence check leaves the core as it is. -/
theorem core_checkPresence (c : Client) (ws : Nat) (ids : List String) :
    (c.checkPresence ws ids).core = c.core := by
  rw [checkPresence]
  split <;> rfl

/-- Clients with one core have one after a presence check. -/
theorem core_checkPresence_congr (h : c.core = c'.core) (ws : Nat) (ids : List String) :
    (c.checkPresence ws ids).core = (c'.checkPresence ws ids).core := by
  rw [core_checkPresence, core_checkPresence, h]

/-- Acks change the core's conversations, as they do the client's. -/
theorem core_ackAll (p : String) (c : Client) (ids : List String) :
    (ids.foldl (ackOne p) c).core
      = { c.core with
          store := ids.foldl (fun s id => s.updateDMMessageStatus p id .read) c.core.store } := by
  induction ids generalizing c with
  | nil => rfl
  | cons id ids ih =>
      have hone : (ackOne p c id).core
          = { c.core with store := c.core.store.updateDMMessageStatus p id .read } := by
        rw [ackOne, send]
        split <;> rfl
      rw [List.foldl_cons, ih, hone]
      rfl

/-- The ack effect works on the core. -/
theorem core_ackEffect (c : Client) (w : ChatWindow) :
    (c.ackEffect w).core = (c.core.ackEffect w).core := by
  have hall := core_ackAll w.partnerId c
    (toAck w.ackedIds (c.store.conversation w.partnerId))
  have hall' := core_ackAll w.partnerId c.core
    (toAck w.ackedIds (c.store.conversation w.partnerId))
  exact congrArg (fun d : Client => { d with
    window := some { w with
      ackedIds := w.ackedIds ++ toAck w.ackedIds (c.store.conversation w.partnerId) } })
    (hall.trans hall'.symm)

/-- `handleSend` works on the core. -/
theorem core_handleSend (c : Client) (auth : Auth) (w : ChatWindow) (id timestamp : String) :
    (c.handleSend auth w id timestamp).core
      = (c.core.handleSend auth w id timestamp).core := by
  have hsent : ∀ (m : Message) (f : OutFrame),
      (({ c with store := c.store.addDMMessage w.partnerId m } : Client).send f).core
        = (({ c.core with store := c.core.store.addDMMessage w.partnerId m } : Client).send f).core :=
    fun _ f => core_send_congr (by rfl) f
  rw [handleSend, handleSend]
  split
  · rfl
  · exact congrArg (fun d : Client => { d with window := some { w with body := "" } })
      (hsent _ _)

/-- A frame works on the core of the store. -/
theorem core_storeOnmessage (s : ChatStore) (f : Incoming) :
    (s.onmessage f).core = (s.core.onmessage f).core := by
  cases f with
  | message => rfl
  | sent id messageID =>
      have hholder : s.core.holder id = s.holder id := rfl
      simp only [ChatStore.onmessage, hholder]
      cases s.holder id <;> rfl
  | read messageID =>
      have hholder : s.core.holder messageID = s.holder messageID := rfl
      simp only [ChatStore.onmessage, hholder]
      cases s.holder messageID <;> rfl
  | groupMessage | presence | typing | ignored => rfl

/-- `onmessage` works on the core. -/
theorem core_onmessage (c : Client) (ws : Nat) (f : Incoming) :
    (c.onmessage ws f).core = (c.core.onmessage ws f).core := by
  have hstore := congrArg (fun s => { c.core with store := s }) (core_storeOnmessage c.store f)
  cases f with
  | message fromID sender body messageID timestamp =>
      exact core_checkPresence_congr (by exact hstore) ws [fromID]
  | sent | read | groupMessage | presence | typing | ignored => exact hstore

/-- A history answer works on the core. -/
theorem core_historyAnswer (c : Client) (n : Nat) (r : HistoryRequest)
    (msgs : List HistoryMessage) :
    (c.historyAnswer getTime n r msgs).core = (c.core.historyAnswer getTime n r msgs).core := by
  rw [historyAnswer, historyAnswer]
  split <;> rfl

/-- Opening a chat works on the core. -/
theorem core_openChat (c : Client) (auth : Auth) (id : String) :
    (c.openChat auth id).core = (c.core.openChat auth id).core := by
  have hwindow : c.core.window = c.window := rfl
  rw [openChat, openChat, hwindow]
  cases c.window with
  | none => rfl
  | some w =>
      simp only
      split <;> rfl

/-- **A STEP DEPENDS ON THE CORE ONLY.** -/
theorem step_core (c : Client) (e : ClientEvent) :
    (c.step getTime e).map core = (c.core.step getTime e).map core := by
  have hauth : c.core.store.auth = c.store.auth := rfl
  have hwindow : c.core.window = c.window := rfl
  have hhook : c.core.hook = c.hook := rfl
  have hrequests : c.core.requests = c.requests := rfl
  cases e with
  | login auth =>
      simp only [step, hauth]
      split <;> rfl
  | logout =>
      simp only [step, hauth]
      cases c.store.auth <;> rfl
  | reload =>
      simp only [step, hauth]
      rfl
  | openChat id =>
      simp only [step, hauth, Option.map_map]
      cases c.store.auth with
      | none => rfl
      | some auth => exact congrArg some (core_openChat c auth id)
  | back =>
      simp only [step, hauth]
      cases c.store.auth <;> rfl
  | input body =>
      simp only [step, hwindow]
      cases c.window with
      | none => rfl
      | some w => exact congrArg some (core_send_congr (by rfl) _)
  | send id timestamp =>
      simp only [step, hauth, hwindow]
      cases c.store.auth with
      | none => simp only [Option.bind_none]
      | some auth =>
          cases c.window with
          | none => simp only [Option.map_none, Option.bind_some]
          | some w => exact congrArg some (core_handleSend c auth w id timestamp)
  | ackEffect =>
      simp only [step, hwindow]
      cases c.window with
      | none => rfl
      | some w => exact congrArg some (core_ackEffect c w)
  | history n msgs =>
      simp only [step, hrequests]
      cases c.requests[n]? with
      | none => rfl
      | some r => exact congrArg some (core_historyAnswer c n r msgs)
  | opened ws =>
      simp only [step, hhook]
      cases c.hook.onopen ws with
      | none => rfl
      | some hook => exact congrArg some (core_checkPresence_congr (by rfl) ws _)
  | closing ws =>
      simp only [step, hhook]
      cases c.hook.closing ws <;> rfl
  | closed ws =>
      simp only [step, hhook]
      cases c.hook.onclose ws <;> rfl
  | reconnect =>
      simp only [step, hhook]
      cases c.hook.onTimer <;> rfl
  | heartbeat ws =>
      simp only [step, hhook]
      split
      · exact congrArg some (core_checkPresence_congr (by rfl) ws _)
      · rfl
  | frame ws f =>
      simp only [step, hhook]
      split
      · exact congrArg some (core_onmessage c ws f)
      · rfl
  | typingTimeout chatId =>
      have hnone : chatId ∉ c.core.typingTimers := List.not_mem_nil
      simp only [step, if_neg hnone]
      split <;> rfl

/-- What an event writes is decided by the core. -/
theorem writes_core (c : Client) (e : ClientEvent) : c.writes e = c.core.writes e := by
  cases e with
  | frame ws f => cases f <;> rfl
  | _ => rfl

/-! ## Two runs -/

/-- Clients with one core run alike. -/
theorem runs_agree {es : List ClientEvent} (hcore : a₁.core = a₂.core)
    (h : a₁.run getTime es = some c₁) :
    ∃ c₂, a₂.run getTime es = some c₂ ∧ c₁.core = c₂.core ∧
      ∃ fs, c₁.written = a₁.written ++ fs ∧ c₂.written = a₂.written ++ fs := by
  induction es generalizing a₁ a₂ with
  | nil =>
      cases h
      exact ⟨a₂, rfl, hcore, [], (List.append_nil _).symm, (List.append_nil _).symm⟩
  | cons e es ih =>
      obtain ⟨b₁, hstep₁, hrest₁⟩ := Option.bind_eq_some_iff.mp h
      have hstep : (a₂.step getTime e).map core = some b₁.core := by
        rw [step_core, ← hcore, ← step_core, hstep₁]
        rfl
      obtain ⟨b₂, hstep₂, hb⟩ := Option.map_eq_some_iff.mp hstep
      obtain ⟨c₂, hrest₂, hc, fs, hfs₁, hfs₂⟩ := ih hb.symm hrest₁
      refine ⟨c₂, ?_, hc, a₁.writes e ++ fs, ?_, ?_⟩
      · rw [run, hstep₂]
        exact hrest₂
      · rw [hfs₁, (step_cases hstep₁).written, List.append_assoc]
      · rw [hfs₂, (step_cases hstep₂).written, List.append_assoc, writes_core a₂, ← hcore, ← writes_core]

/-- After a session nobody is logged in. -/
theorem session_auth {auth : Auth} {es : List ClientEvent}
    (h : c.run getTime (session auth es) = some c') : c'.store.auth = none := by
  rw [session, run_append] at h
  obtain ⟨mid, -, hlast⟩ := Option.bind_eq_some_iff.mp h
  obtain ⟨d, hstep, hdone⟩ := Option.bind_eq_some_iff.mp hlast
  cases hdone
  obtain ⟨-, -, rfl⟩ := Option.map_eq_some_iff.mp hstep
  rfl

/-- **AFTER THE SAME MESSAGES THE SAME FOR THE NEXT USER**: of the sessions before it a
    session sees the stored messages and the unanswered history requests. -/
theorem sessions_agree {authA authB : Auth} {es₁ es₂ later : List ClientEvent}
    (_h₁ : start.run getTime (session authA es₁) = some a₁)
    (h₂ : start.run getTime (session authA es₂) = some a₂)
    (hmessages : a₁.store.dmMessages = a₂.store.dmMessages)
    (hrequests : a₁.requests = a₂.requests)
    (h : a₁.run getTime (.login authB :: later) = some c₁) :
    ∃ c₂, a₂.run getTime (.login authB :: later) = some c₂ ∧ SameForUser a₁ a₂ c₁ c₂ := by
  have hauth₂ := session_auth h₂
  obtain ⟨b₁, hlogin, hrest⟩ := Option.bind_eq_some_iff.mp h
  obtain ⟨⟨-, htoken⟩, heq⟩ := Option.ite_none_right_eq_some.mp hlogin
  cases heq
  have hlogin₂ : a₂.step getTime (.login authB) = some { a₂ with
      store := a₂.store.setAuth authB, hook := Hook.fresh.effect, window := none } :=
    if_pos ⟨hauth₂, htoken⟩
  have hstart : ({ a₁ with
        store := a₁.store.setAuth authB, hook := Hook.fresh.effect, window := none } : Client).core
      = ({ a₂ with
        store := a₂.store.setAuth authB, hook := Hook.fresh.effect, window := none } : Client).core := by
    simp only [core, ChatStore.core, ChatStore.setAuth, hmessages, hrequests]
  obtain ⟨c₂, hrest₂, hcore, hframes⟩ := runs_agree hstart hrest
  have hcontacts := congrArg (fun d : Client => d.store.contacts) hcore
  have hconversations := fun k => congrArg (fun d : Client => d.store.conversation k) hcore
  refine ⟨c₂, ?_, hcontacts, hconversations, hframes⟩
  rw [run, hlogin₂]
  exact hrest₂

/-- Alice writes to bob, or does not. -/
def aliceWritesBob : List ClientEvent :=
  [.openChat "bob", .input "hello", .send "c1" "2026-04-07T10:00:00Z", .history 0 []]

def aliceLogin : Auth := ⟨"ta", "alice", "alice"⟩

def carolLogin : Auth := ⟨"tc", "carol", "carol"⟩

/-- Whether or not alice has typed something, carol sees the same. -/
theorem sessions_agree_typing : ∃ a₁ a₂ c₁ c₂,
    start.run sampleTime (session aliceLogin []) = some a₁ ∧
    start.run sampleTime (session aliceLogin [.opened 0, .openChat "bob", .input "hm",
      .history 0 []]) = some a₂ ∧
    a₁.run sampleTime [.login carolLogin, .opened 0] = some c₁ ∧
    a₂.run sampleTime [.login carolLogin, .opened 0] = some c₂ ∧ SameForUser a₁ a₂ c₁ c₂ := by
  have hsessions : ∃ a₁ a₂ c₁, start.run sampleTime (session aliceLogin []) = some a₁ ∧
      start.run sampleTime (session aliceLogin [.opened 0, .openChat "bob", .input "hm",
        .history 0 []]) = some a₂ ∧
      a₁.run sampleTime [.login carolLogin, .opened 0] = some c₁ ∧
      a₁.store.dmMessages = a₂.store.dmMessages ∧ a₁.requests = a₂.requests :=
    ⟨_, _, _, rfl, rfl, rfl, rfl, rfl⟩
  obtain ⟨a₁, a₂, c₁, h₁, h₂, h, hmessages, hrequests⟩ := hsessions
  obtain ⟨c₂, hrun, hsame⟩ := sessions_agree h₁ h₂ hmessages hrequests h
  exact ⟨a₁, a₂, c₁, c₂, h₁, h₂, h, hrun, hsame⟩

/-- There is a contact for each conversation. -/
theorem contacts_length (s : ChatStore) : s.contacts.length = s.dmMessages.rows.length := by
  rw [ChatStore.contacts, List.length_map, length_ownKeys]

/-- Alice's contact is carol's. -/
theorem contact_of_the_other_user : ¬ ∀ (authA authB : Auth) (es₁ es₂ later : List ClientEvent)
    (a₁ a₂ c₁ c₂ : Client), authA.userId ≠ authB.userId →
    start.run sampleTime (session authA es₁) = some a₁ →
    start.run sampleTime (session authA es₂) = some a₂ →
    a₁.run sampleTime (.login authB :: later) = some c₁ →
    a₂.run sampleTime (.login authB :: later) = some c₂ → SameForUser a₁ a₂ c₁ c₂ := by
  intro hall
  have hruns : ∃ a₁ a₂ c₁ c₂,
      start.run sampleTime (session aliceLogin aliceWritesBob) = some a₁ ∧
      start.run sampleTime (session aliceLogin []) = some a₂ ∧
      a₁.run sampleTime [.login carolLogin] = some c₁ ∧
      a₂.run sampleTime [.login carolLogin] = some c₂ ∧
      c₁.store.dmMessages.rows.length = 1 ∧ c₂.store.dmMessages.rows.length = 0 :=
    ⟨_, _, _, _, rfl, rfl, rfl, rfl, rfl, rfl⟩
  obtain ⟨a₁, a₂, c₁, c₂, h₁, h₂, h₃, h₄, hone, hzero⟩ := hruns
  have hsame := hall aliceLogin carolLogin _ _ [] a₁ a₂ c₁ c₂ (by decide) h₁ h₂ h₃ h₄
  have hlength := congrArg List.length hsame.contacts
  rw [contacts_length, contacts_length, hone, hzero] at hlength
  exact absurd hlength (by decide)

end Client

end PeerWeb
