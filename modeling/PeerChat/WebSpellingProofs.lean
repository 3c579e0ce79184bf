import PeerChat.HandlerProofs
import PeerChat.WebStatusProofs

/-! # One conversation for a contact

    The page keys a chat by the text that was typed into the contact field; the server
    parses that text, and its frames carry the id of the contact as `UUID.String` writes
    it.  `uuid.Parse` accepts an id in several spellings, so what is sent and what is
    received meet under one key only if the text is the one the server writes. -/

namespace PeerWeb

open JsonScan JsonDecode JsonEncode JsRecord KeyedTable PeerEnv PeerFrame PeerHandler

/-! ## Under which key something is kept -/

namespace ChatStore

/-- The conversation of `k` gets the entry `m`, and no other changes. -/
def Files (s s' : ChatStore) (k : String) (m : Message) : Prop :=
  s'.conversation k = s.conversation k ++ [m] ∧
    ∀ k', k' ≠ k → s'.conversation k' = s.conversation k'

/-- The presence of `k` is set, and no other. -/
def SetsPresence (s s' : ChatStore) (k : String) (online : Bool) : Prop :=
  s'.presence.get? k = some online ∧ ∀ k', k' ≠ k → s'.presence.get? k' = s.presence.get? k'

variable {s s' s'' : ChatStore}

/-- `addDMMessage` files its message under its key. -/
theorem files_addDMMessage (s : ChatStore) (k : String) (m : Message) :
    s.Files (s.addDMMessage k m) k m := by
  refine ⟨?_, fun k' hk => ?_⟩
  · rw [conversation_addDMMessage, if_pos rfl]
  · rw [conversation_addDMMessage, if_neg hk]

/-- An entry is filed under one key. -/
theorem files_key {k k' : String} {m m' : Message} (h : s.Files s' k m)
    (h' : s.Files s' k' m') : k = k' := by
  by_contra hne
  have hsame : s.conversation k ++ [m] = s.conversation k := h.1.symm.trans (h'.2 k hne)
  exact List.cons_ne_nil m [] (List.append_right_eq_self.mp hsame)

/-- `setPresence` sets the dot of its key. -/
theorem setsPresence_setPresence (s : ChatStore) (k : String) (online : Bool) :
    s.SetsPresence (s.setPresence k online) k online :=
  ⟨get?_set_self _ _ _, fun _ hk => get?_set_ne _ _ hk⟩

variable (name : String → String)

/-- Nothing is taken out of a conversation, and no presence is forgotten. -/
structure Keeps (s s' : ChatStore) : Prop where
  held : ∀ k x, Held name (s.conversation k) x → Held name (s'.conversation k) x
  presence : ∀ k, (s.presence.get? k).isSome = true → (s'.presence.get? k).isSome = true

variable {name}

theorem Keeps.refl (s : ChatStore) : s.Keeps name s := ⟨fun _ _ h => h, fun _ h => h⟩

/-- What is kept twice is kept. -/
theorem Keeps.trans (h : s.Keeps name s') (h' : s'.Keeps name s'') : s.Keeps name s'' :=
  ⟨fun k x hx => h'.held k x (h.held k x hx), fun k hk => h'.presence k (h.presence k hk)⟩

theorem keeps_setConversation {k : String} {l : List Message}
    (h : ∀ x, Held name (s.conversation k) x → Held name l x) :
    s.Keeps name (s.setConversation k l) where
  held := by
    intro k' x hx
    by_cases hk : k' = k
    · rw [hk] at hx ⊢
      rw [conversation_setConversation_self]
      exact h x hx
    · rw [conversation_setConversation_ne s l hk]
      exact hx
  presence := fun _ hk => hk

/-- Adding a message keeps what is held. -/
theorem keeps_addDMMessage (s : ChatStore) (k : String) (m : Message) :
    s.Keeps name (s.addDMMessage k m) := keeps_setConversation fun _ hx => held_append hx m

/-- A status update keeps what is held. -/
theorem keeps_updateDMMessageStatus (s : ChatStore) (k i : String) (st : PeerStore.Status) :
    s.Keeps name (s.updateDMMessageStatus k i st) :=
  keeps_setConversation fun _ hx => held_map (fun m => by rw [mark_id]) hx

/-- Acks keep what is held. -/
theorem keeps_markAll (p : String) (ids : List String) (s : ChatStore) :
    s.Keeps name (ids.foldl (fun s id => s.updateDMMessageStatus p id .read) s) :=
  List.foldlRecOn ids _ (Keeps.refl s) fun s' h id _ =>
    h.trans (keeps_updateDMMessageStatus s' p id .read)

/-- A presence change keeps what is held. -/
theorem keeps_setPresence (s : ChatStore) (k : String) (online : Bool) :
    s.Keeps name (s.setPresence k online) where
  held := fun _ _ h => h
  presence := by
    intro k' hk'
    by_cases hk : k' = k
    · rw [hk, (setsPresence_setPresence s k online).1]
      rfl
    · rw [(setsPresence_setPresence s k online).2 k' hk]
      exact hk'

end ChatStore

/-- The two ids of a 'sent' frame are one message. -/
def ClientEvent.OneName (name : String → String) : ClientEvent → Prop
  | .frame _ (.sent id messageID) => name id = name messageID
  | _ => True

namespace Client

variable {getTime : String → Option Int} {name : String → String} {c c₁ c₂ c' d d' : Client}

/-- A frame of the one name keeps what is held under it. -/
theorem keeps_onmessage (s : ChatStore) {ws : Nat} {f : Incoming}
    (hname : (ClientEvent.frame ws f).OneName name) : s.Keeps name (s.onmessage f) := by
  cases f with
  | message fromID sender body messageID timestamp => exact ChatStore.keeps_addDMMessage s _ _
  | sent id messageID =>
      rw [ChatStore.onmessage]
      split
      · exact ChatStore.keeps_setConversation fun _ hx => held_map (confirm_name hname) hx
      · exact ChatStore.Keeps.refl s
  | read messageID =>
      rw [ChatStore.onmessage]
      split
      · exact ChatStore.keeps_updateDMMessageStatus s _ _ _
      · exact ChatStore.Keeps.refl s
  | presence userID online => exact ChatStore.keeps_setPresence s userID online
  | groupMessage | typing | ignored => exact ⟨fun _ _ h => h, fun _ h => h⟩

/-- **NOTHING MOVES TO ANOTHER KEY**, in any step. -/
theorem keeps_step {e : ClientEvent} (hname : e.OneName name) (h : c.step getTime e = some c') :
    c.store.Keeps name c'.store := by
  rw [(step_cases h).store]
  cases e with
  | send id timestamp =>
      rw [storeAfter]
      split
      · split
        · exact ChatStore.Keeps.refl _
        · exact ChatStore.keeps_addDMMessage c.store _ _
      · exact ChatStore.Keeps.refl _
  | ackEffect =>
      rw [storeAfter]
      split
      · exact ChatStore.keeps_markAll _ _ c.store
      · exact ChatStore.Keeps.refl _
  | history n msgs =>
      rw [storeAfter]
      split
      · split
        · exact ChatStore.Keeps.refl _
        · exact ChatStore.keeps_setConversation fun _ hx =>
            held_history (List.mergeSort_perm _ _) hx
      · exact ChatStore.Keeps.refl _
  | frame ws f => exact keeps_onmessage c.store hname
  | typingTimeout chatId =>
      rw [storeAfter]
      split
      · exact ⟨fun _ _ h => h, fun _ h => h⟩
      · exact ChatStore.Keeps.refl _
  | _ => exact ⟨fun _ _ h => h, fun _ h => h⟩

/-- A run of the one name keeps what is held under it. -/
theorem keeps_run {es : List ClientEvent} (hname : ∀ e ∈ es, e.OneName name)
    (h : c.run getTime es = some c') : c.store.Keeps name c'.store := by
  induction es generalizing c with
  | nil =>
      cases h
      exact ChatStore.Keeps.refl _
  | cons e es ih =>
      obtain ⟨mid, hstep, hrest⟩ := Option.bind_eq_some_iff.mp h
      have hone := keeps_step (hname e List.mem_cons_self) hstep
      exact hone.trans (ih (fun e' he' => hname e' (List.mem_cons_of_mem _ he')) hrest)

/-! ## The chat that was opened -/

/-- `handleStartChat`. -/
def handleStartChat (contactInput : String) : List ClientEvent :=
  if jsTrim contactInput = "" then [] else [.openChat (jsTrim contactInput)]

/-- The page has accepted `p`, and the chat opened with it is on the screen. -/
def InChat (c : Client) (p : String) (w : ChatWindow) : Prop :=
  jsTrim p ≠ "" ∧ c.window = some w ∧ w.partnerId = jsTrim p

/-- The chat that is started is the one on the screen. -/
theorem inChat_handleStartChat {p : String} (hp : jsTrim p ≠ "")
    (h : c.run getTime (handleStartChat p) = some c') : ∃ w, c'.InChat p w := by
  rw [handleStartChat, if_neg hp] at h
  obtain ⟨mid, hstep, hdone⟩ := Option.bind_eq_some_iff.mp h
  cases hdone
  obtain ⟨auth, -, rfl⟩ := Option.map_eq_some_iff.mp hstep
  rw [openChat]
  cases hw : c.window with
  | none => exact ⟨_, hp, rfl, rfl⟩
  | some w =>
      by_cases hid : w.partnerId = jsTrim p
      · refine ⟨w, hp, ?_, hid⟩
        simp only [if_pos hid]
        exact hw
      · refine ⟨{ w with partnerId := jsTrim p }, hp, ?_, rfl⟩
        simp only [if_neg hid]

/-- What the server makes of a message sent in it. -/
theorem parseDM_message (fmt : Formats) (senderID : UUID) (senderName : String)
    {dest : String} {receiverID : UUID} (h : fmt.uuidParse dest = some receiverID)
    (text id : String) :
    parseDM fmt senderID senderName (OutFrame.message dest text id).bytes
      = .ok ⟨senderID, senderName, receiverID, text, id⟩ := by
  have hentries : structEntries (OutFrame.message dest text id).bytes = some
      [("type", .str "message"), ("to", .str dest), ("body", .str text), ("id", .str id)] := by
    rw [structEntries, parse_bytes]
    rfl
  rw [parseDM, hentries]
  simp [stringField, keyMatches, foldRune, decodeString, h]

/-- A message that is sent is filed under the partner of the window. -/
theorem files_send {w : ChatWindow} {id timestamp : String} (hw : c.window = some w)
    (hbody : jsTrim w.body ≠ "") (h : c.step getTime (.send id timestamp) = some c') :
    ∃ m, m.id = id ∧ m.mine = true ∧ c.store.Files c'.store w.partnerId m := by
  obtain ⟨auth, hauth, -⟩ := Option.bind_eq_some_iff.mp h
  have hstore := (step_cases h).store
  rw [storeAfter, hauth, hw] at hstore
  simp only [if_neg hbody] at hstore
  rw [hstore]
  exact ⟨_, rfl, rfl, ChatStore.files_addDMMessage c.store _ _⟩

/-- What it is written as, if the socket is open. -/
theorem writes_send {w : ChatWindow} {id timestamp : String} (hw : c.window = some w)
    {f : OutFrame} (hf : f ∈ c.writes (.send id timestamp)) :
    f = .message w.partnerId (jsTrim w.body) id := by
  rw [writes, owed, hw] at hf
  split at hf
  · split at hf
    · rename_i heq
      cases heq
      split at hf
      · cases hf
      · exact List.mem_singleton.mp hf
    · cases hf
  · cases hf

/-! ## What is kept under a key -/

/-- A frame handled between `d` and `d'`, in a run that ends in `c`: a message of `B` is filed
    under `k` and still there, a presence of `B` is the one of `k`. -/
structure KeptUnder (fmt : Formats) (name : String → String) (B : UUID) (k : String)
    (f : Incoming) (d d' c : ChatStore) : Prop where
  message : ∀ sender body id timestamp,
    received fmt (.message sender B body id timestamp) = some f →
      (∃ m, m.id = fmt.uuidString id ∧ d.Files d' k m) ∧
        Held name (c.conversation k) (name (fmt.uuidString id))
  presence : ∀ status, received fmt (.presence B status) = some f →
    (∃ online, d.SetsPresence d' k online) ∧ (c.presence.get? k).isSome = true

/-- **ONE CONVERSATION FOR THE CONTACT**: what is sent in the chat opened with `p` goes to `B`,
    and it and whatever is handled of `B` after it are kept under one key. -/
def OneConversation (fmt : Formats) (getTime : String → Option Int) (p : String) (B : UUID) :
    Prop :=
  ∀ (name : String → String) (past later : List ClientEvent) (c c₁ c₂ : Client)
    (w : ChatWindow) (id timestamp : String),
    start.run getTime past = some c → c.InChat p w → jsTrim w.body ≠ "" →
    c.step getTime (.send id timestamp) = some c₁ → c₁.run getTime later = some c₂ →
    (∀ e ∈ later, e.OneName name) →
    (∀ f ∈ c.writes (.send id timestamp), ∀ A senderName, ∃ call,
      parseDM fmt A senderName f.bytes = .ok call ∧ call.receiverID = B) ∧
    ∃ k, (∃ m, m.id = id ∧ m.mine = true ∧ c.store.Files c₁.store k m) ∧
      Held name (c₂.store.conversation k) (name id) ∧
      ∀ before ws f after d d', later = before ++ .frame ws f :: after →
        c₁.run getTime before = some d → d.step getTime (.frame ws f) = some d' →
        KeptUnder fmt name B k f d.store d'.store c₂.store

/-- A message of the contact is filed under the id it carries. -/
theorem files_message {fmt : Formats} {B : UUID} {ws : Nat} {f : Incoming}
    {sender body : String} {id : UUID} {timestamp : Nat}
    (hf : received fmt (.message sender B body id timestamp) = some f)
    (h : d.step getTime (.frame ws f) = some d') :
    ∃ m, m.id = fmt.uuidString id ∧ d.store.Files d'.store (fmt.uuidString B) m := by
  rw [received_message] at hf
  cases hf
  rw [(step_cases h).store]
  exact ⟨_, rfl, ChatStore.files_addDMMessage d.store _ _⟩

/-- A presence frame sets the dot of the id it names. -/
theorem setsPresence_presence {fmt : Formats} {B : UUID} {ws : Nat} {f : Incoming}
    {status : String} (hf : received fmt (.presence B status) = some f)
    (h : d.step getTime (.frame ws f) = some d') :
    ∃ online, d.store.SetsPresence d'.store (fmt.uuidString B) online := by
  obtain ⟨online, hreceived, -⟩ := received_presence fmt B status
  rw [hreceived] at hf
  cases hf
  rw [(step_cases h).store]
  exact ⟨online, ChatStore.setsPresence_setPresence d.store _ _⟩

/-- A frame of the contact is kept under that id. -/
theorem keptUnder_frame {fmt : Formats} {B : UUID} {ws : Nat} {f : Incoming}
    (h : d.step getTime (.frame ws f) = some d') (hkeeps : d'.store.Keeps name c₂.store) :
    KeptUnder fmt name B (fmt.uuidString B) f d.store d'.store c₂.store where
  message := by
    intro sender body id timestamp hf
    obtain ⟨m, hid, hfiles⟩ := files_message hf h
    refine ⟨⟨m, hid, hfiles⟩, hkeeps.held _ _ ⟨m, ?_, by rw [hid]⟩⟩
    rw [hfiles.1]
    exact List.mem_concat_self
  presence := by
    intro status hf
    obtain ⟨online, hsets⟩ := setsPresence_presence hf h
    refine ⟨⟨online, hsets⟩, hkeeps.presence _ ?_⟩
    rw [hsets.1]
    rfl

/-- With the id as the server writes it the keys are one. -/
theorem oneConversation_of_canonical {fmt : Formats} {p : String} {B : UUID}
    (hparse : fmt.uuidParse (jsTrim p) = some B) (hp : jsTrim p = fmt.uuidString B) :
    OneConversation fmt getTime p B := by
  intro name past later c c₁ c₂ w id timestamp _ hchat hbody hsend hlater hname
  obtain ⟨-, hw, hpartner⟩ := hchat
  refine ⟨fun f hf A senderName => ?_, jsTrim p, ?_, ?_, ?_⟩
  · rw [writes_send hw hf, hpartner]
    exact ⟨_, parseDM_message fmt A senderName hparse _ _, rfl⟩
  · rw [← hpartner]
    exact files_send hw hbody hsend
  · obtain ⟨m, hid, -, hfiles⟩ := files_send hw hbody hsend
    refine (keeps_run hname hlater).held _ _ ⟨m, ?_, by rw [hid]⟩
    rw [← hpartner, hfiles.1]
    exact List.mem_concat_self
  · intro before ws f after d d' heq hbefore hframe
    -- whatever follows the frame keeps what it has filed
    rw [heq, run_append, hbefore, Option.bind_some, run, hframe, Option.bind_some] at hlater
    rw [hp]
    refine keptUnder_frame hframe (keeps_run (fun e he => hname e ?_) hlater)
    rw [heq]
    exact List.mem_append_right _ (List.mem_cons_of_mem _ he)

/-! ## Every other spelling -/

theorem handleSend_hook (c : Client) (auth : Auth) (w : ChatWindow) (id timestamp : String) :
    (c.handleSend auth w id timestamp).hook = c.hook := by
  rw [handleSend]
  split
  · rfl
  · exact send_hook _ _

/-- A user logs in, opens the chat and types a letter. -/
def opensChat (p : String) : List ClientEvent :=
  [.login ⟨"t", "alice", "alice"⟩, .opened 0] ++ handleStartChat p ++ [.input "x"]

/-- A chat can be opened with every text that is not blank. -/
theorem exists_opensChat (getTime : String → Option Int) {p : String} (hp : jsTrim p ≠ "") :
    ∃ c w auth, start.run getTime (opensChat p) = some c ∧ c.InChat p w ∧ w.body = "x" ∧
      c.store.auth = some auth ∧ c.hook.isOpen 0 = true := by
  rw [opensChat, handleStartChat, if_neg hp]
  exact ⟨_, ⟨jsTrim p, "x", []⟩, _, rfl, ⟨hp, rfl, rfl⟩, rfl, rfl, rfl⟩

/-- She sends it and handles whatever comes next. -/
theorem exists_answer (getTime : String → Option Int) {p : String} (hp : jsTrim p ≠ "")
    (f : Incoming) : ∃ c w c₁ c₂, start.run getTime (opensChat p) = some c ∧ c.InChat p w ∧
      jsTrim w.body ≠ "" ∧ c.step getTime (.send "c1" "") = some c₁ ∧
      c₁.step getTime (.frame 0 f) = some c₂ := by
  obtain ⟨c, w, auth, hrun, hchat, hbody, hauth, hopen⟩ := exists_opensChat getTime hp
  have hsend : c.step getTime (.send "c1" "") = some (c.handleSend auth w "c1" "") := by
    rw [step, hauth, hchat.2.1]
    rfl
  refine ⟨c, w, _, _, hrun, hchat, ?_, hsend, if_pos ?_⟩
  · rw [hbody]
    decide
  · rw [handleSend_hook, hopen]

/-- What is sent is under the text, what comes back under the id. -/
theorem canonical_of_oneConversation {fmt : Formats} {p : String} {B : UUID}
    (hp : jsTrim p ≠ "") (h : OneConversation fmt getTime p B) : jsTrim p = fmt.uuidString B := by
  obtain ⟨f, hf⟩ : ∃ f, received fmt (.message "bob" B "hi" ⟨0⟩ 0) = some f := ⟨_, rfl⟩
  obtain ⟨c, w, c₁, c₂, hrun, hchat, hbody, hsend, hframe⟩ := exists_answer getTime hp f
  have hlater : c₁.run getTime [.frame 0 f] = some c₂ := by
    rw [run, hframe]
    rfl
  have hname : ∀ e ∈ [ClientEvent.frame 0 f], e.OneName fun _ => "" := by
    intro e he
    rw [List.mem_singleton.mp he]
    -- under this naming every 'sent' frame is fine
    cases f <;> first | rfl | trivial
  obtain ⟨-, k, ⟨m, -, -, hsent⟩, -, hkept⟩ :=
    h (fun _ => "") _ _ c c₁ c₂ w "c1" "" hrun hchat hbody hsend hlater hname
  obtain ⟨⟨m', -, hreceived⟩, -⟩ := (hkept [] 0 f [] c₁ c₂ rfl rfl hframe).message _ _ _ _ hf
  obtain ⟨m₁, -, -, hfiles⟩ := files_send hchat.2.1 hbody hsend
  obtain ⟨m₂, -, hcanonical⟩ := files_message hf hframe
  calc jsTrim p = w.partnerId := hchat.2.2.symm
    _ = k := ChatStore.files_key hfiles hsent
    _ = fmt.uuidString B := ChatStore.files_key hreceived hcanonical

/-- **ONE CONVERSATION, EXACTLY FOR THE SERVER'S SPELLING.** -/
theorem oneConversation_iff {fmt : Formats} {p : String} {B : UUID} (hp : jsTrim p ≠ "")
    (hparse : fmt.uuidParse (jsTrim p) = some B) :
    OneConversation fmt getTime p B ↔ jsTrim p = fmt.uuidString B :=
  ⟨canonical_of_oneConversation hp, oneConversation_of_canonical hparse⟩

/-! ## The spellings of an id -/

/-- The value of hexadecimal digits, in bytes. -/
def hexBytes (bs : List UInt8) : Option Nat :=
  bs.foldlM (fun n b => (hexDigit b).map (n * 16 + ·)) 0

/-- The 36 bytes with hyphens, and what is behind them. -/
def hyphenated (bs : List UInt8) : Option UUID :=
  if [8, 13, 18, 23].all fun i => bs[i]? = some '-'.toUInt8 then
    (hexBytes (bs.take 8 ++ (bs.drop 9).take 4 ++ (bs.drop 14).take 4 ++ (bs.drop 19).take 4 ++
      (bs.drop 24).take 12)).map fun n => ⟨BitVec.ofNat 128 n⟩
  else none

/-- `uuid.Parse`: the digits in either case, after `urn:uuid:`, between two characters that
    are not looked at, or without hyphens. -/
def googleParse (s : String) : Option UUID :=
  let bs := s.toList.flatMap utf8
  if bs.length = 36 then hyphenated bs
  else if bs.length = 45 then
    if (s.toList.take 9).map Char.toLower = "urn:uuid:".toList then hyphenated (bs.drop 9)
    else none
  else if bs.length = 38 then hyphenated (bs.drop 1)
  else if bs.length = 32 then (hexBytes bs).map fun n => ⟨BitVec.ofNat 128 n⟩
  else none

/-- The formats with all spellings. -/
def googleFormats : Formats := { plainFormats with uuidParse := googleParse }

def bob : UUID := ⟨0xb0b⟩

example : ["00000000-0000-0000-0000-000000000B0B", "{00000000-0000-0000-0000-000000000b0b}",
    "URN:uuid:00000000-0000-0000-0000-000000000b0b", "00000000000000000000000000000b0b"].map
      googleParse = List.replicate 4 (some bob) := by decide

/-- Pasted with a blank in front. -/
theorem oneConversation_bob :
    OneConversation googleFormats sampleTime " 00000000-0000-0000-0000-000000000b0b" bob :=
  (oneConversation_iff (by decide) (by decide +kernel)).mpr (by decide +kernel)

/-- In capitals his answers are in another conversation. -/
theorem capitals_split :
    googleFormats.uuidParse (jsTrim "00000000-0000-0000-0000-000000000B0B") = some bob ∧
      ¬ OneConversation googleFormats sampleTime "00000000-0000-0000-0000-000000000B0B" bob := by
  refine ⟨by decide, fun hone => ?_⟩
  have hsame := canonical_of_oneConversation (by decide) hone
  revert hsame
  decide

end Client

end PeerWeb
