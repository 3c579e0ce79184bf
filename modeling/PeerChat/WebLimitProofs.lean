import PeerChat.WebClientProofs

/-! # The client's frames and the server's read limit

    `readPump` ends the connection of a client whose frame is longer than
    `maxMessageSize`.  Every frame of the client has a fixed length but two: the
    presence check over all contacts, which takes 39 bytes for each of them, and the
    'message' frame, which takes the body as it is quoted.

    Ids of users and messages are 36 plain characters. -/

namespace PeerWeb

open JsonScan JsonEncode JsRecord KeyedTable

/-- The read limit of `readPump`. -/
def maxMessageSize : Nat := 4096

/-- Does `readPump` accept the frame? -/
def OutFrame.Fits (f : OutFrame) : Prop := f.bytes.length ≤ maxMessageSize

/-- The text of an id. -/
def IdText (s : String) : Prop := s.length = 36 ∧ ∀ c ∈ s.toList, OneByte c

/-- As many contacts as a presence check has room for. -/
def maxContacts : Nat := 104

/-- As many bytes as a body may have between its quotes. -/
def maxBody : Nat := 3980

/-! ## How long the frames are -/

/-- An id is 36 bytes and two quotes. -/
theorem quote_idText {s : String} (h : IdText s) : (quote s).length = 38 := by
  rw [quote_length, body_length_oneByte h.2, h.1]

theorem length_type : (quote "type").length = 6 := by decide

theorem length_to : (quote "to").length = 4 := by decide

theorem length_ping : OutFrame.ping.bytes.length = 15 := by decide

/-- A typing frame is 61 bytes long. -/
theorem length_typing {dest : String} (h : IdText dest) :
    (OutFrame.typing dest).bytes.length = 61 := by
  have hvalue : (quote "typing").length = 8 := by decide
  simp only [OutFrame.bytes, OutFrame.json, encode, encodeEntries, List.length_cons,
    List.length_append, List.length_nil, length_type, hvalue, length_to, quote_idText h]

/-- An ack is 117 bytes long. -/
theorem length_ack {messageID senderID : String} (hm : IdText messageID) (hs : IdText senderID) :
    (OutFrame.ack messageID senderID).bytes.length = 117 := by
  have hvalue : (quote "ack").length = 5 := by decide
  have hmessage : (quote "message_id").length = 12 := by decide
  have hsender : (quote "sender_id").length = 11 := by decide
  simp only [OutFrame.bytes, OutFrame.json, encode, encodeEntries, List.length_cons,
    List.length_append, List.length_nil, length_type, hvalue, hmessage, hsender, quote_idText hm,
    quote_idText hs]

/-- The 'message' frame: its body and 116 bytes. -/
theorem length_message {dest id : String} (hd : IdText dest) (hi : IdText id) (text : String) :
    (OutFrame.message dest text id).bytes.length = (body text).length + 116 := by
  have hvalue : (quote "message").length = 9 := by decide
  have hbody : (quote "body").length = 6 := by decide
  have hid : (quote "id").length = 4 := by decide
  simp only [OutFrame.bytes, OutFrame.json, encode, encodeEntries, List.length_cons,
    List.length_append, List.length_nil, length_type, hvalue, length_to, hbody, hid, quote_idText hd,
    quote_idText hi, quote_length text]
  omega

/-- The presence check: 39 bytes a contact and 38 more. -/
theorem length_presenceCheck {ids : List String} (hne : ids ≠ []) (h : ∀ id ∈ ids, IdText id) :
    (OutFrame.presenceCheck ids).bytes.length = 39 * ids.length + 38 := by
  have hvalue : (quote "presence_check").length = 16 := by decide
  have hids : (quote "user_ids").length = 10 := by decide
  have harr : (encode (.arr (ids.map .str))).length = ids.length * 39 + 1 := by
    cases ids with
    | nil => exact absurd rfl hne
    | cons id ids =>
        have hall : ∀ w ∈ Json.str id :: ids.map Json.str, (encode w).length = 38 := by
          intro w hw
          obtain ⟨i, hi, rfl⟩ := List.mem_map.mp (show w ∈ (id :: ids).map Json.str from hw)
          exact quote_idText (h i hi)
        have hlength := encode_arr_length hall
        rw [List.length_cons, List.length_map] at hlength
        exact hlength
  simp only [OutFrame.bytes, OutFrame.json, encode, encodeEntries, List.length_cons,
    List.length_append, List.length_nil, length_type, hvalue, hids, harr]
  omega

/-- A presence check fits up to so many contacts, each with its comma. -/
theorem fits_presenceCheck_iff {ids : List String} (hne : ids ≠ []) (h : ∀ id ∈ ids, IdText id) :
    (OutFrame.presenceCheck ids).Fits ↔ ids.length ≤ maxContacts := by
  rw [OutFrame.Fits, length_presenceCheck hne h, maxMessageSize, maxContacts]
  omega

/-- A message fits if its encoded body does. -/
theorem fits_message_iff {dest id : String} (hd : IdText dest) (hi : IdText id) (text : String) :
    (OutFrame.message dest text id).Fits ↔ (body text).length ≤ maxBody := by
  rw [OutFrame.Fits, length_message hd hi, maxMessageSize, maxBody]
  omega

/-! ## The ids of the store -/

/-- All keys and all message ids are ids. -/
structure ChatStore.Ids (s : ChatStore) : Prop where
  keys : ∀ k ∈ s.dmMessages.ownKeys, IdText k
  messages : ∀ k, ∀ m ∈ s.conversation k, IdText m.id

variable {s : ChatStore}

/-- A store of ids stays one when messages with ids are put under an id. -/
theorem ids_setConversation (h : s.Ids) {k : String} (hk : IdText k) {l : List Message}
    (hl : ∀ m ∈ l, IdText m.id) : (s.setConversation k l).Ids where
  keys := by
    intro k' hk'
    rw [mem_ownKeys] at hk'
    rcases mem_keys_set.mp hk' with rfl | hold
    · exact hk
    · exact h.keys k' (mem_ownKeys.mpr hold)
  messages := by
    intro k' m hm
    by_cases hkk : k' = k
    · rw [hkk, ChatStore.conversation_setConversation_self] at hm
      exact hl m hm
    · rw [ChatStore.conversation_setConversation_ne s l hkk] at hm
      exact h.messages k' m hm

/-- A store of ids stays one when a message with an id is added. -/
theorem ids_addDMMessage (h : s.Ids) {k : String} (hk : IdText k) {m : Message}
    (hm : IdText m.id) : (s.addDMMessage k m).Ids := by
  refine ids_setConversation h hk fun m' hm' => ?_
  rcases List.mem_append.mp hm' with hold | hnew
  · exact h.messages k m' hold
  · rw [List.mem_singleton.mp hnew]
    exact hm

/-- A status update brings no new id. -/
theorem ids_updateDMMessageStatus (h : s.Ids) {k : String} (hk : IdText k) (i : String)
    (st : PeerStore.Status) : (s.updateDMMessageStatus k i st).Ids := by
  refine ids_setConversation h hk fun m' hm' => ?_
  obtain ⟨m, hm, rfl⟩ := List.mem_map.mp hm'
  rw [ChatStore.mark]
  split <;> exact h.messages k m hm

/-- A store of ids stays one when a history with ids is merged. -/
theorem ids_setDMHistory (h : s.Ids) (getTime : String → Option Int) {k : String}
    (hk : IdText k) {msgs : List Message} (hmsgs : ∀ m ∈ msgs, IdText m.id) :
    (s.setDMHistory getTime k msgs).Ids := by
  refine ids_setConversation h hk fun m hm => ?_
  rcases List.mem_append.mp ((List.mergeSort_perm _ _).mem_iff.mp hm) with hnew | hold
  · exact hmsgs m hnew
  · exact h.messages k m (List.mem_filter.mp hold).1

/-- The conversation a message is found in is one of the store's. -/
theorem holder_key {id k : String} (h : s.holder id = some k) : k ∈ s.dmMessages.ownKeys :=
  List.mem_of_find?_eq_some h

/-- The ids a frame brings. -/
def Incoming.Ids : Incoming → Prop
  | .message fromID _ _ messageID _ => IdText fromID ∧ IdText messageID
  | .sent _ messageID => IdText messageID
  | _ => True

/-- A frame with ids leaves a store of ids. -/
theorem ids_onmessage (h : s.Ids) {f : Incoming} (hf : f.Ids) : (s.onmessage f).Ids := by
  cases f with
  | message fromID sender body messageID timestamp => exact ids_addDMMessage h hf.1 hf.2
  | sent id messageID =>
      rw [ChatStore.onmessage]
      split
      · rename_i k hholder
        refine ids_setConversation h (h.keys k (holder_key hholder)) fun m' hm' => ?_
        obtain ⟨m, hm, rfl⟩ := List.mem_map.mp hm'
        rw [ChatStore.confirm_id]
        split
        · exact hf
        · exact h.messages k m hm
      · exact h
  | read messageID =>
      rw [ChatStore.onmessage]
      split
      · rename_i k hholder
        exact ids_updateDMMessageStatus h (h.keys k (holder_key hholder)) _ _
      · exact h
  | groupMessage | presence | typing | ignored => exact ⟨h.keys, h.messages⟩

namespace Client

/-- The ids the user selects, `uuidv4()` makes and the server sends. -/
def EventIds (_ : Client) : ClientEvent → Prop
  | .openChat id => IdText id
  | .send id _ => IdText id
  | .history _ msgs => ∀ m ∈ msgs, IdText m.id
  | .frame _ f => f.Ids
  | _ => True

/-- **WHAT HAS TO FIT**: the contacts when they are all checked, a body when it is sent. -/
def StepFits (c : Client) : ClientEvent → Prop
  | .opened _ => c.store.dmMessages.ownKeys.length ≤ maxContacts
  | .heartbeat _ => c.store.dmMessages.ownKeys.length ≤ maxContacts
  | .send _ _ => ∀ w ∈ c.window, c.hook.refOpen = true →
      (body (jsTrim w.body)).length ≤ maxBody
  | _ => True

/-- What holds throughout a run. -/
structure Ids (c : Client) : Prop where
  store : c.store.Ids
  window : ∀ w ∈ c.window, IdText w.partnerId
  requests : ∀ r ∈ c.requests, IdText r.partnerId

variable {getTime : String → Option Int} {c c' : Client}

/-- Acks bring no new id. -/
theorem ids_markAll {p : String} (hp : IdText p) (ids : List String) {s : ChatStore}
    (h : s.Ids) : (ids.foldl (fun s id => s.updateDMMessageStatus p id .read) s).Ids :=
  List.foldlRecOn ids _ h fun _ h' id _ => ids_updateDMMessageStatus h' hp id _

/-- An event with ids leaves a store of ids. -/
theorem ids_storeAfter (hi : c.Ids) {e : ClientEvent} (he : c.EventIds e) :
    (c.storeAfter getTime e).Ids := by
  cases e with
  | login auth => exact ⟨hi.store.keys, hi.store.messages⟩
  | logout => exact ⟨hi.store.keys, hi.store.messages⟩
  | send id timestamp =>
      rw [storeAfter]
      split
      · rename_i auth w hauth hw
        split
        · exact hi.store
        · exact ids_addDMMessage hi.store (hi.window w hw) he
      · exact hi.store
  | ackEffect =>
      rw [storeAfter]
      split
      · rename_i w hw
        exact ids_markAll (hi.window w hw) _ hi.store
      · exact hi.store
  | history n msgs =>
      rw [storeAfter]
      split
      · rename_i r hr
        split
        · exact hi.store
        · refine ids_setDMHistory hi.store getTime (hi.requests r (List.mem_of_getElem? hr)) ?_
          intro m hm
          obtain ⟨m₀, hm₀, rfl⟩ := List.mem_map.mp hm
          exact he m₀ hm₀
      · exact hi.store
  | frame ws f => exact ids_onmessage hi.store he
  | typingTimeout chatId =>
      rw [storeAfter]
      split
      · exact ⟨hi.store.keys, hi.store.messages⟩
      · exact hi.store
  | _ => exact hi.store

/-- **EVERY STEP KEEPS THE IDS.** -/
theorem ids_step (hi : c.Ids) {e : ClientEvent} (he : c.EventIds e)
    (h : c.step getTime e = some c') : c'.Ids where
  store := by
    rw [(step_cases h).store]
    exact ids_storeAfter hi he
  window := by
    intro w' hw'
    rcases (step_cases h).window w' hw' with ⟨w, hw, heq⟩ | rfl
    · rw [← heq]
      exact hi.window w hw
    · exact he
  requests := by
    intro r' hr'
    rcases (step_cases h).requests r' hr' with hold | rfl
    · exact hi.requests r' hold
    · exact he

/-- The page starts without any conversation. -/
theorem ids_start : start.Ids where
  store := ⟨fun _ hk => absurd (mem_ownKeys.mp hk) List.not_mem_nil, fun _ _ hm => by cases hm⟩
  window := fun _ hw => by cases hw
  requests := fun _ hr => by cases hr

/-! ## What a step writes fits -/

/-- The presence check of the contacts fits exactly when there are few enough of them. -/
theorem fits_presenceFrames_iff (hi : c.Ids) :
    (∀ f ∈ c.presenceFrames, f.Fits) ↔ c.store.dmMessages.ownKeys.length ≤ maxContacts := by
  rw [presenceFrames]
  by_cases hnone : c.store.dmMessages.ownKeys = []
  · rw [if_pos hnone, hnone]
    exact iff_of_true (fun f hf => absurd hf List.not_mem_nil) (Nat.zero_le _)
  · rw [if_neg hnone, ← fits_presenceCheck_iff hnone hi.store.keys]
    exact List.forall_mem_singleton

/-- What is acked are ids of messages that are shown. -/
theorem mem_toAck {acked : List String} {msgs : List Message} {id : String}
    (h : id ∈ toAck acked msgs) : ∃ m ∈ msgs, m.id = id := by
  induction msgs generalizing acked with
  | nil => cases h
  | cons m msgs ih =>
      rw [toAck] at h
      split at h
      · rcases List.mem_cons.mp h with rfl | htail
        · exact ⟨m, List.mem_cons_self, rfl⟩
        · obtain ⟨m', hm', hid⟩ := ih htail
          exact ⟨m', List.mem_cons_of_mem _ hm', hid⟩
      · obtain ⟨m', hm', hid⟩ := ih h
        exact ⟨m', List.mem_cons_of_mem _ hm', hid⟩

/-- Every ack fits. -/
theorem fits_acks (hi : c.Ids) : ∀ f ∈ c.owed .ackEffect, f.Fits := by
  intro f hf
  rw [owed] at hf
  split at hf
  · rename_i w hw
    obtain ⟨id, hid, rfl⟩ := List.mem_map.mp hf
    obtain ⟨m, hm, rfl⟩ := mem_toAck hid
    rw [OutFrame.Fits, length_ack (hi.store.messages _ m hm) (hi.window w hw)]
    decide
  · cases hf

/-- The frames of a step fit exactly if its contacts, or its body, do. -/
theorem fits_writes_iff (hi : c.Ids) {e : ClientEvent} (he : c.EventIds e)
    (h : c.step getTime e = some c') : (∀ f ∈ c.writes e, f.Fits) ↔ c.StepFits e := by
  have hnothing : (∀ f ∈ ([] : List OutFrame), f.Fits) ↔ True :=
    iff_true_intro fun f hf => absurd hf List.not_mem_nil
  cases e with
  | input body =>
      refine iff_true_intro fun f hf => ?_
      rw [writes] at hf
      split at hf
      · rw [Option.mem_toList] at hf
        obtain ⟨w, hw, rfl⟩ := Option.map_eq_some_iff.mp hf
        rw [OutFrame.Fits, length_typing (hi.window w hw)]
        decide
      · cases hf
  | send id timestamp =>
      -- only the body counts, and only if it is written
      obtain ⟨auth, hauth, hmap⟩ := Option.bind_eq_some_iff.mp h
      obtain ⟨w, hw, -⟩ := Option.map_eq_some_iff.mp hmap
      have hfits : c.StepFits (.send id timestamp) ↔
          (c.hook.refOpen = true → (body (jsTrim w.body)).length ≤ maxBody) := by
        rw [StepFits, hw]
        exact ⟨fun hall => hall w rfl, fun hone w' hw' => by cases hw'; exact hone⟩
      rw [hfits, writes, owed, hauth, hw]
      by_cases hopen : c.hook.refOpen = true
      · rw [if_pos hopen]
        by_cases hblank : jsTrim w.body = ""
        · simp only [hblank]
          exact iff_of_true (fun f hf => absurd hf List.not_mem_nil) fun _ => Nat.zero_le _
        · simp only [if_neg hblank]
          rw [List.forall_mem_singleton, fits_message_iff (hi.window w hw) he]
          exact ⟨fun hlen _ => hlen, fun himp => himp hopen⟩
      · rw [if_neg hopen]
        exact iff_of_true (fun f hf => absurd hf List.not_mem_nil) fun hyes => absurd hyes hopen
  | ackEffect =>
      refine iff_true_intro fun f hf => ?_
      rw [writes] at hf
      split at hf
      · exact fits_acks hi f hf
      · cases hf
  | opened ws => exact fits_presenceFrames_iff hi
  | heartbeat ws =>
      have hping : OutFrame.ping.Fits := by
        rw [OutFrame.Fits, length_ping]
        decide
      rw [writes, List.forall_mem_cons]
      exact (and_iff_right hping).trans (fits_presenceFrames_iff hi)
  | frame ws f =>
      cases f with
      | message fromID sender body messageID timestamp =>
          -- a check of one contact
          refine iff_true_intro ?_
          rw [writes, List.forall_mem_singleton, fits_presenceCheck_iff (List.cons_ne_nil _ _)]
          · exact Nat.succ_le_of_lt (by decide)
          · rw [List.forall_mem_singleton]
            exact he.1
      | sent | read | groupMessage | presence | typing | ignored => exact hnothing
  | _ => exact hnothing

/-- **ALL FRAMES OF A RUN FIT** exactly when each step's do. -/
theorem frames_fit_run {es : List ClientEvent} (hi : c.Ids)
    (he : c.Always getTime EventIds es) (h : c.run getTime es = some c') :
    (∀ f ∈ c'.written, f.Fits) ↔
      (∀ f ∈ c.written, f.Fits) ∧ c.Always getTime StepFits es := by
  induction es generalizing c with
  | nil =>
      cases h
      exact (and_iff_left trivial).symm
  | cons e es ih =>
      obtain ⟨mid, hstep, hrest⟩ := Option.bind_eq_some_iff.mp h
      obtain ⟨hone, htail⟩ := he
      rw [hstep] at htail
      rw [ih (ids_step hi hone hstep) htail hrest, (step_cases hstep).written,
        List.forall_mem_append, fits_writes_iff hi hone hstep, Always, hstep, and_assoc]
      rfl

/-- **EVERY FRAME IS WITHIN THE LIMIT**, as long as the contacts and the bodies are. -/
theorem frames_fit_iff {es : List ClientEvent} (he : start.Always getTime EventIds es)
    (h : start.run getTime es = some c) :
    (∀ f ∈ c.written, f.Fits) ↔ start.Always getTime StepFits es := by
  rw [frames_fit_run ids_start he h]
  exact and_iff_right fun f hf => absurd hf List.not_mem_nil

/-! ## Alice writes to bob -/

def bobId : String := "00000000-0000-0000-0000-000000000002"

def newId : String := "00000000-0000-4000-8000-00000000000c"

theorem idText_of_all {s : String} (hlength : s.length = 36)
    (hall : s.toList.all (fun c => decide (OneByte c)) = true) : IdText s :=
  ⟨hlength, fun c hc => of_decide_eq_true (List.all_eq_true.mp hall c hc)⟩

theorem idText_bobId : IdText bobId := idText_of_all (by decide) (by decide)

theorem idText_newId : IdText newId := idText_of_all (by decide) (by decide)

/-- She opens the chat on an open socket, types and sends. -/
def aliceSends (text : String) : List ClientEvent :=
  [.login ⟨"t", "alice", "alice"⟩, .opened 0, .openChat bobId, .input text,
    .send newId "2026-04-07T10:00:00Z"]

/-- Alice's events carry ids. -/
theorem aliceSends_ids (text : String) : start.Always sampleTime EventIds (aliceSends text) :=
  ⟨trivial, trivial, idText_bobId, trivial, idText_newId, trivial⟩

/-- What she writes fits exactly if her text does. -/
theorem aliceSends_fits_iff {text : String} {c : Client}
    (h : start.run sampleTime (aliceSends text) = some c) :
    (∀ f ∈ c.written, f.Fits) ↔ (body (jsTrim text)).length ≤ maxBody := by
  rw [frames_fit_run ids_start (aliceSends_ids text) h]
  constructor
  · rintro ⟨-, -, -, -, -, hsend, -⟩
    exact hsend ⟨bobId, text, []⟩ rfl rfl
  · intro hlength
    refine ⟨fun f hf => absurd hf List.not_mem_nil, trivial, Nat.zero_le _, trivial, trivial,
      fun w hw _ => ?_, trivial⟩
    cases hw
    exact hlength

/-- Alice's events run. -/
theorem aliceSends_runs (text : String) :
    ∃ c, start.run sampleTime (aliceSends text) = some c := ⟨_, rfl⟩

/-- A short text goes through. -/
theorem hello_fits : ∃ c, start.run sampleTime (aliceSends "hello") = some c ∧
    ∀ f ∈ c.written, f.Fits := by
  obtain ⟨c, hc⟩ := aliceSends_runs "hello"
  refine ⟨c, hc, (frames_fit_iff (aliceSends_ids "hello") hc).mpr ?_⟩
  refine ⟨trivial, Nat.zero_le _, trivial, trivial, fun w hw _ => ?_, trivial⟩
  cases hw
  decide

/-- A text of `n` letters. -/
def letters (n : Nat) : String := String.ofList (List.replicate n 'a')

theorem jsTrim_letters (n : Nat) : jsTrim (letters n) = letters n := by
  have hdrop : (List.replicate n 'a').dropWhile isJsSpace = List.replicate n 'a' := by
    cases n with
    | zero => rfl
    | succ n => rw [List.replicate_succ, List.dropWhile_cons_of_neg (by decide)]
  rw [jsTrim, letters, String.toList_ofList, hdrop, List.reverse_replicate, hdrop,
    List.reverse_replicate]

/-- `n` letters are `n` bytes of a body. -/
theorem length_letters (n : Nat) : (body (letters n)).length = n := by
  have hplain : ∀ c ∈ (letters n).toList, OneByte c := by
    intro c hc
    rw [letters, String.toList_ofList] at hc
    rw [List.eq_of_mem_replicate hc]
    decide
  rw [body_length_oneByte hplain, letters, String.length_ofList, List.length_replicate]

/-- The frame of 3981 letters is one byte too long. -/
theorem long_body_too_long : start.Always sampleTime EventIds (aliceSends (letters 3981)) ∧
    ∃ c, start.run sampleTime (aliceSends (letters 3981)) = some c ∧
      ¬ ∀ f ∈ c.written, f.Fits := by
  obtain ⟨c, hc⟩ := aliceSends_runs (letters 3981)
  refine ⟨aliceSends_ids _, c, hc, ?_⟩
  rw [aliceSends_fits_iff hc, jsTrim_letters, length_letters]
  decide

end Client

end PeerWeb
