import PeerChat.FrameProofs
import PeerChat.JsonEncodeProofs
import PeerChat.WebStoreProofs

/-! # The frames of the web client (`useWebSocket.ts`, `ChatWindow.tsx`)

    What the client writes, as `JSON.stringify` writes it, and what it makes of a
    frame it receives: `onmessage` reads the members of the parsed object by their
    exact names and hands them to the store.

    `incoming` is `none` on a frame with a member the handler casts to `string` that
    is missing or no string. No frame the server builds is one (`received_message`
    and the rest). A map that `Dispatch` relays may be, since all but two of its keys
    are its sender's; what the page makes of such a map is not modelled. -/

namespace PeerWeb

open JsonScan JsonDecode JsonEncode JsRecord KeyedTable PeerEnv PeerFrame

/-! ## What the client writes -/

/-- What is handed to `JSON.stringify`. -/
inductive OutFrame where
  | presenceCheck (userIds : List String)
  | ping
  | message (dest body id : String)
  | ack (messageID senderID : String)
  | typing (dest : String)
  deriving DecidableEq, Repr

def OutFrame.json : OutFrame → Json
  | .presenceCheck userIds =>
      .obj [("type", .str "presence_check"), ("user_ids", .arr (userIds.map .str))]
  | .ping => .obj [("type", .str "ping")]
  | .message dest body id =>
      .obj [("type", .str "message"), ("to", .str dest), ("body", .str body), ("id", .str id)]
  | .ack messageID senderID =>
      .obj [("type", .str "ack"), ("message_id", .str messageID), ("sender_id", .str senderID)]
  | .typing dest => .obj [("type", .str "typing"), ("to", .str dest)]

/-- The text that is sent. -/
def OutFrame.bytes (f : OutFrame) : List UInt8 := encode f.json

theorem textual_strings {n : Nat} {vs : List String} : Textual (n + 1) (.arr (vs.map .str)) := by
  refine Textual.arr fun v hv => ?_
  obtain ⟨s, -, rfl⟩ := List.mem_map.mp hv
  exact Textual.str s

/-- The server's scanner reads every frame as the object the client built. -/
theorem parse_bytes (f : OutFrame) : parse f.bytes = some f.json := by
  refine parse_encode (n := 2) ?_ (by decide)
  cases f <;> refine Textual.obj fun e he => ?_ <;>
    simp only [List.mem_cons, List.not_mem_nil, or_false] at he
  case presenceCheck userIds =>
    rcases he with rfl | rfl
    · exact Textual.str _
    · exact textual_strings
  case ping =>
    rw [he]
    exact Textual.str _
  case message dest body id =>
    rcases he with rfl | rfl | rfl | rfl <;> exact Textual.str _
  case ack messageID senderID =>
    rcases he with rfl | rfl | rfl <;> exact Textual.str _
  case typing dest =>
    rcases he with rfl | rfl <;> exact Textual.str _

/-! ## What the client receives -/

/-- A received frame, as the cases of `onmessage` take it apart. -/
inductive Incoming where
  | message (fromID sender body messageID timestamp : String)
  | sent (id messageID : String)
  | read (messageID : String)
  | groupMessage (groupID messageID sender fromID body timestamp : String)
  | presence (userID : String) (online : Bool)
  | typing (chatID : String)
  /-- `pong`, and the types without a case. -/
  | ignored
  deriving DecidableEq, Repr

/-- `msg[k] as string`. -/
def text (m : JsonMap) (k : String) : Option String :=
  match lookup m k with
  | some (.str s) => some s
  | _ => none

/-- `msg.chat_id ?? msg.group_id`. -/
def typingChat (m : JsonMap) : Option String :=
  match lookup m "chat_id" with
  | none => text m "group_id"
  | some .null => text m "group_id"
  | some (.str s) => some s
  | some _ => none

/-- `switch (msg.type)`, on a frame whose members are the texts it takes them for. -/
def incoming (m : JsonMap) : Option Incoming :=
  match text m "type" with
  | some "message" => do
      return .message (← text m "from_id") (← text m "from") (← text m "body")
        (← text m "message_id") (← text m "timestamp")
  | some "sent" => do return .sent (← text m "id") (← text m "message_id")
  | some "read" => do return .read (← text m "message_id")
  | some "group_message" => do
      return .groupMessage (← text m "group_id") (← text m "message_id") (← text m "from")
        (← text m "from_id") (← text m "body") (← text m "timestamp")
  | some "presence" => do
      return .presence (← text m "user_id") (lookup m "status" matches some (.str "online"))
  | some "typing" => do return .typing (← typingChat m)
  | _ => some .ignored

/-- What the client makes of a frame of the server. -/
def received (fmt : Formats) (f : Frame) : Option Incoming := incoming (f.fields fmt)

/-- The client takes every member of a message frame as it was sent. -/
theorem received_message (fmt : Formats) (sender body : String) (fromID messageID : UUID)
    (timestamp : Nat) :
    received fmt (.message sender fromID body messageID timestamp)
      = some (.message (fmt.uuidString fromID) sender body (fmt.uuidString messageID)
          (fmt.timeString timestamp)) := rfl

/-- `msg.status === 'online'`. -/
theorem received_presence (fmt : Formats) (userID : UUID) (status : String) :
    ∃ online, received fmt (.presence userID status)
      = some (.presence (fmt.uuidString userID) online) ∧ (online = true ↔ status = "online") := by
  refine ⟨_, rfl, ?_⟩
  split
  · rename_i heq
    cases heq
    exact iff_of_true rfl rfl
  · rename_i hne
    refine iff_of_false Bool.false_ne_true ?_
    rintro rfl
    exact hne rfl

/-- The client takes the chat of a typing frame. -/
theorem received_typing (fmt : Formats) (sender : String) (fromID chatID : UUID) :
    received fmt (.typing sender fromID chatID)
      = some (.typing (fmt.uuidString chatID)) := rfl

/-! ## What a frame does to the store -/

namespace ChatStore

/-- The first conversation, in the order of `Object.keys`, with an entry of this id. -/
def holder (s : ChatStore) (id : String) : Option String :=
  s.dmMessages.ownKeys.find? fun k => (s.conversation k).any fun m => m.id = id

/-- `ws.onmessage`, the calls into the store. -/
def onmessage (s : ChatStore) : Incoming → ChatStore
  | .message fromID sender body messageID timestamp =>
      s.addDMMessage fromID ⟨messageID, sender, fromID, body, timestamp, .delivered, false⟩
  | .sent id messageID =>
      match s.holder id with
      | some partnerId => s.confirmDMMessage partnerId id messageID
      | none => s
  | .read messageID =>
      match s.holder messageID with
      | some partnerId => s.updateDMMessageStatus partnerId messageID .read
      | none => s
  | .groupMessage groupID messageID sender fromID body timestamp =>
      s.addGroupMessage groupID ⟨messageID, sender, fromID, body, timestamp, groupID⟩
  | .presence userID online => s.setPresence userID online
  | .typing chatID => s.setTyping chatID true
  | .ignored => s

/-- The conversation that is found has an entry of the id. -/
theorem holder_some {s : ChatStore} {id k : String} (h : s.holder id = some k) :
    0 < s.entries k id := by
  have hany := List.find?_some h
  rw [List.any_eq_true] at hany
  obtain ⟨m, hm, hid⟩ := hany
  exact entries_pos.mpr ⟨m, hm, of_decide_eq_true hid⟩

/-- Where none is found no conversation has an entry of the id. -/
theorem holder_none {s : ChatStore} {id : String} (h : s.holder id = none) (k : String) :
    s.entries k id = 0 := by
  by_contra hne
  obtain ⟨m, hm, hid⟩ := entries_pos.mp (Nat.pos_of_ne_zero hne)
  have hkey : k ∈ s.dmMessages.ownKeys := mem_ownKeys.mpr (mem_keys_of_mem hm)
  refine List.find?_eq_none.mp h k hkey ?_
  rw [List.any_eq_true]
  exact ⟨m, hm, decide_eq_true hid⟩

/-- An id held in one conversation is found there. -/
theorem holder_eq {s : ChatStore} {id k : String} (h : 0 < s.entries k id)
    (hother : ∀ k', k' ≠ k → s.entries k' id = 0) : s.holder id = some k := by
  cases hfind : s.holder id with
  | none =>
      rw [holder_none hfind k] at h
      exact absurd h (Nat.lt_irrefl 0)
  | some k' =>
      by_contra hne
      have hk' : k' ≠ k := fun heq => hne (by rw [heq])
      have hpos := holder_some hfind
      rw [hother k' hk'] at hpos
      exact Nat.lt_irrefl 0 hpos

end ChatStore

/-- Does the frame bring an entry of this id, or rename one from or to it? -/
def Incoming.Names (f : Incoming) (i : String) : Prop :=
  match f with
  | .message _ _ _ messageID _ => messageID = i
  | .sent id messageID => id = i ∨ messageID = i
  | _ => False

instance (f : Incoming) (i : String) : Decidable (f.Names i) :=
  match f with
  | .message _ _ _ messageID _ => inferInstanceAs (Decidable (messageID = i))
  | .sent id messageID => inferInstanceAs (Decidable (id = i ∨ messageID = i))
  | .read .. | .groupMessage .. | .presence .. | .typing .. | .ignored => isFalse id

/-- A frame that does not name an id leaves its entries. -/
theorem entries_onmessage_ne (s : ChatStore) {f : Incoming} {i : String} (h : ¬ f.Names i)
    (k : String) : (s.onmessage f).entries k i = s.entries k i := by
  cases f with
  | message fromID sender body messageID timestamp =>
      rw [ChatStore.onmessage, ChatStore.entries_addDMMessage, if_neg fun hi => h hi.2, Nat.add_zero]
  | sent id messageID =>
      have hid : i ≠ id := fun heq => h (Or.inl heq.symm)
      have hmid : i ≠ messageID := fun heq => h (Or.inr heq.symm)
      rw [ChatStore.onmessage]
      split
      · exact ChatStore.entries_confirmDMMessage_ne s _ _ _ k hid hmid
      · rfl
  | read messageID =>
      rw [ChatStore.onmessage]
      split
      · exact ChatStore.entries_updateDMMessageStatus s _ _ _ k i
      · rfl
  | groupMessage => rfl
  | presence => rfl
  | typing => rfl
  | ignored => rfl

end PeerWeb
