import PeerChat.StoreProofs
import PeerChat.JsRecordProofs

/-! # The web client's store (`store.ts`)

    The store is persisted as a whole under one name, so it survives reloads and
    logouts; `clearAuth` clears the credentials only.  What no modelled function
    reads (`groups`, the active chat) is left out.

    `new Date(s).getTime()` is the parameter `getTime`, `none` for `NaN`.  A
    conversation is read as `dmMessages[k] ?? []`, and its keys are the ids of
    users, so that no key is one an object inherits. -/

namespace PeerWeb

open KeyedTable JsRecord
open PeerStore (Status)

/-- A message as the client holds it; `sender` is the member `from`. -/
structure Message where
  id : String
  sender : String
  fromID : String
  body : String
  timestamp : String
  status : Status
  mine : Bool
  deriving DecidableEq, Repr

/-- What `ChatPage` counts: of someone else, and not read. -/
def Message.isUnread (m : Message) : Bool := !m.mine && m.status ≠ .read

structure GroupMessage where
  id : String
  sender : String
  fromID : String
  body : String
  timestamp : String
  groupID : String
  deriving DecidableEq, Repr

/-- What `setAuth` stores. -/
structure Auth where
  token : String
  userId : String
  username : String
  deriving DecidableEq, Repr

/-- `useStore`. -/
structure ChatStore where
  auth : Option Auth
  dmMessages : Record (List Message)
  groupMessages : Record (List GroupMessage)
  presence : Record Bool
  typing : Record Bool

/-- The store of a browser that has never been here. -/
def ChatStore.initial : ChatStore :=
  ⟨none, Record.empty, Record.empty, Record.empty, Record.empty⟩

/-- `new Date(s).getTime()` on the timestamps of the concrete runs. -/
def sampleTime (s : String) : Option Int :=
  if s = "2026-04-07T10:00:00Z" then some 1775556000000
  else if s = "2026-04-07T10:00:01Z" then some 1775556001000
  else none

namespace ChatStore

def setAuth (s : ChatStore) (auth : Auth) : ChatStore := { s with auth := some auth }

/-- Only the credentials: the messages stay. -/
def clearAuth (s : ChatStore) : ChatStore := { s with auth := none }

/-- `dmMessages[k] ?? []`. -/
def conversation (s : ChatStore) (k : String) : List Message :=
  (s.dmMessages.get? k).getD []

/-- `dmMessages: { ...s.dmMessages, [k]: msgs }`. -/
def setConversation (s : ChatStore) (k : String) (msgs : List Message) : ChatStore :=
  { s with dmMessages := s.dmMessages.set k msgs }

def addDMMessage (s : ChatStore) (chatPartnerId : String) (msg : Message) : ChatStore :=
  s.setConversation chatPartnerId (s.conversation chatPartnerId ++ [msg])

/-- Does the comparator leave `a` before `b`?  A `NaN` counts as 0. -/
def notAfter (getTime : String → Option Int) (a b : Message) : Bool :=
  match getTime a.timestamp, getTime b.timestamp with
  | some x, some y => x ≤ y
  | _, _ => true

/-- Server history as base, and the local messages not in it. -/
def setDMHistory (getTime : String → Option Int) (s : ChatStore) (chatPartnerId : String)
    (msgs : List Message) : ChatStore :=
  let localOnly := (s.conversation chatPartnerId).filter fun m => m.id ∉ msgs.map Message.id
  s.setConversation chatPartnerId ((msgs ++ localOnly).mergeSort (notAfter getTime))

/-- `{ ...m, id: serverMessageId, status: 'delivered' }` on the entry `clientId`. -/
def confirm (clientId serverMessageId : String) (m : Message) : Message :=
  if m.id = clientId then { m with id := serverMessageId, status := .delivered } else m

def confirmDMMessage (s : ChatStore) (chatPartnerId clientId serverMessageId : String) :
    ChatStore :=
  s.setConversation chatPartnerId
    ((s.conversation chatPartnerId).map (confirm clientId serverMessageId))

/-- `{ ...m, status }` on the entry `messageId`. -/
def mark (messageId : String) (status : Status) (m : Message) : Message :=
  if m.id = messageId then { m with status := status } else m

def updateDMMessageStatus (s : ChatStore) (chatPartnerId messageId : String)
    (status : Status) : ChatStore :=
  s.setConversation chatPartnerId ((s.conversation chatPartnerId).map (mark messageId status))

def addGroupMessage (s : ChatStore) (groupId : String) (msg : GroupMessage) : ChatStore :=
  { s with groupMessages :=
      s.groupMessages.set groupId ((s.groupMessages.get? groupId).getD [] ++ [msg]) }

def setPresence (s : ChatStore) (userId : String) (online : Bool) : ChatStore :=
  { s with presence := s.presence.set userId online }

def setTyping (s : ChatStore) (chatId : String) (on : Bool) : ChatStore :=
  { s with typing := s.typing.set chatId on }

/-! ## Which conversation changes -/

/-- A conversation that is written reads as it was written. -/
@[simp] theorem conversation_setConversation_self (s : ChatStore) (k : String)
    (msgs : List Message) : (s.setConversation k msgs).conversation k = msgs := by
  simp [conversation, setConversation]

/-- Writing a conversation leaves the others as they are. -/
theorem conversation_setConversation_ne (s : ChatStore) {k k' : String}
    (msgs : List Message) (h : k' ≠ k) :
    (s.setConversation k msgs).conversation k' = s.conversation k' := by
  simp only [conversation, setConversation]
  rw [get?_set_ne _ _ h]

@[simp] theorem setConversation_auth (s : ChatStore) (k : String) (msgs : List Message) :
    (s.setConversation k msgs).auth = s.auth := rfl

@[simp] theorem conversation_addGroupMessage (s : ChatStore) (g : String) (m : GroupMessage)
    (k : String) : (s.addGroupMessage g m).conversation k = s.conversation k := rfl
@[simp] theorem conversation_setPresence (s : ChatStore) (u : String) (on : Bool)
    (k : String) : (s.setPresence u on).conversation k = s.conversation k := rfl
@[simp] theorem conversation_setTyping (s : ChatStore) (c : String) (on : Bool)
    (k : String) : (s.setTyping c on).conversation k = s.conversation k := rfl
@[simp] theorem conversation_setAuth (s : ChatStore) (auth : Auth) (k : String) :
    (s.setAuth auth).conversation k = s.conversation k := rfl
@[simp] theorem conversation_clearAuth (s : ChatStore) (k : String) :
    s.clearAuth.conversation k = s.conversation k := rfl

/-- A conversation with an entry has its key. -/
theorem mem_keys_of_mem {s : ChatStore} {k : String} {m : Message}
    (h : m ∈ s.conversation k) : k ∈ Table.keys s.dmMessages := by
  rw [← isSome_get?]
  rw [conversation] at h
  cases hget : s.dmMessages.get? k with
  | none =>
      rw [hget] at h
      cases h
  | some msgs => rfl

/-! ## What the operations do to a conversation -/

/-- `addDMMessage` appends to one conversation. -/
theorem conversation_addDMMessage (s : ChatStore) (k : String) (m : Message) (k' : String) :
    (s.addDMMessage k m).conversation k'
      = if k' = k then s.conversation k ++ [m] else s.conversation k' := by
  rw [addDMMessage]
  split
  · rename_i hk
    rw [hk, conversation_setConversation_self]
  · rename_i hk
    exact conversation_setConversation_ne s _ hk

/-- `confirmDMMessage` renames in one conversation. -/
theorem conversation_confirmDMMessage (s : ChatStore) (k c i k' : String) :
    (s.confirmDMMessage k c i).conversation k'
      = if k' = k then (s.conversation k).map (confirm c i) else s.conversation k' := by
  rw [confirmDMMessage]
  split
  · rename_i hk
    rw [hk, conversation_setConversation_self]
  · rename_i hk
    exact conversation_setConversation_ne s _ hk

/-- `updateDMMessageStatus` marks in one conversation. -/
theorem conversation_updateDMMessageStatus (s : ChatStore) (k i : String) (st : Status)
    (k' : String) : (s.updateDMMessageStatus k i st).conversation k'
      = if k' = k then (s.conversation k).map (mark i st) else s.conversation k' := by
  rw [updateDMMessageStatus]
  split
  · rename_i hk
    rw [hk, conversation_setConversation_self]
  · rename_i hk
    exact conversation_setConversation_ne s _ hk

/-- The merge, up to its order: the history, and the entries it does not have. -/
theorem conversation_setDMHistory_perm (getTime : String → Option Int) (s : ChatStore)
    (k : String) (msgs : List Message) :
    ((s.setDMHistory getTime k msgs).conversation k).Perm
      (msgs ++ (s.conversation k).filter fun m => m.id ∉ msgs.map Message.id) := by
  rw [setDMHistory, conversation_setConversation_self]
  exact List.mergeSort_perm _ _

/-- A history is merged into one conversation. -/
theorem conversation_setDMHistory_ne (getTime : String → Option Int) (s : ChatStore)
    {k k' : String} (msgs : List Message) (h : k' ≠ k) :
    (s.setDMHistory getTime k msgs).conversation k' = s.conversation k' :=
  conversation_setConversation_ne s _ h

/-! ## How many entries an id has -/

/-- The entries with this id in a conversation. -/
def entries (s : ChatStore) (k i : String) : Nat :=
  (s.conversation k).countP fun m => m.id = i

/-- A message is shown if an entry has its id. -/
theorem entries_pos {s : ChatStore} {k i : String} :
    0 < s.entries k i ↔ ∃ m ∈ s.conversation k, m.id = i := by
  simp only [entries, List.countP_pos_iff, decide_eq_true_eq]

/-- `addDMMessage` adds one entry. -/
theorem entries_addDMMessage (s : ChatStore) (k : String) (m : Message) (k' i : String) :
    (s.addDMMessage k m).entries k' i
      = s.entries k' i + if k' = k ∧ m.id = i then 1 else 0 := by
  rw [entries, conversation_addDMMessage, entries]
  by_cases hk : k' = k
  · rw [if_pos hk, hk, List.countP_append, List.countP_singleton]
    simp
  · rw [if_neg hk, if_neg fun h => hk h.1, Nat.add_zero]

/-- A status update neither adds nor removes entries. -/
@[simp] theorem entries_updateDMMessageStatus (s : ChatStore) (k j : String) (st : Status)
    (k' i : String) : (s.updateDMMessageStatus k j st).entries k' i = s.entries k' i := by
  rw [entries, conversation_updateDMMessageStatus, entries]
  split
  · rename_i hk
    rw [hk, List.countP_map]
    congr 1
    funext m
    simp only [Function.comp_apply, mark]
    split <;> rfl
  · rfl

/-- Of distinct messages one has the id, if it is there. -/
theorem countP_id {msgs : List Message} (hd : (msgs.map Message.id).Nodup) (i : String) :
    msgs.countP (fun m => m.id = i) = if i ∈ msgs.map Message.id then 1 else 0 := by
  have hcount : msgs.countP (fun m => m.id = i) = (msgs.map Message.id).count i := by
    rw [List.count, List.countP_map]
    rfl
  rw [hcount]
  split
  · rename_i hmem
    exact List.count_eq_one_of_mem hd hmem
  · rename_i hmem
    exact List.count_eq_zero_of_not_mem hmem

/-- A history decides the entries of the ids it has. -/
theorem entries_setDMHistory (getTime : String → Option Int) (s : ChatStore) (k : String)
    {msgs : List Message} (hd : (msgs.map Message.id).Nodup) (k' i : String) :
    (s.setDMHistory getTime k msgs).entries k' i
      = if k' = k ∧ i ∈ msgs.map Message.id then 1 else s.entries k' i := by
  by_cases hk : k' = k
  · rw [hk, entries, (conversation_setDMHistory_perm getTime s k msgs).countP_eq,
      List.countP_append, countP_id hd, List.countP_filter]
    by_cases hi : i ∈ msgs.map Message.id
    · rw [if_pos hi, if_pos ⟨rfl, hi⟩, List.countP_eq_zero.mpr]
      intro m _ hm
      simp only [Bool.and_eq_true, decide_eq_true_eq] at hm
      rw [hm.1] at hm
      exact hm.2 hi
    · rw [if_neg hi, if_neg fun h => hi h.2, Nat.zero_add, entries]
      refine List.countP_congr fun m _ => ?_
      simp only [Bool.and_eq_true, decide_eq_true_eq]
      refine ⟨And.left, fun hm => ⟨hm, ?_⟩⟩
      rw [hm]
      exact hi
  · rw [if_neg fun h => hk h.1, entries, conversation_setDMHistory_ne getTime s msgs hk]
    rfl

/-- A confirmed message has the server's id. -/
@[simp] theorem confirm_id (c i : String) (m : Message) :
    (confirm c i m).id = if m.id = c then i else m.id := by
  rw [confirm]
  split <;> rfl

/-- Renaming `c` to `i` moves the count of `c` to `i`. -/
theorem countP_confirm {c i : String} (hne : c ≠ i) (j : String) (l : List Message) :
    (l.map (confirm c i)).countP (fun m => m.id = j)
      = if j = c then 0
        else l.countP (fun m => m.id = j) + if j = i then l.countP (fun m => m.id = c) else 0 := by
  induction l with
  | nil => simp
  | cons m l ih =>
      have hstep : ((confirm c i m).id = j) = if m.id = c then i = j else m.id = j := by
        rw [confirm_id]
        split <;> rfl
      rw [List.map_cons, List.countP_cons, ih]
      simp only [List.countP_cons, decide_eq_true_eq, hstep]
      by_cases hm : m.id = c
      · by_cases hj : j = i
        · have hjc : j ≠ c := fun h => hne (h.symm.trans hj)
          simp only [hm, if_true, hj, if_neg (hj ▸ hjc), if_neg hne]
          omega
        · have hij : ¬ i = j := fun h => hj h.symm
          by_cases hjc : j = c
          · simp only [hm, if_true, if_pos hjc, if_neg hij]
          · have hcj : ¬ c = j := fun h => hjc h.symm
            simp only [hm, if_true, if_neg hjc, if_neg hij, if_neg hj, if_neg hcj]
      · by_cases hjc : j = c
        · have hmj : ¬ m.id = j := fun h => hm (h.trans hjc)
          simp only [if_neg hm, if_pos hjc, if_neg hmj]
        · simp only [if_neg hm, if_neg hjc, Nat.add_zero]
          omega

/-- The entries of the client id become entries of the server's. -/
theorem entries_confirmDMMessage (s : ChatStore) (k : String) {c i : String} (hne : c ≠ i)
    (k' j : String) : (s.confirmDMMessage k c i).entries k' j
      = if k' = k ∧ j = c then 0
        else s.entries k' j + if k' = k ∧ j = i then s.entries k c else 0 := by
  by_cases hk : k' = k
  · rw [hk, entries, conversation_confirmDMMessage, if_pos rfl, countP_confirm hne]
    simp only [true_and]
    rfl
  · rw [if_neg fun h => hk h.1, if_neg fun h => hk h.1, Nat.add_zero, entries,
      conversation_confirmDMMessage, if_neg hk, entries]

/-- Of another id nothing changes. -/
theorem entries_confirmDMMessage_ne (s : ChatStore) (k c i k' : String) {j : String}
    (hc : j ≠ c) (hi : j ≠ i) : (s.confirmDMMessage k c i).entries k' j = s.entries k' j := by
  rw [entries, conversation_confirmDMMessage, entries]
  split
  · rename_i hk
    rw [hk, List.countP_map]
    refine List.countP_congr fun m _ => ?_
    simp only [Function.comp_apply, decide_eq_true_eq, confirm_id]
    split
    · rename_i hm
      exact ⟨fun h => absurd h.symm hi, fun h => absurd (h.symm.trans hm) hc⟩
    · rfl
  · rfl

end ChatStore

end PeerWeb
