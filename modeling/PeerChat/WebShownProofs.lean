import PeerChat.WebClientProofs

/-! # What a browser shows

    An entry comes into the store in one of three ways: it is written here, it is
    in the answer to a `fetchHistory`, or a frame brings it.  From then on `sent`
    may give it another id and `read` another status, and a history may replace it
    or move it; whatever else it says stays as it came (`shows_storeAfter`). -/

namespace PeerWeb

open JsRecord
open PeerStore (Status)

/-- Every entry of every conversation is `P`, and every group message `Q`. -/
structure ChatStore.Shows (P : Message → Prop) (Q : GroupMessage → Prop) (s : ChatStore) :
    Prop where
  messages : ∀ k, ∀ m ∈ s.conversation k, P m
  groupMessages : ∀ g, ∀ m ∈ (s.groupMessages.get? g).getD [], Q m

/-- It does not depend on what a `sent` or a `read` changes. -/
def Message.Lasting (P : Message → Prop) : Prop :=
  ∀ m : Message, ∀ id status, P m → P { m with id := id, status := status }

namespace ChatStore

variable {P P' : Message → Prop} {Q Q' : GroupMessage → Prop} {s : ChatStore}

/-- The first page shows nothing. -/
theorem shows_initial : initial.Shows P Q where
  messages _ _ hm := by cases hm
  groupMessages _ _ hm := by cases hm

/-- What is shown satisfies whatever it implies. -/
theorem Shows.imp (h : s.Shows P Q) (hP : ∀ m, P m → P' m) (hQ : ∀ m, Q m → Q' m) :
    s.Shows P' Q' :=
  ⟨fun k m hm => hP m (h.messages k m hm), fun g m hm => hQ m (h.groupMessages g m hm)⟩

/-- One conversation changes, and holds nothing that is not `P`. -/
theorem Shows.setConversation (h : s.Shows P Q) {k : String} {msgs : List Message}
    (hmsgs : ∀ m ∈ msgs, P m) : (s.setConversation k msgs).Shows P Q := by
  refine ⟨fun k' m hm => ?_, h.groupMessages⟩
  by_cases hk : k' = k
  · rw [hk, conversation_setConversation_self] at hm
    exact hmsgs m hm
  · rw [conversation_setConversation_ne s msgs hk] at hm
    exact h.messages k' m hm

/-- A message that is added is shown. -/
theorem Shows.addDMMessage (h : s.Shows P Q) {k : String} {m : Message} (hm : P m) :
    (s.addDMMessage k m).Shows P Q := by
  refine h.setConversation fun m' hm' => ?_
  rcases List.mem_append.mp hm' with hold | hnew
  · exact h.messages k m' hold
  · rw [List.mem_singleton.mp hnew]
    exact hm

/-- A history that is merged is shown. -/
theorem Shows.setDMHistory (h : s.Shows P Q) (getTime : String → Option Int) {k : String}
    {msgs : List Message} (hmsgs : ∀ m ∈ msgs, P m) :
    (s.setDMHistory getTime k msgs).Shows P Q := by
  refine h.setConversation fun m hm => ?_
  rcases List.mem_append.mp ((List.mergeSort_perm _ _).mem_iff.mp hm) with hnew | hold
  · exact hmsgs m hnew
  · exact h.messages k m (List.mem_filter.mp hold).1

/-- The entries of a conversation are changed one by one. -/
theorem Shows.map (h : s.Shows P Q) {k : String} {f : Message → Message}
    (hf : ∀ m, P m → P (f m)) : (s.setConversation k ((s.conversation k).map f)).Shows P Q := by
  refine h.setConversation fun m hm => ?_
  obtain ⟨m₀, hm₀, rfl⟩ := List.mem_map.mp hm
  exact hf m₀ (h.messages k m₀ hm₀)

/-- A confirmation renames what is shown. -/
theorem Shows.confirmDMMessage (h : s.Shows P Q) (hP : Message.Lasting P) (k c i : String) :
    (s.confirmDMMessage k c i).Shows P Q := by
  refine h.map fun m hm => ?_
  rw [confirm]
  split
  · exact hP m i .delivered hm
  · exact hm

/-- A status update shows nothing new. -/
theorem Shows.updateDMMessageStatus (h : s.Shows P Q) (hP : Message.Lasting P) (k i : String)
    (status : Status) : (s.updateDMMessageStatus k i status).Shows P Q := by
  refine h.map fun m hm => ?_
  rw [mark]
  split
  · exact hP m m.id status hm
  · exact hm

/-- A group message that is added is shown. -/
theorem Shows.addGroupMessage (h : s.Shows P Q) {g : String} {m : GroupMessage} (hm : Q m) :
    (s.addGroupMessage g m).Shows P Q := by
  refine ⟨h.messages, fun g' m' hm' => ?_⟩
  have hget : (s.addGroupMessage g m).groupMessages.get? g'
      = (s.groupMessages.set g ((s.groupMessages.get? g).getD [] ++ [m])).get? g' := rfl
  rw [hget] at hm'
  by_cases hg : g' = g
  · rw [hg, get?_set_self, Option.getD_some] at hm'
    rcases List.mem_append.mp hm' with hold | hnew
    · exact h.groupMessages g m' hold
    · rw [List.mem_singleton.mp hnew]
      exact hm
  · rw [get?_set_ne _ _ hg] at hm'
    exact h.groupMessages g' m' hm'

end ChatStore

/-! ## What a frame brings -/

/-- The entry a frame adds to a conversation. -/
def Incoming.entry : Incoming → Option Message
  | .message fromID sender body messageID timestamp =>
      some ⟨messageID, sender, fromID, body, timestamp, .delivered, false⟩
  | _ => none

/-- The group message a frame adds. -/
def Incoming.groupEntry : Incoming → Option GroupMessage
  | .groupMessage groupID messageID sender fromID body timestamp =>
      some ⟨messageID, sender, fromID, body, timestamp, groupID⟩
  | _ => none

/-- The client takes what it shows from the members of these names. -/
def Incoming.Reads (m : JsonDecode.JsonMap) : Incoming → Prop
  | .message fromID sender body _ timestamp =>
      text m "type" = some "message" ∧ text m "from" = some sender ∧
        text m "from_id" = some fromID ∧ text m "body" = some body ∧
        text m "timestamp" = some timestamp
  | .groupMessage groupID _ sender fromID body timestamp =>
      text m "type" = some "group_message" ∧ text m "from" = some sender ∧
        text m "from_id" = some fromID ∧ text m "body" = some body ∧
        text m "timestamp" = some timestamp ∧ text m "group_id" = some groupID
  | _ => True

/-- A frame that is understood has what it is taken for. -/
theorem reads_incoming {m : JsonDecode.JsonMap} {f : Incoming} (h : incoming m = some f) :
    f.Reads m := by
  rw [incoming] at h
  split at h
  · rename_i htype
    obtain ⟨fromID, hfrom, h⟩ := Option.bind_eq_some_iff.mp h
    obtain ⟨sender, hsender, h⟩ := Option.bind_eq_some_iff.mp h
    obtain ⟨body, hbody, h⟩ := Option.bind_eq_some_iff.mp h
    obtain ⟨messageID, -, h⟩ := Option.bind_eq_some_iff.mp h
    obtain ⟨timestamp, htime, h⟩ := Option.bind_eq_some_iff.mp h
    cases h
    exact ⟨htype, hsender, hfrom, hbody, htime⟩
  · obtain ⟨id, -, h⟩ := Option.bind_eq_some_iff.mp h
    obtain ⟨messageID, -, h⟩ := Option.bind_eq_some_iff.mp h
    cases h
    trivial
  · obtain ⟨messageID, -, h⟩ := Option.bind_eq_some_iff.mp h
    cases h
    trivial
  · rename_i htype
    obtain ⟨groupID, hgroup, h⟩ := Option.bind_eq_some_iff.mp h
    obtain ⟨messageID, -, h⟩ := Option.bind_eq_some_iff.mp h
    obtain ⟨sender, hsender, h⟩ := Option.bind_eq_some_iff.mp h
    obtain ⟨fromID, hfrom, h⟩ := Option.bind_eq_some_iff.mp h
    obtain ⟨body, hbody, h⟩ := Option.bind_eq_some_iff.mp h
    obtain ⟨timestamp, htime, h⟩ := Option.bind_eq_some_iff.mp h
    cases h
    exact ⟨htype, hsender, hfrom, hbody, htime, hgroup⟩
  · obtain ⟨userID, -, h⟩ := Option.bind_eq_some_iff.mp h
    cases h
    trivial
  · obtain ⟨chatID, -, h⟩ := Option.bind_eq_some_iff.mp h
    cases h
    trivial
  · cases h
    trivial

/-- **A FRAME SHOWS ITS OWN ENTRY**, and no other. -/
theorem ChatStore.Shows.onmessage {P : Message → Prop} {Q : GroupMessage → Prop} {s : ChatStore}
    (h : s.Shows P Q) (hP : Message.Lasting P) {f : Incoming} (hm : ∀ m ∈ f.entry, P m)
    (hg : ∀ m ∈ f.groupEntry, Q m) : (s.onmessage f).Shows P Q := by
  cases f with
  | message fromID sender body messageID timestamp => exact h.addDMMessage (hm _ rfl)
  | sent id messageID =>
      rw [ChatStore.onmessage]
      split
      · exact h.confirmDMMessage hP _ id messageID
      · exact h
  | read messageID =>
      rw [ChatStore.onmessage]
      split
      · exact h.updateDMMessageStatus hP _ messageID .read
      · exact h
  | groupMessage groupID messageID sender fromID body timestamp =>
      exact h.addGroupMessage (hg _ rfl)
  | presence userID online => exact ⟨h.messages, h.groupMessages⟩
  | typing chatID => exact ⟨h.messages, h.groupMessages⟩
  | ignored => exact h

/-! ## What an event brings -/

namespace Client

variable {getTime : String → Option Int} {c c' : Client} {e : ClientEvent}

/-- The entry `handleSend` writes, before the server has answered. -/
def optimistic (c : Client) (id timestamp : String) : Option Message :=
  match c.store.auth, c.window with
  | some auth, some w =>
      if jsTrim w.body = "" then none
      else some ⟨id, auth.username, auth.userId, jsTrim w.body, timestamp, .sent, true⟩
  | _, _ => none

/-- It is written by whoever is logged in. -/
theorem optimistic_by {id timestamp : String} {m : Message}
    (h : c.optimistic id timestamp = some m) :
    ∃ auth, c.store.auth = some auth ∧ m.fromID = auth.userId ∧ m.sender = auth.username := by
  rw [optimistic] at h
  split at h
  · rename_i auth w hauth hw
    split at h
    · cases h
    · cases h
      exact ⟨auth, hauth, rfl, rfl⟩
  · cases h

/-- The entries an event brings into conversations. -/
def brought (c : Client) : ClientEvent → List Message
  | .send id timestamp => (c.optimistic id timestamp).toList
  | .history n msgs =>
      match c.requests[n]? with
      | some r => msgs.map (fromHistory r.userId)
      | none => []
  | .frame _ f => f.entry.toList
  | _ => []

/-- The group messages it brings. -/
def broughtGroup : ClientEvent → List GroupMessage
  | .frame _ f => f.groupEntry.toList
  | _ => []

/-- **NOTHING IS SHOWN THAT DID NOT COME**: the store after an event holds what it held and
    what the event brings, up to ids and statuses. -/
theorem shows_storeAfter {P : Message → Prop} {Q : GroupMessage → Prop} (h : c.store.Shows P Q)
    (hP : Message.Lasting P) (hm : ∀ m ∈ c.brought e, P m) (hg : ∀ m ∈ broughtGroup e, Q m) :
    (c.storeAfter getTime e).Shows P Q := by
  cases e with
  | send id timestamp =>
      rw [storeAfter]
      rw [brought] at hm
      cases hauth : c.store.auth with
      | none => exact h
      | some auth =>
          cases hw : c.window with
          | none => exact h
          | some w =>
              show ((if jsTrim w.body = "" then c.store
                else c.store.addDMMessage w.partnerId _) : ChatStore).Shows P Q
              split
              · exact h
              · rename_i hbody
                refine h.addDMMessage (hm _ (Option.mem_toList.mpr ?_))
                simp only [optimistic, hauth, hw, if_neg hbody]
  | ackEffect =>
      rw [storeAfter]
      cases hw : c.window with
      | none => exact h
      | some w =>
          show (((toAck w.ackedIds (c.store.conversation w.partnerId)).foldl
            (fun s id => s.updateDMMessageStatus w.partnerId id .read) c.store)).Shows P Q
          -- one message after the other is marked
          generalize toAck w.ackedIds (c.store.conversation w.partnerId) = ids
          generalize c.store = s at h
          induction ids generalizing s with
          | nil => exact h
          | cons id ids ih => exact ih _ (h.updateDMMessageStatus hP w.partnerId id .read)
  | history n msgs =>
      rw [storeAfter]
      rw [brought] at hm
      cases hr : c.requests[n]? with
      | none => exact h
      | some r =>
          rw [hr] at hm
          show ((if msgs = [] then c.store
            else c.store.setDMHistory getTime r.partnerId _) : ChatStore).Shows P Q
          split
          · exact h
          · exact h.setDMHistory getTime hm
  | frame ws f =>
      refine h.onmessage hP (fun m hfm => hm m ?_) (fun m hfm => hg m ?_)
      · exact Option.mem_toList.mpr hfm
      · exact Option.mem_toList.mpr hfm
  | typingTimeout chatId =>
      rw [storeAfter]
      split
      · exact ⟨h.messages, h.groupMessages⟩
      · exact h
  | login auth => exact ⟨h.messages, h.groupMessages⟩
  | logout => exact ⟨h.messages, h.groupMessages⟩
  | _ => exact h

/-! ## Who it is shown to -/

theorem onmessage_auth (s : ChatStore) (f : Incoming) : (s.onmessage f).auth = s.auth := by
  cases f with
  | sent id messageID =>
      rw [ChatStore.onmessage]
      split <;> rfl
  | read messageID =>
      rw [ChatStore.onmessage]
      split <;> rfl
  | _ => rfl

/-- Neither a login nor a logout. -/
def staysIn : ClientEvent → Bool
  | .login _ => false
  | .logout => false
  | _ => true

/-- Only a login and a logout change the credentials. -/
theorem auth_step (h : c.step getTime e = some c') (he : staysIn e = true) :
    c'.store.auth = c.store.auth := by
  rw [(step_cases h).store]
  cases e with
  | login auth => cases he
  | logout => cases he
  | send id timestamp =>
      rw [storeAfter]
      split
      · split <;> rfl
      · rfl
  | ackEffect =>
      rw [storeAfter]
      split
      · rename_i w hw
        generalize toAck w.ackedIds (c.store.conversation w.partnerId) = ids
        generalize c.store = s
        induction ids generalizing s with
        | nil => rfl
        | cons id ids ih => exact ih _
      · rfl
  | history n msgs =>
      rw [storeAfter]
      split
      · split <;> rfl
      · rfl
  | frame ws f => exact onmessage_auth c.store f
  | typingTimeout chatId =>
      rw [storeAfter]
      split <;> rfl
  | _ => rfl

/-- A request is made for whoever is logged in. -/
theorem requests_step (h : c.step getTime e = some c') {r : HistoryRequest}
    (hr : r ∈ c'.requests) :
    r ∈ c.requests ∨ ∃ auth, c.store.auth = some auth ∧ r.userId = some auth.userId := by
  rcases (step_cases h).requests r hr with hold | rfl
  · exact Or.inl hold
  · obtain ⟨auth, hauth, rfl⟩ := Option.map_eq_some_iff.mp h
    have hnew : r ∈ c.requests ++ [⟨r.partnerId, some auth.userId⟩] →
        r ∈ c.requests ∨ ∃ auth, c.store.auth = some auth ∧ r.userId = some auth.userId := by
      intro hmem
      rcases List.mem_append.mp hmem with hold | hone
      · exact Or.inl hold
      · rw [List.mem_singleton.mp hone]
        exact Or.inr ⟨auth, hauth, rfl⟩
    rw [openChat] at hr
    split at hr
    · exact hnew hr
    · split at hr
      · exact Or.inl hr
      · exact hnew hr

end Client

end PeerWeb
