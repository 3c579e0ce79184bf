import PeerChat.WebReadProofs

/-! # One entry for a message sent

    `handleSend` shows a message under a client id; the server stores it under an id
    of its own and says so in the 'sent' frame.  Meanwhile histories are fetched:
    each is the rows of the chat when it was taken, and is merged whenever it
    arrives.

    A history with the row that is merged before the ack brings an entry of its own;
    the ack then renames the optimistic entry to the same id.  Only a later history
    merges the two. -/

namespace PeerWeb

/-- The chat the message is sent in, and its two ids. -/
structure Sending where
  partnerId : String
  clientId : String
  serverId : String
  distinct : clientId ≠ serverId

/-- The client's store, the ids the server has stored for the chat, and the histories on
    their way.  The last two fields record whether a history with the row was merged
    before the ack, and whether one was after it. -/
structure SendState where
  store : ChatStore
  rows : List String
  snapshots : List (List Message)
  composed : Bool
  stored : Bool
  acked : Bool
  overtook : Bool
  refreshed : Bool

inductive SendEvent where
  /-- `handleSend`. -/
  | compose (auth : Auth) (body timestamp : String)
  /-- The server stores the message. -/
  | storeRow
  /-- It stores another message of the chat. -/
  | storeOther (id : String)
  /-- It answers `GET /messages` with these messages. -/
  | snapshot (msgs : List Message)
  /-- The `n`-th answer on its way arrives. -/
  | merge (n : Nat)
  /-- The 'sent' frame arrives. -/
  | ack
  /-- A frame about other messages arrives. -/
  | frame (f : Incoming)

/-- The entry `handleSend` adds. -/
def optimisticEntry (auth : Auth) (id body timestamp : String) : Message :=
  ⟨id, auth.username, auth.userId, body, timestamp, .sent, true⟩

/-- One event; `none` where it cannot happen. -/
def SendState.step (getTime : String → Option Int) (σ : Sending) (st : SendState) :
    SendEvent → Option SendState
  | .compose auth body timestamp =>
      if st.composed = false then
        some { st with
          store := st.store.addDMMessage σ.partnerId
            (optimisticEntry auth σ.clientId body timestamp)
          composed := true }
      else none
  | .storeRow =>
      if st.composed = true ∧ st.stored = false then
        some { st with rows := st.rows ++ [σ.serverId], stored := true }
      else none
  | .storeOther id =>
      if id ≠ σ.clientId ∧ id ≠ σ.serverId ∧ id ∉ st.rows then
        some { st with rows := st.rows ++ [id] }
      else none
  | .snapshot msgs =>
      if (msgs.map Message.id).Perm st.rows then
        some { st with snapshots := st.snapshots ++ [msgs] }
      else none
  | .merge n =>
      match st.snapshots[n]? with
      | none => none
      | some msgs =>
          some { st with
            store := st.store.setDMHistory getTime σ.partnerId msgs
            snapshots := st.snapshots.eraseIdx n
            overtook := st.overtook || (!st.acked && decide (σ.serverId ∈ msgs.map Message.id))
            refreshed := st.refreshed || (st.acked && decide (σ.serverId ∈ msgs.map Message.id)) }
  | .ack =>
      if st.stored = true ∧ st.acked = false then
        some { st with
          store := st.store.onmessage (.sent σ.clientId σ.serverId)
          acked := true }
      else none
  | .frame f =>
      if f.Names σ.clientId ∨ f.Names σ.serverId then none
      else some { st with store := st.store.onmessage f }

/-- Events one after another. -/
def SendState.run (getTime : String → Option Int) (σ : Sending) (st : SendState) :
    List SendEvent → Option SendState
  | [] => some st
  | e :: es => (st.step getTime σ e).bind fun st' => st'.run getTime σ es

/-- Any conversations, in which neither id occurs, and any chat on the server. -/
structure SendState.Initial (σ : Sending) (st : SendState) : Prop where
  client : ∀ k, st.store.entries k σ.clientId = 0
  server : ∀ k, st.store.entries k σ.serverId = 0
  rows : st.rows.Nodup ∧ σ.clientId ∉ st.rows ∧ σ.serverId ∉ st.rows
  snapshots : st.snapshots = []
  before : st.composed = false ∧ st.stored = false ∧ st.acked = false
  unseen : st.overtook = false ∧ st.refreshed = false

/-- **ONE ENTRY FOR THE MESSAGE**, under the server's id. -/
def SendState.OneEntry (σ : Sending) (st : SendState) : Prop :=
  st.store.entries σ.partnerId σ.serverId = 1 ∧ st.store.entries σ.partnerId σ.clientId = 0

/-- The entries under the server's id: those of the ack and of a history that came
    before it, or of one that has merged them. -/
def SendState.serverEntries (st : SendState) : Nat :=
  if st.acked then if st.overtook && !st.refreshed then 2 else 1
  else if st.overtook then 1 else 0

/-- What holds throughout a run. -/
structure SendInv (σ : Sending) (st : SendState) : Prop where
  client : ∀ k, st.store.entries k σ.clientId
    = if k = σ.partnerId ∧ st.composed = true ∧ st.acked = false then 1 else 0
  server : ∀ k, st.store.entries k σ.serverId
    = if k = σ.partnerId then st.serverEntries else 0
  rows : st.rows.Nodup ∧ σ.clientId ∉ st.rows ∧ (σ.serverId ∈ st.rows → st.stored = true)
  snapshots : ∀ msgs ∈ st.snapshots, (msgs.map Message.id).Nodup ∧
    σ.clientId ∉ msgs.map Message.id ∧ (σ.serverId ∈ msgs.map Message.id → st.stored = true)
  composed : st.stored = true → st.composed = true
  stored : st.acked = true → st.stored = true
  unrefreshed : st.acked = false → st.refreshed = false

variable {getTime : String → Option Int} {σ : Sending} {st st' : SendState}

/-- The invariant holds before anything is sent. -/
theorem SendState.Initial.inv (h : st.Initial σ) : SendInv σ st where
  client := by
    intro k
    rw [h.client, h.before.1, if_neg fun hc => Bool.false_ne_true hc.2.1]
  server := by
    intro k
    rw [h.server, SendState.serverEntries, h.before.2.2, h.unseen.1]
    simp
  rows := ⟨h.rows.1, h.rows.2.1, fun hmem => absurd hmem h.rows.2.2⟩
  snapshots := by
    rw [h.snapshots]
    intro msgs hmsgs
    cases hmsgs
  composed := by
    rw [h.before.2.1]
    intro hc
    cases hc
  stored := by
    rw [h.before.2.2]
    intro hc
    cases hc
  unrefreshed := fun _ => h.unseen.2

/-! ## One event -/

/-- `handleSend` shows the message once, under its client id. -/
theorem inv_compose (hi : SendInv σ st) (hc : st.composed = false) (auth : Auth)
    (body timestamp : String) :
    SendInv σ { st with
      store := st.store.addDMMessage σ.partnerId
        (optimisticEntry auth σ.clientId body timestamp)
      composed := true } where
  client := by
    intro k
    have hacked : st.acked = false := by
      by_contra hne
      have := hi.composed (hi.stored (Bool.eq_true_of_not_eq_false hne))
      rw [hc] at this
      cases this
    show (st.store.addDMMessage _ _).entries k _ = _
    rw [ChatStore.entries_addDMMessage, hi.client, hc, hacked]
    simp [optimisticEntry]
  server := by
    intro k
    show (st.store.addDMMessage _ _).entries k _ = _
    have hother : ¬ (k = σ.partnerId ∧ σ.clientId = σ.serverId) := fun h => σ.distinct h.2
    exact (ChatStore.entries_addDMMessage ..).trans
      ((congrArg _ (if_neg hother)).trans (hi.server k))
  rows := hi.rows
  snapshots := hi.snapshots
  composed := fun _ => rfl
  stored := hi.stored
  unrefreshed := hi.unrefreshed

/-- The server stores the message as a new row. -/
theorem inv_storeRow (hi : SendInv σ st) (hc : st.composed = true) (hs : st.stored = false) :
    SendInv σ { st with rows := st.rows ++ [σ.serverId], stored := true } where
  client := hi.client
  server := hi.server
  rows := by
    refine ⟨?_, ?_, fun _ => rfl⟩
    · refine List.Nodup.append hi.rows.1 (List.nodup_singleton _) ?_
      rw [List.disjoint_singleton]
      intro hmem
      have := hi.rows.2.2 hmem
      rw [hs] at this
      cases this
    · rw [List.mem_append, List.mem_singleton]
      rintro (hmem | heq)
      · exact hi.rows.2.1 hmem
      · exact σ.distinct heq
  snapshots := fun msgs hmsgs =>
    ⟨(hi.snapshots msgs hmsgs).1, (hi.snapshots msgs hmsgs).2.1, fun _ => rfl⟩
  composed := fun _ => hc
  stored := fun _ => rfl
  unrefreshed := hi.unrefreshed

/-- A row of another message changes nothing that is counted. -/
theorem inv_storeOther (hi : SendInv σ st) {id : String} (hc : id ≠ σ.clientId)
    (hs : id ≠ σ.serverId) (hnew : id ∉ st.rows) :
    SendInv σ { st with rows := st.rows ++ [id] } where
  client := hi.client
  server := hi.server
  rows := by
    refine ⟨?_, ?_, ?_⟩
    · refine List.Nodup.append hi.rows.1 (List.nodup_singleton _) ?_
      rwa [List.disjoint_singleton]
    · rw [List.mem_append, List.mem_singleton]
      rintro (hmem | heq)
      · exact hi.rows.2.1 hmem
      · exact hc heq.symm
    · rw [List.mem_append, List.mem_singleton]
      rintro (hmem | heq)
      · exact hi.rows.2.2 hmem
      · exact absurd heq.symm hs
  snapshots := hi.snapshots
  composed := hi.composed
  stored := hi.stored
  unrefreshed := hi.unrefreshed

/-- A history answer lists the rows there are, each once. -/
theorem inv_snapshot (hi : SendInv σ st) {msgs : List Message}
    (hmsgs : (msgs.map Message.id).Perm st.rows) :
    SendInv σ { st with snapshots := st.snapshots ++ [msgs] } where
  client := hi.client
  server := hi.server
  rows := hi.rows
  snapshots := by
    intro msgs' hmem
    rcases List.mem_append.mp hmem with hold | hnew
    · exact hi.snapshots msgs' hold
    · rw [List.mem_singleton.mp hnew]
      exact ⟨hmsgs.nodup_iff.mpr hi.rows.1, fun h => hi.rows.2.1 (hmsgs.mem_iff.mp h),
        fun h => hi.rows.2.2 (hmsgs.mem_iff.mp h)⟩
  composed := hi.composed
  stored := hi.stored
  unrefreshed := hi.unrefreshed

/-- Merging a snapshot keeps what the invariant counts. -/
theorem inv_merge (hi : SendInv σ st) {n : Nat} {msgs : List Message}
    (hget : st.snapshots[n]? = some msgs) :
    SendInv σ { st with
      store := st.store.setDMHistory getTime σ.partnerId msgs
      snapshots := st.snapshots.eraseIdx n
      overtook := st.overtook || (!st.acked && decide (σ.serverId ∈ msgs.map Message.id))
      refreshed := st.refreshed || (st.acked && decide (σ.serverId ∈ msgs.map Message.id)) } := by
  obtain ⟨hnodup, hclient, hserver⟩ := hi.snapshots msgs (List.mem_of_getElem? hget)
  exact {
    client := by
      intro k
      show (st.store.setDMHistory _ _ _).entries k _ = _
      rw [ChatStore.entries_setDMHistory getTime st.store _ hnodup, if_neg fun h => hclient h.2]
      exact hi.client k
    server := by
      intro k
      show (st.store.setDMHistory _ _ _).entries k _ = _
      rw [ChatStore.entries_setDMHistory getTime st.store _ hnodup, hi.server]
      -- a history with the row leaves one entry of it, whatever there was
      by_cases hk : k = σ.partnerId <;> by_cases hmem : σ.serverId ∈ msgs.map Message.id <;>
        cases ha : st.acked <;> simp [hk, hmem, ha, SendState.serverEntries]
    rows := hi.rows
    snapshots := fun msgs' hmsgs' => hi.snapshots msgs' (List.mem_of_mem_eraseIdx hmsgs')
    composed := hi.composed
    stored := hi.stored
    unrefreshed := by
      intro ha
      show (st.refreshed || (st.acked && _)) = false
      rw [hi.unrefreshed ha, show st.acked = false from ha]
      rfl }

/-- The ack comes after the row, and gives the copy the row's id. -/
theorem inv_ack (hi : SendInv σ st) (hs : st.stored = true) (ha : st.acked = false) :
    SendInv σ { st with
      store := st.store.onmessage (.sent σ.clientId σ.serverId)
      acked := true } := by
  have hone : st.store.OneEntry σ.partnerId σ.clientId := by
    refine ⟨?_, fun k hk => ?_⟩
    · rw [hi.client, if_pos ⟨rfl, hi.composed hs, ha⟩]
    · rw [hi.client, if_neg fun h => hk h.1]
  exact {
    client := by
      intro k
      show (st.store.onmessage _).entries k _ = _
      rw [entries_sent_client σ.distinct hone, if_neg fun h => Bool.false_ne_true h.2.2.symm]
    server := by
      intro k
      show (st.store.onmessage _).entries k _ = _
      rw [entries_sent σ.distinct hone, hi.server]
      have hunrefreshed := hi.unrefreshed ha
      -- the renamed entry comes beside the one of a history that overtook the ack
      by_cases hk : k = σ.partnerId <;> cases ho : st.overtook <;>
        simp [hk, ho, ha, hunrefreshed, SendState.serverEntries]
    rows := hi.rows
    snapshots := hi.snapshots
    composed := hi.composed
    stored := fun _ => hs
    unrefreshed := fun h => absurd h.symm Bool.false_ne_true }

/-- A frame that names neither id changes nothing that is counted. -/
theorem inv_frame (hi : SendInv σ st) {f : Incoming}
    (hf : ¬ (f.Names σ.clientId ∨ f.Names σ.serverId)) :
    SendInv σ { st with store := st.store.onmessage f } where
  client := fun k =>
    (entries_onmessage_ne st.store (fun h => hf (Or.inl h)) k).trans (hi.client k)
  server := fun k =>
    (entries_onmessage_ne st.store (fun h => hf (Or.inr h)) k).trans (hi.server k)
  rows := hi.rows
  snapshots := hi.snapshots
  composed := hi.composed
  stored := hi.stored
  unrefreshed := hi.unrefreshed

/-- **EVERY EVENT KEEPS THE COUNTS.** -/
theorem inv_step {e : SendEvent} (h : st.step getTime σ e = some st') (hi : SendInv σ st) :
    SendInv σ st' := by
  cases e with
  | compose auth body timestamp =>
      obtain ⟨hc, heq⟩ := Option.ite_none_right_eq_some.mp h
      cases heq
      exact inv_compose hi hc auth body timestamp
  | storeRow =>
      obtain ⟨hc, heq⟩ := Option.ite_none_right_eq_some.mp h
      cases heq
      exact inv_storeRow hi hc.1 hc.2
  | storeOther id =>
      obtain ⟨hc, heq⟩ := Option.ite_none_right_eq_some.mp h
      cases heq
      exact inv_storeOther hi hc.1 hc.2.1 hc.2.2
  | snapshot msgs =>
      obtain ⟨hc, heq⟩ := Option.ite_none_right_eq_some.mp h
      cases heq
      exact inv_snapshot hi hc
  | merge n =>
      cases hget : st.snapshots[n]? with
      | none =>
          rw [SendState.step, hget] at h
          cases h
      | some msgs =>
          rw [SendState.step, hget] at h
          cases h
          exact inv_merge hi hget
  | ack =>
      obtain ⟨hc, heq⟩ := Option.ite_none_right_eq_some.mp h
      cases heq
      exact inv_ack hi hc.1 hc.2
  | frame f =>
      obtain ⟨hc, heq⟩ := Option.ite_none_left_eq_some.mp h
      cases heq
      exact inv_frame hi hc

/-- The invariant holds all along a run. -/
theorem inv_run {es : List SendEvent} (h : st.run getTime σ es = some st')
    (hi : SendInv σ st) : SendInv σ st' := by
  induction es generalizing st with
  | nil =>
      cases h
      exact hi
  | cons e es ih =>
      obtain ⟨mid, hstep, hrest⟩ := Option.bind_eq_some_iff.mp h
      exact ih hrest (inv_step hstep hi)

/-- **ONE ENTRY, UNLESS A HISTORY OVERTOOK THE ACK** and none has been merged since. -/
theorem sent_once_iff {es : List SendEvent} (hstart : st.Initial σ)
    (h : st.run getTime σ es = some st') (hacked : st'.acked = true) :
    st'.OneEntry σ ↔ (st'.overtook = false ∨ st'.refreshed = true) := by
  have hi := inv_run h hstart.inv
  have hclient : st'.store.entries σ.partnerId σ.clientId = 0 := by
    rw [hi.client, if_neg fun hc => Bool.false_ne_true (hc.2.2.symm.trans hacked)]
  have hserver : st'.store.entries σ.partnerId σ.serverId = st'.serverEntries := by
    rw [hi.server, if_pos rfl]
  rw [SendState.OneEntry, hclient, hserver, SendState.serverEntries, if_pos hacked]
  cases st'.overtook <;> cases st'.refreshed <;> simp

/-! ## Alice writes to bob -/

def toBob : Sending := ⟨"bob", "c1", "m1", by decide⟩

/-- A new browser and an empty chat. -/
def newChat : SendState := ⟨ChatStore.initial, [], [], false, false, false, false, false⟩

theorem newChat_initial : newChat.Initial toBob :=
  ⟨fun _ => rfl, fun _ => rfl, ⟨List.nodup_nil, List.not_mem_nil, List.not_mem_nil⟩, rfl,
    ⟨rfl, rfl, rfl⟩, rfl, rfl⟩

/-- Alice's message and its row. -/
def helloSent : List SendEvent :=
  [.compose ⟨"t", "alice", "alice"⟩ "hello" "2026-04-07T10:00:00Z", .storeRow]

/-- The history that has the row. -/
def helloHistory : List Message :=
  [⟨"m1", "alice", "alice", "hello", "2026-04-07T10:00:00Z", .sent, true⟩]

/-- The ack, and then the history. -/
theorem sent_once_ack_first : ∃ st, newChat.run sampleTime toBob
    (helloSent ++ [.ack, .snapshot helloHistory, .merge 0]) = some st ∧ st.OneEntry toBob := by
  have hrun : ∃ st, newChat.run sampleTime toBob
      (helloSent ++ [.ack, .snapshot helloHistory, .merge 0]) = some st ∧ st.acked = true ∧
      st.overtook = false := ⟨_, rfl, rfl, rfl⟩
  obtain ⟨st, hst, hacked, hfirst⟩ := hrun
  exact ⟨st, hst, (sent_once_iff newChat_initial hst hacked).mpr (Or.inl hfirst)⟩

/-- The history comes before the ack: two entries. -/
theorem history_overtakes_ack : ¬ ∀ (σ : Sending) (st st' : SendState) (es : List SendEvent),
    st.Initial σ → st.run sampleTime σ es = some st' → st'.acked = true → st'.snapshots = [] →
    st'.OneEntry σ := by
  intro hall
  have hrun : ∃ st', newChat.run sampleTime toBob
      (helloSent ++ [.snapshot helloHistory, .merge 0, .ack]) = some st' ∧ st'.acked = true ∧
      st'.snapshots = [] ∧ st'.serverEntries = 2 := ⟨_, rfl, rfl, rfl, rfl⟩
  obtain ⟨st', hst', hacked, hdone, htwo⟩ := hrun
  have hone := (hall toBob newChat st' _ newChat_initial hst' hacked hdone).1
  rw [(inv_run hst' newChat_initial.inv).server, if_pos rfl, htwo] at hone
  exact absurd hone (by decide)

end PeerWeb
