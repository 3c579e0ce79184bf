import PeerChat.WebClientProofs

/-! # The status a message is shown with

    Every frame and every history writes the status it brings over the one shown, so
    the status goes back exactly when what arrives is older than what is shown: a
    history of before a receipt, the frame or the ack of a message already read.

    A message goes by two ids.  `name` maps an id to the message, and is any naming
    under which the two ids of a 'sent' frame are one. -/

namespace PeerWeb

open PeerStore (Status)

theorem rank_le_read (st : Status) : st.rank ≤ Status.read.rank := by
  cases st <;> decide

/-! ## One conversation -/

variable (name : String → String)

/-- The conversation has entries of the message. -/
def Held (l : List Message) (x : String) : Prop := ∃ m ∈ l, name m.id = x

/-- Every entry of the message shows at least this status. -/
def ShownAtLeast (l : List Message) (x : String) (r : Nat) : Prop :=
  ∀ m ∈ l, name m.id = x → r ≤ m.status.rank

/-- Some entry of the message shows at most this status. -/
def ShownAtMost (l : List Message) (x : String) (r : Nat) : Prop :=
  ∃ m ∈ l, name m.id = x ∧ m.status.rank ≤ r

/-- No message that was there is gone, or shown with a lower status. -/
def NotBack (l l' : List Message) : Prop :=
  ∀ x, Held name l x →
    Held name l' x ∧ ∀ r, ShownAtLeast name l x r → ShownAtLeast name l' x r

/-- What arrives for a message that is there is not behind what is shown of it. -/
def UpToDate (l : List Message) (m : Message) : Prop :=
  Held name l (name m.id) → ShownAtMost name l (name m.id) m.status.rank

variable {name} {l l' l'' : List Message}

theorem NotBack.refl (l : List Message) : NotBack name l l :=
  fun _ hheld => ⟨hheld, fun _ hr => hr⟩

/-- What does not go back twice does not go back. -/
theorem NotBack.trans (h : NotBack name l l') (h' : NotBack name l' l'') :
    NotBack name l l'' := by
  intro x hheld
  obtain ⟨hheld', hle⟩ := h x hheld
  obtain ⟨hheld'', hle'⟩ := h' x hheld'
  exact ⟨hheld'', fun r hr => hle' r (hle r hr)⟩

/-- An entry that is shown below everything else is a step back. -/
theorem upToDate_of_notBack (h : NotBack name l l') {m : Message} (hm : m ∈ l') :
    UpToDate name l m := by
  intro hheld
  by_contra hnot
  -- otherwise all entries were above this one, and it takes that back
  have hleast : ShownAtLeast name l (name m.id) (m.status.rank + 1) := by
    intro m' hm' hname'
    by_contra hlt
    exact hnot ⟨m', hm', hname', by omega⟩
  exact Nat.not_succ_le_self _ ((h _ hheld).2 _ hleast m hm rfl)

/-- Entries that are up to date take nothing back. -/
theorem notBack_of_upToDate (hheld : ∀ x, Held name l x → Held name l' x)
    (h : ∀ m ∈ l', UpToDate name l m ∨ ∃ m₀ ∈ l, name m₀.id = name m.id ∧
      m₀.status.rank ≤ m.status.rank) : NotBack name l l' := by
  intro x hx
  refine ⟨hheld x hx, fun r hr m hm hname => ?_⟩
  have hmost : ShownAtMost name l x m.status.rank := by
    rcases h m hm with hup | ⟨m₀, hm₀, hname₀, hle⟩
    · rw [← hname]
      exact hup (hname ▸ hx)
    · exact ⟨m₀, hm₀, hname₀.trans hname, hle⟩
  obtain ⟨m₁, hm₁, hname₁, hle₁⟩ := hmost
  exact Nat.le_trans (hr m₁ hm₁ hname₁) hle₁

@[simp] theorem mark_id (i : String) (st : Status) (m : Message) :
    (ChatStore.mark i st m).id = m.id := by
  rw [ChatStore.mark]
  split <;> rfl

/-- Under a naming of its two ids an ack renames nothing. -/
theorem confirm_name {c i : String} (hci : name c = name i) (m : Message) :
    name (ChatStore.confirm c i m).id = name m.id := by
  rw [ChatStore.confirm_id]
  split
  · rename_i hm
    rw [hm, hci]
  · rfl

/-! ### What stays in a conversation -/

theorem held_append {x : String} (h : Held name l x) (m : Message) : Held name (l ++ [m]) x := by
  obtain ⟨m₀, hm₀, hname⟩ := h
  exact ⟨m₀, List.mem_append_left _ hm₀, hname⟩

theorem held_map {x : String} {g : Message → Message} (hg : ∀ m, name (g m).id = name m.id)
    (h : Held name l x) : Held name (l.map g) x := by
  obtain ⟨m, hm, hname⟩ := h
  exact ⟨g m, List.mem_map_of_mem hm, by rw [hg, hname]⟩

/-- What a history does not bring it leaves. -/
theorem held_history {msgs : List Message} {x : String}
    (hperm : l'.Perm (msgs ++ l.filter fun m => m.id ∉ msgs.map Message.id))
    (h : Held name l x) : Held name l' x := by
  obtain ⟨m, hm, hname⟩ := h
  by_cases hid : m.id ∈ msgs.map Message.id
  · obtain ⟨m', hm', hid'⟩ := List.mem_map.mp hid
    exact ⟨m', hperm.mem_iff.mpr (List.mem_append_left _ hm'), by rw [hid', hname]⟩
  · have hkept : m ∈ l.filter fun m => m.id ∉ msgs.map Message.id :=
      List.mem_filter.mpr ⟨hm, decide_eq_true hid⟩
    exact ⟨m, hperm.mem_iff.mpr (List.mem_append_right _ hkept), hname⟩

/-! ### What is taken back -/

/-- Marking as read takes nothing back. -/
theorem notBack_mark (i : String) (l : List Message) :
    NotBack name l (l.map (ChatStore.mark i .read)) := by
  refine notBack_of_upToDate ?_ ?_
  · exact fun x hx => held_map (fun m => by rw [mark_id]) hx
  · intro m hm
    obtain ⟨m₀, hm₀, rfl⟩ := List.mem_map.mp hm
    refine Or.inr ⟨m₀, hm₀, by rw [mark_id], ?_⟩
    rw [ChatStore.mark]
    split
    · exact rank_le_read m₀.status
    · exact Nat.le_refl _

/-- A new entry. -/
theorem notBack_append_iff (m : Message) : NotBack name l (l ++ [m]) ↔ UpToDate name l m := by
  constructor
  · intro h
    exact upToDate_of_notBack h (List.mem_append_right _ (List.mem_singleton_self m))
  · intro h
    refine notBack_of_upToDate ?_ ?_
    · exact fun x hx => held_append hx m
    · intro m' hm'
      rcases List.mem_append.mp hm' with hold | hnew
      · exact Or.inr ⟨m', hold, rfl, Nat.le_refl _⟩
      · rw [List.mem_singleton.mp hnew]
        exact Or.inl h

/-- The entry of the ack: it takes something back exactly from a message read. -/
theorem notBack_confirm_iff {c i : String} (hci : name c = name i)
    (hheld : ∃ m ∈ l, m.id = c) :
    NotBack name l (l.map (ChatStore.confirm c i)) ↔
      ShownAtMost name l (name c) Status.delivered.rank := by
  have hname : ∀ m, name (ChatStore.confirm c i m).id = name m.id := confirm_name hci
  obtain ⟨m₁, hm₁, hid₁⟩ := hheld
  constructor
  · intro h
    have hup := upToDate_of_notBack h (List.mem_map_of_mem (f := ChatStore.confirm c i) hm₁)
    rw [UpToDate, hname, hid₁] at hup
    have hstatus : (ChatStore.confirm c i m₁).status = .delivered := by
      rw [ChatStore.confirm, if_pos hid₁]
    rw [hstatus] at hup
    exact hup ⟨m₁, hm₁, by rw [hid₁]⟩
  · intro h
    refine notBack_of_upToDate ?_ ?_
    · exact fun x hx => held_map hname hx
    · intro m hm
      obtain ⟨m₀, hm₀, rfl⟩ := List.mem_map.mp hm
      by_cases hid : m₀.id = c
      · left
        intro _
        rw [hname, hid, ChatStore.confirm, if_pos hid]
        exact h
      · refine Or.inr ⟨m₀, hm₀, (hname m₀).symm, ?_⟩
        rw [ChatStore.confirm, if_neg hid]

/-- A history: every message it brings must be up to date. -/
theorem notBack_history_iff {msgs : List Message}
    (hperm : l'.Perm (msgs ++ l.filter fun m => m.id ∉ msgs.map Message.id)) :
    NotBack name l l' ↔ ∀ m ∈ msgs, UpToDate name l m := by
  constructor
  · intro h m hm
    exact upToDate_of_notBack h (hperm.mem_iff.mpr (List.mem_append_left _ hm))
  · intro h
    refine notBack_of_upToDate ?_ ?_
    · exact fun x hx => held_history hperm hx
    · intro m hm
      rcases List.mem_append.mp (hperm.mem_iff.mp hm) with hnew | hold
      · exact Or.inl (h m hnew)
      · exact Or.inr ⟨m, (List.mem_filter.mp hold).1, rfl, Nat.le_refl _⟩

/-! ## The store -/

variable (name) in
/-- In no conversation is a message gone, or shown with a lower status. -/
def ChatStore.NotBack (s s' : ChatStore) : Prop :=
  ∀ k, PeerWeb.NotBack name (s.conversation k) (s'.conversation k)

variable {s s' s'' : ChatStore}

theorem storeNotBack_of_eq (h : ∀ k, s'.conversation k = s.conversation k) :
    s.NotBack name s' := by
  intro k
  rw [h]
  exact NotBack.refl _

/-- A store that does not go back twice does not go back. -/
theorem storeNotBack_trans (h : s.NotBack name s') (h' : s'.NotBack name s'') :
    s.NotBack name s'' := fun k => (h k).trans (h' k)

/-- Only the conversation written matters. -/
theorem storeNotBack_setConversation_iff (k : String) (l : List Message) :
    s.NotBack name (s.setConversation k l) ↔ NotBack name (s.conversation k) l := by
  constructor
  · intro h
    have hk := h k
    rwa [ChatStore.conversation_setConversation_self] at hk
  · intro h k'
    by_cases hk : k' = k
    · rw [hk, ChatStore.conversation_setConversation_self]
      exact h
    · rw [ChatStore.conversation_setConversation_ne s l hk]
      exact NotBack.refl _

/-- Acks take no status back. -/
theorem storeNotBack_markAll (p : String) (ids : List String) (s : ChatStore) :
    s.NotBack name (ids.foldl (fun s id => s.updateDMMessageStatus p id .read) s) := by
  refine List.foldlRecOn ids _ (storeNotBack_of_eq fun _ => rfl) fun s' h id _ => ?_
  exact storeNotBack_trans h ((storeNotBack_setConversation_iff p _).mpr (notBack_mark id _))

/-- An added message takes no status back exactly when it is up to date. -/
theorem storeNotBack_addDMMessage_iff (k : String) (m : Message) :
    s.NotBack name (s.addDMMessage k m) ↔ UpToDate name (s.conversation k) m :=
  (storeNotBack_setConversation_iff k _).trans (notBack_append_iff m)

/-- A history takes no status back exactly when all its messages are up to date. -/
theorem storeNotBack_setDMHistory_iff (getTime : String → Option Int) (k : String)
    (msgs : List Message) :
    s.NotBack name (s.setDMHistory getTime k msgs) ↔
      ∀ m ∈ msgs, UpToDate name (s.conversation k) m := by
  refine (storeNotBack_setConversation_iff k _).trans (notBack_history_iff ?_)
  exact List.mergeSort_perm _ _

/-! ## The client -/

namespace Client

variable (name)

/-- The ids are what the client and the server promise: `uuidv4()` is new, and the two ids
    of a 'sent' frame are one message. -/
def Promised (c : Client) : ClientEvent → Prop
  | .send id _ => ∀ w ∈ c.window, ¬ Held name (c.store.conversation w.partnerId) (name id)
  | .frame _ (.sent id messageID) => name id = name messageID
  | _ => True

/-- **WHAT ARRIVES IS NOT BEHIND WHAT IS SHOWN**: no frame of a message shown as read, no
    ack of one, and no history with a lower status than the one shown. -/
def ArrivesInTime (c : Client) : ClientEvent → Prop
  | .frame _ (.message fromID _ _ messageID _) =>
      Held name (c.store.conversation fromID) (name messageID) →
        ShownAtMost name (c.store.conversation fromID) (name messageID) Status.delivered.rank
  | .frame _ (.sent id _) => ∀ k ∈ c.store.holder id,
      ShownAtMost name (c.store.conversation k) (name id) Status.delivered.rank
  | .history n msgs => ∀ r ∈ c.requests[n]?, ∀ m ∈ msgs,
      UpToDate name (c.store.conversation r.partnerId) (fromHistory r.userId m)
  | _ => True

/-- **THE STATUS ONLY MOVES FORWARD**: between any two states of a run no message is shown
    with a lower status, and one shown as read does not count as unread again. -/
def Forward (getTime : String → Option Int) (c : Client) (es : List ClientEvent) : Prop :=
  ∀ es₁ es₂ es₃ c₁ c₂, es = es₁ ++ es₂ ++ es₃ → c.run getTime es₁ = some c₁ →
    c₁.run getTime es₂ = some c₂ →
    c₁.store.NotBack name c₂.store ∧
    ∀ k x, Held name (c₁.store.conversation k) x →
      (∀ m ∈ c₁.store.conversation k, name m.id = x → m.status = .read) →
      ∀ m ∈ c₂.store.conversation k, name m.id = x → m.isUnread = false

variable {name} {getTime : String → Option Int} {c c' : Client}

/-- One step takes nothing back exactly if what it brings is in time. -/
theorem notBack_step_iff {e : ClientEvent} (hp : c.Promised name e)
    (h : c.step getTime e = some c') :
    c.store.NotBack name c'.store ↔ c.ArrivesInTime name e := by
  have htrivial : (∀ k, c'.store.conversation k = c.store.conversation k) →
      (c.store.NotBack name c'.store ↔ True) :=
    fun heq => iff_true_intro (storeNotBack_of_eq heq)
  have hstore := (step_cases h).store
  cases e with
  | send id timestamp =>
      obtain ⟨auth, hauth, hmap⟩ := Option.bind_eq_some_iff.mp h
      obtain ⟨w, hw, -⟩ := Option.map_eq_some_iff.mp hmap
      refine iff_true_intro ?_
      rw [hstore, storeAfter, hauth, hw]
      show c.store.NotBack name (if jsTrim w.body = "" then _ else _)
      split
      · exact storeNotBack_of_eq fun _ => rfl
      · exact (storeNotBack_addDMMessage_iff _ _).mpr fun hheld => absurd hheld (hp w hw)
  | ackEffect =>
      obtain ⟨w, hw, -⟩ := Option.map_eq_some_iff.mp h
      refine iff_true_intro ?_
      rw [hstore, storeAfter, hw]
      exact storeNotBack_markAll w.partnerId _ c.store
  | history n msgs =>
      obtain ⟨r, hr, -⟩ := Option.map_eq_some_iff.mp h
      rw [hstore, storeAfter, hr]
      show c.store.NotBack name (if msgs = [] then _ else _) ↔ ∀ r' ∈ c.requests[n]?, _
      rw [hr]
      split
      · rename_i hempty
        rw [hempty]
        exact iff_of_true (storeNotBack_of_eq fun _ => rfl) fun _ _ m hm => absurd hm List.not_mem_nil
      · rw [storeNotBack_setDMHistory_iff]
        constructor
        · intro hall r' hr' m hm
          cases hr'
          exact hall _ (List.mem_map_of_mem hm)
        · intro hall m' hm'
          obtain ⟨m, hm, rfl⟩ := List.mem_map.mp hm'
          exact hall r rfl m hm
  | frame ws f =>
      cases f with
      | message fromID sender body messageID timestamp =>
          rw [hstore]
          exact storeNotBack_addDMMessage_iff fromID _
      | sent id messageID =>
          rw [hstore]
          show c.store.NotBack name (c.store.onmessage (.sent id messageID)) ↔
            ∀ k ∈ c.store.holder id, _
          rw [ChatStore.onmessage]
          cases hholder : c.store.holder id with
          | none => exact iff_of_true (storeNotBack_of_eq fun _ => rfl) fun k hk => by cases hk
          | some k =>
              have hentry := ChatStore.entries_pos.mp (ChatStore.holder_some hholder)
              have hone : c.store.NotBack name (c.store.confirmDMMessage k id messageID) ↔ _ :=
                (storeNotBack_setConversation_iff k _).trans (notBack_confirm_iff hp hentry)
              refine hone.trans ⟨fun hshown k' hk' => ?_, fun hall => hall k rfl⟩
              cases hk'
              exact hshown
      | read messageID =>
          refine iff_true_intro ?_
          rw [hstore]
          show c.store.NotBack name (c.store.onmessage (.read messageID))
          rw [ChatStore.onmessage]
          split
          · exact (storeNotBack_setConversation_iff _ _).mpr (notBack_mark _ _)
          · exact storeNotBack_of_eq fun _ => rfl
      | groupMessage | presence | typing | ignored =>
          refine htrivial fun k => ?_
          rw [hstore]
          rfl
  | typingTimeout chatId =>
      refine htrivial fun k => ?_
      rw [hstore, storeAfter]
      split <;> rfl
  | login | logout | reload | openChat | back | input | opened | closing | closed | reconnect
  | heartbeat =>
      refine htrivial fun k => ?_
      rw [hstore]
      rfl

/-- No status goes back in a run whose arrivals are in time. -/
theorem notBack_run {es : List ClientEvent} (hp : c.Always getTime (Promised name) es)
    (ha : c.Always getTime (ArrivesInTime name) es) (h : c.run getTime es = some c') :
    c.store.NotBack name c'.store := by
  induction es generalizing c with
  | nil =>
      cases h
      exact storeNotBack_of_eq fun _ => rfl
  | cons e es ih =>
      obtain ⟨mid, hstep, hrest⟩ := Option.bind_eq_some_iff.mp h
      obtain ⟨hpe, hpes⟩ := hp
      obtain ⟨hae, haes⟩ := ha
      rw [hstep] at hpes haes
      exact storeNotBack_trans ((notBack_step_iff hpe hstep).mpr hae) (ih hpes haes hrest)

/-- A message shown as read everywhere is counted as unread nowhere later. -/
theorem isUnread_of_notBack {s s' : ChatStore} (h : s.NotBack name s') {k x : String}
    (hheld : Held name (s.conversation k) x)
    (hread : ∀ m ∈ s.conversation k, name m.id = x → m.status = .read) :
    ∀ m ∈ s'.conversation k, name m.id = x → m.isUnread = false := by
  intro m hm hname
  have hleast : ShownAtLeast name (s.conversation k) x Status.read.rank := by
    intro m₀ hm₀ hname₀
    rw [hread m₀ hm₀ hname₀]
  have hrank := ((h k) x hheld).2 _ hleast m hm hname
  have hstatus : m.status = .read := by
    cases hst : m.status with
    | read => rfl
    | sent =>
        rw [hst] at hrank
        exact absurd hrank (by decide)
    | delivered =>
        rw [hst] at hrank
        exact absurd hrank (by decide)
  rw [Message.isUnread, hstatus]
  simp

/-- **FORWARD, EXACTLY AS LONG AS WHAT ARRIVES IS IN TIME.** -/
theorem status_forward_iff {es : List ClientEvent}
    (hp : c.Always getTime (Promised name) es) (h : c.run getTime es = some c') :
    Forward name getTime c es ↔ c.Always getTime (ArrivesInTime name) es := by
  constructor
  · intro hforward
    induction es generalizing c with
    | nil => trivial
    | cons e es ih =>
        obtain ⟨mid, hstep, hrest⟩ := Option.bind_eq_some_iff.mp h
        obtain ⟨hpe, hpes⟩ := hp
        rw [hstep] at hpes
        have hone : c.run getTime [e] = some mid := by
          rw [run, hstep]
          rfl
        refine ⟨(notBack_step_iff hpe hstep).mp (hforward [] [e] es c mid rfl rfl hone).1, ?_⟩
        rw [hstep]
        refine ih hpes hrest fun es₁ es₂ es₃ c₁ c₂ heq hrun₁ hrun₂ => ?_
        refine hforward (e :: es₁) es₂ es₃ c₁ c₂ (by rw [heq]; rfl) ?_ hrun₂
        rw [run, hstep]
        exact hrun₁
  · intro ha es₁ es₂ es₃ c₁ c₂ heq hrun₁ hrun₂
    rw [heq, List.append_assoc] at hp ha
    have hnotback := notBack_run (always_left (always_right hp hrun₁))
      (always_left (always_right ha hrun₁)) hrun₂
    exact ⟨hnotback, fun k x hheld hread => isUnread_of_notBack hnotback hheld hread⟩

/-- Alice has her chat with bob open; his message arrives and is marked as read. -/
def aliceReads : List ClientEvent :=
  [.login ⟨"t", "alice", "alice"⟩, .opened 0, .openChat "bob",
    .frame 0 (.message "bob" "bob" "hello" "m1" "2026-04-07T10:00:00Z"), .ackEffect]

/-- The row of his message, with its status on the server. -/
def bobsRow (st : Status) : HistoryMessage :=
  ⟨"m1", "bob", "bob", "hello", some st, "2026-04-07T10:00:00Z"⟩

/-- The history she asked for was taken after the ack. -/
theorem status_forward_fresh :
    Forward id sampleTime start (aliceReads ++ [.history 0 [bobsRow .read]]) := by
  have hrun : ∃ c, start.run sampleTime (aliceReads ++ [.history 0 [bobsRow .read]]) = some c :=
    ⟨_, rfl⟩
  obtain ⟨c, hc⟩ := hrun
  refine (status_forward_iff ?_ hc).mpr ?_
  · exact ⟨trivial, trivial, trivial, trivial, trivial, trivial, trivial⟩
  · refine ⟨trivial, trivial, trivial, ?_, trivial, ?_, trivial⟩
    · rintro ⟨m, hm, -⟩
      cases hm
    · intro r hr m hm hheld
      rw [List.mem_singleton.mp hm] at hheld ⊢
      obtain ⟨m₀, hm₀, hid₀⟩ := hheld
      exact ⟨m₀, hm₀, hid₀, rank_le_read m₀.status⟩

/-- It was taken before, and brings the message back as unread. -/
theorem stale_history_unreads : ¬ ∀ (c : Client) (es : List ClientEvent),
    start.Always sampleTime (Promised id) es → start.run sampleTime es = some c →
    Forward id sampleTime start es := by
  intro hall
  have hrun : ∃ c₁ c₂, start.run sampleTime aliceReads = some c₁ ∧
      c₁.step sampleTime (.history 0 [bobsRow .delivered]) = some c₂ ∧
      c₁.requests[0]? = some ⟨"bob", some "alice"⟩ ∧
      c₁.store.conversation "bob" = [⟨"m1", "bob", "bob", "hello", "2026-04-07T10:00:00Z",
        .read, false⟩] := ⟨_, _, rfl, rfl, rfl, rfl⟩
  obtain ⟨c₁, c₂, hrun₁, hstep, hrequest, hconv⟩ := hrun
  have hone : c₁.run sampleTime [.history 0 [bobsRow .delivered]] = some c₂ := by
    rw [run, hstep]
    rfl
  have hlong : ∃ c, start.run sampleTime (aliceReads ++ [.history 0 [bobsRow .delivered]])
      = some c := ⟨_, rfl⟩
  obtain ⟨c, hc⟩ := hlong
  have hpromised : start.Always sampleTime (Promised id)
      (aliceReads ++ [.history 0 [bobsRow .delivered]]) :=
    ⟨trivial, trivial, trivial, trivial, trivial, trivial, trivial⟩
  have hnotback :=
    (hall c _ hpromised hc aliceReads _ [] c₁ c₂ (List.append_nil _).symm hrun₁ hone).1
  have hlast : c₁.Promised id (.history 0 [bobsRow .delivered]) := trivial
  have hup := (notBack_step_iff hlast hstep).mp hnotback _ hrequest (bobsRow .delivered)
    (List.mem_singleton_self _)
  rw [hconv] at hup
  obtain ⟨m, hm, -, hle⟩ := hup ⟨_, List.mem_singleton_self _, rfl⟩
  rw [List.mem_singleton.mp hm] at hle
  exact absurd hle (by decide)

end Client

end PeerWeb
