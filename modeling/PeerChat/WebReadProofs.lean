import PeerChat.WebFrameProofs

/-! # The 'sent' ack and the read receipt, in either order

    Both frames are about one message, which the client knows by its own id until
    the ack renames it.  A receipt that comes first finds nothing to mark and is
    gone; the ack then shows the message as delivered. -/

namespace PeerWeb

/-- Handle frames one after another. -/
def ChatStore.onmessageAll (s : ChatStore) (fs : List Incoming) : ChatStore :=
  fs.foldl ChatStore.onmessage s

/-- A frame about other messages. -/
def Incoming.Apart (f : Incoming) (i : String) : Prop := ¬ f.Names i ∧ f ≠ .read i

/-- In this conversation the message is shown with this status. -/
def ChatStore.Shown (s : ChatStore) (k i : String) (status : PeerStore.Status) : Prop :=
  ∀ m ∈ s.conversation k, m.id = i → m.status = status

/-- The id has one entry, in the conversation `k`. -/
def ChatStore.OneEntry (s : ChatStore) (k i : String) : Prop :=
  s.entries k i = 1 ∧ ∀ k', k' ≠ k → s.entries k' i = 0

/-- **WHAT IS EXPECTED OF THE TWO FRAMES**: one entry of the server's id, read. -/
def ChatStore.OneRead (s : ChatStore) (i : String) : Prop :=
  ∃ k, s.OneEntry k i ∧ s.Shown k i .read

/-- The ack and the receipt of a message, in the order of their arrival. -/
def ackAndReceipt (sentFirst : Bool) (c i : String) : Incoming × Incoming :=
  if sentFirst then (.sent c i, .read i) else (.read i, .sent c i)

variable {s : ChatStore} {k c i : String}

/-! ## Frames about other messages -/

/-- What is shown of an id was shown before a frame about others. -/
theorem mem_onmessage_apart {f : Incoming} (hf : f.Apart i) {m : Message} (hid : m.id = i)
    (hm : m ∈ (s.onmessage f).conversation k) : m ∈ s.conversation k := by
  cases f with
  | message fromID sender body messageID timestamp =>
      rw [ChatStore.onmessage, ChatStore.conversation_addDMMessage] at hm
      split at hm
      · rename_i hk
        rw [hk]
        rcases List.mem_append.mp hm with hold | hnew
        · exact hold
        · rw [List.mem_singleton.mp hnew] at hid
          exact absurd hid hf.1
      · exact hm
  | sent c' i' =>
      rw [ChatStore.onmessage] at hm
      split at hm
      · rw [ChatStore.conversation_confirmDMMessage] at hm
        split at hm
        · rename_i hk
          rw [hk]
          obtain ⟨m₀, hm₀, rfl⟩ := List.mem_map.mp hm
          rw [ChatStore.confirm_id] at hid
          rw [ChatStore.confirm]
          split at hid
          · exact absurd (Or.inr hid) hf.1
          · rename_i hne
            rw [if_neg hne]
            exact hm₀
        · exact hm
      · exact hm
  | read i' =>
      rw [ChatStore.onmessage] at hm
      split at hm
      · rw [ChatStore.conversation_updateDMMessageStatus] at hm
        split at hm
        · rename_i hk
          rw [hk]
          obtain ⟨m₀, hm₀, rfl⟩ := List.mem_map.mp hm
          rw [ChatStore.mark] at hid ⊢
          split at hid
          · rename_i hi'
            have heq : i' = i := hi'.symm.trans hid
            exact absurd (congrArg Incoming.read heq) hf.2
          · rename_i hne
            rw [if_neg hne]
            exact hm₀
        · exact hm
      · exact hm
  | groupMessage | presence | typing | ignored => exact hm

/-- Frames that do not name an id bring no entry of it. -/
theorem entries_onmessageAll {fs : List Incoming} (hfs : ∀ f ∈ fs, ¬ f.Names i) :
    (s.onmessageAll fs).entries k i = s.entries k i := by
  induction fs generalizing s with
  | nil => rfl
  | cons f fs ih =>
      exact (ih fun g hg => hfs g (List.mem_cons_of_mem _ hg)).trans
        (entries_onmessage_ne s (hfs f List.mem_cons_self) k)

/-- Frames that are apart from an id leave it shown as it is. -/
theorem shown_onmessageAll {fs : List Incoming} {st : PeerStore.Status}
    (hfs : ∀ f ∈ fs, f.Apart i) (h : s.Shown k i st) : (s.onmessageAll fs).Shown k i st := by
  induction fs generalizing s with
  | nil => exact h
  | cons f fs ih =>
      refine ih (fun g hg => hfs g (List.mem_cons_of_mem _ hg)) ?_
      intro m hm hid
      exact h m (mem_onmessage_apart (hfs f List.mem_cons_self) hid hm) hid

/-! ## The two frames -/

theorem holder_oneEntry (hc : s.OneEntry k c) : s.holder c = some k := by
  refine ChatStore.holder_eq ?_ hc.2
  rw [hc.1]
  exact Nat.one_pos

/-- The ack moves the entry to the server's id. -/
theorem entries_sent (hne : c ≠ i) (hc : s.OneEntry k c) (k' : String) :
    (s.onmessage (.sent c i)).entries k' i = s.entries k' i + if k' = k then 1 else 0 := by
  rw [ChatStore.onmessage, holder_oneEntry hc]
  show (s.confirmDMMessage k c i).entries k' i = _
  rw [ChatStore.entries_confirmDMMessage s k hne, if_neg fun h => hne h.2.symm, hc.1]
  simp only [and_true]

/-- And takes it away from the client's. -/
theorem entries_sent_client (hne : c ≠ i) (hc : s.OneEntry k c) (k' : String) :
    (s.onmessage (.sent c i)).entries k' c = 0 := by
  rw [ChatStore.onmessage, holder_oneEntry hc]
  show (s.confirmDMMessage k c i).entries k' c = 0
  rw [ChatStore.entries_confirmDMMessage s k hne]
  by_cases hk : k' = k
  · rw [if_pos ⟨hk, rfl⟩]
  · rw [if_neg fun h => hk h.1, hc.2 k' hk, if_neg fun h => hk h.1]

/-- Where the server's id was unknown, the ack shows the message as delivered. -/
theorem shown_sent (hc : s.OneEntry k c) (hi : s.entries k i = 0) :
    (s.onmessage (.sent c i)).Shown k i .delivered := by
  rw [ChatStore.onmessage, holder_oneEntry hc]
  intro m hm hid
  have hconv := ChatStore.conversation_confirmDMMessage s k c i k
  rw [if_pos rfl] at hconv
  rw [hconv] at hm
  obtain ⟨m₀, hm₀, rfl⟩ := List.mem_map.mp hm
  rw [ChatStore.confirm] at hid ⊢
  split at hid
  · rename_i hmc
    rw [if_pos hmc]
  · have hpos := ChatStore.entries_pos.mpr ⟨m₀, hm₀, hid⟩
    rw [hi] at hpos
    exact absurd hpos (Nat.lt_irrefl 0)

/-- A receipt for the one entry of an id marks it. -/
theorem shown_read (hi : s.OneEntry k i) : (s.onmessage (.read i)).Shown k i .read := by
  rw [ChatStore.onmessage, holder_oneEntry hi]
  intro m hm hid
  have hconv := ChatStore.conversation_updateDMMessageStatus s k i .read k
  rw [if_pos rfl] at hconv
  rw [hconv] at hm
  obtain ⟨m₀, hm₀, rfl⟩ := List.mem_map.mp hm
  rw [ChatStore.mark] at hid ⊢
  split at hid
  · rename_i hm₀i
    rw [if_pos hm₀i]
  · rename_i hne
    exact absurd hid hne

/-- Frames that do not name an id leave its one entry alone. -/
theorem oneEntry_onmessageAll {fs : List Incoming} (hfs : ∀ f ∈ fs, ¬ f.Names i)
    (h : s.OneEntry k i) : (s.onmessageAll fs).OneEntry k i := by
  refine ⟨(entries_onmessageAll hfs).trans h.1, fun k' hk' => ?_⟩
  exact (entries_onmessageAll hfs).trans (h.2 k' hk')

/-- A receipt for an unknown id is dropped. -/
theorem onmessage_read_unknown (hi : ∀ k, s.entries k i = 0) : s.onmessage (.read i) = s := by
  rw [ChatStore.onmessage]
  split
  · rename_i k hholder
    have hpos := ChatStore.holder_some hholder
    rw [hi k] at hpos
    exact absurd hpos (Nat.lt_irrefl 0)
  · rfl

theorem onmessageAll_append (s : ChatStore) (fs gs : List Incoming) :
    s.onmessageAll (fs ++ gs) = (s.onmessageAll fs).onmessageAll gs :=
  List.foldl_append

/-! ## Both frames among others -/

/-- The frames that surround the two, the two in their order. -/
def surrounded (before mid after : List Incoming) (pair : Incoming × Incoming) :
    List Incoming :=
  before ++ pair.1 :: (mid ++ pair.2 :: after)

section
variable {before mid after : List Incoming} (hne : c ≠ i) (hc : s.OneEntry k c)
  (hbefore : ∀ f ∈ before, f.Apart c ∧ f.Apart i) (hmid : ∀ f ∈ mid, f.Apart c ∧ f.Apart i)
  (hafter : ∀ f ∈ after, f.Apart c ∧ f.Apart i)
include hne hc hbefore hmid hafter

/-- In either order the ack adds its entry to those the server's id had. -/
theorem entries_surrounded (sentFirst : Bool) (k' : String) :
    (s.onmessageAll (surrounded before mid after (ackAndReceipt sentFirst c i))).entries k' i
      = s.entries k' i + if k' = k then 1 else 0 := by
  have hcb := oneEntry_onmessageAll (fun f hf => (hbefore f hf).1.1) hc
  rw [surrounded, onmessageAll_append]
  cases sentFirst with
  | true =>
      show (((s.onmessageAll before).onmessage (.sent c i)).onmessageAll
        (mid ++ .read i :: after)).entries k' i = _
      rw [entries_onmessageAll, entries_sent hne hcb,
        entries_onmessageAll fun f hf => (hbefore f hf).2.1]
      intro f hf
      rcases List.mem_append.mp hf with hf | hf
      · exact (hmid f hf).2.1
      · rcases List.mem_cons.mp hf with rfl | hf
        · exact id
        · exact (hafter f hf).2.1
  | false =>
      have hread : ∀ f ∈ Incoming.read i :: mid, ¬ f.Names c ∧ ¬ f.Names i := by
        intro f hf
        rcases List.mem_cons.mp hf with rfl | hf
        · exact ⟨id, id⟩
        · exact ⟨(hmid f hf).1.1, (hmid f hf).2.1⟩
      show ((s.onmessageAll before).onmessageAll ((.read i :: mid) ++ .sent c i :: after)).entries
        k' i = _
      rw [onmessageAll_append]
      show ((((s.onmessageAll before).onmessageAll (.read i :: mid)).onmessage
        (.sent c i)).onmessageAll after).entries k' i = _
      rw [entries_onmessageAll fun f hf => (hafter f hf).2.1,
        entries_sent hne (oneEntry_onmessageAll (fun f hf => (hread f hf).1) hcb),
        entries_onmessageAll fun f hf => (hread f hf).2,
        entries_onmessageAll fun f hf => (hbefore f hf).2.1]

omit hne in
/-- The receipt first: it finds nothing, and the ack leaves the entry 'delivered'. -/
theorem shown_receipt_first (hzero : ∀ k', s.entries k' i = 0) :
    (s.onmessageAll (surrounded before mid after (ackAndReceipt false c i))).Shown k i
      .delivered := by
  have hzerob : ∀ k', (s.onmessageAll before).entries k' i = 0 := fun k' =>
    (entries_onmessageAll fun f hf => (hbefore f hf).2.1).trans (hzero k')
  have hzerom : ((s.onmessageAll before).onmessageAll mid).entries k i = 0 :=
    (entries_onmessageAll fun f hf => (hmid f hf).2.1).trans (hzerob k)
  have hcm := oneEntry_onmessageAll (fun f hf => (hmid f hf).1.1)
    (oneEntry_onmessageAll (fun f hf => (hbefore f hf).1.1) hc)
  have hfinal : s.onmessageAll (surrounded before mid after (ackAndReceipt false c i))
      = (((s.onmessageAll before).onmessageAll mid).onmessage (.sent c i)).onmessageAll after := by
    rw [surrounded, onmessageAll_append]
    show ((s.onmessageAll before).onmessage (.read i)).onmessageAll (mid ++ .sent c i :: after) = _
    rw [onmessage_read_unknown hzerob, onmessageAll_append]
    rfl
  rw [hfinal]
  exact shown_onmessageAll (fun f hf => (hafter f hf).2) (shown_sent hcm hzerom)

/-- The ack first: the receipt finds the one entry. -/
theorem shown_ack_first (hzero : ∀ k', s.entries k' i = 0) :
    (s.onmessageAll (surrounded before mid after (ackAndReceipt true c i))).Shown k i .read := by
  have hcb := oneEntry_onmessageAll (fun f hf => (hbefore f hf).1.1) hc
  have hcount : ∀ k', ((s.onmessageAll before).onmessage (.sent c i)).entries k' i
      = if k' = k then 1 else 0 := by
    intro k'
    rw [entries_sent hne hcb, entries_onmessageAll fun f hf => (hbefore f hf).2.1, hzero,
      Nat.zero_add]
  have hsent : (((s.onmessageAll before).onmessage (.sent c i)).onmessageAll mid).OneEntry k i := by
    refine oneEntry_onmessageAll (fun f hf => (hmid f hf).2.1) ⟨?_, fun k' hk' => ?_⟩
    · rw [hcount, if_pos rfl]
    · rw [hcount, if_neg hk']
  rw [surrounded, onmessageAll_append]
  show (((s.onmessageAll before).onmessage (.sent c i)).onmessageAll
    (mid ++ .read i :: after)).Shown k i .read
  rw [onmessageAll_append]
  show (((((s.onmessageAll before).onmessage (.sent c i)).onmessageAll mid).onmessage
    (.read i)).onmessageAll after).Shown k i .read
  exact shown_onmessageAll (fun f hf => (hafter f hf).2) (shown_read hsent)

/-- One entry at the end is the entry of the ack. -/
theorem oneRead_surrounded {sentFirst : Bool}
    (h : (s.onmessageAll (surrounded before mid after (ackAndReceipt sentFirst c i))).OneRead i) :
    (∀ k', s.entries k' i = 0) ∧
      (s.onmessageAll (surrounded before mid after (ackAndReceipt sentFirst c i))).Shown k i
        .read := by
  have hcount := entries_surrounded hne hc hbefore hmid hafter sentFirst
  obtain ⟨k₀, ⟨hone, hother⟩, hread⟩ := h
  have hk₀ : k₀ = k := by
    by_contra hne'
    have hzero := hother k (Ne.symm hne')
    rw [hcount, if_pos rfl] at hzero
    exact Nat.succ_ne_zero _ hzero
  rw [hk₀] at hone hother hread
  refine ⟨fun k' => ?_, hread⟩
  by_cases hk' : k' = k
  · rw [hcount, if_pos rfl] at hone
    rw [hk']
    exact Nat.succ.inj hone
  · have hk := hother k' hk'
    rwa [hcount, if_neg hk', Nat.add_zero] at hk

/-- A receipt that comes first is lost. -/
theorem receipt_first_lost :
    ¬ (s.onmessageAll (surrounded before mid after (ackAndReceipt false c i))).OneRead i := by
  intro h
  obtain ⟨hzero, hread⟩ := oneRead_surrounded hne hc hbefore hmid hafter h
  have hdelivered := shown_receipt_first hc hbefore hmid hafter hzero
  have hcount := entries_surrounded hne hc hbefore hmid hafter false k
  rw [if_pos rfl] at hcount
  obtain ⟨m, hm, hid⟩ := ChatStore.entries_pos.mp (Nat.lt_of_lt_of_eq (Nat.succ_pos _) hcount.symm)
  cases (hread m hm hid).symm.trans (hdelivered m hm hid)

/-- **THE RECEIPT SURVIVES EXACTLY IF THE ACK COMES FIRST**, and the server's id was not
    in the store. -/
theorem read_receipt_iff (sentFirst : Bool) :
    (s.onmessageAll (surrounded before mid after (ackAndReceipt sentFirst c i))).OneRead i ↔
      sentFirst = true ∧ ∀ k', s.entries k' i = 0 := by
  constructor
  · intro h
    refine ⟨?_, (oneRead_surrounded hne hc hbefore hmid hafter h).1⟩
    cases sentFirst with
    | true => rfl
    | false => exact absurd h (receipt_first_lost hne hc hbefore hmid hafter)
  · rintro ⟨rfl, hzero⟩
    have hcount := entries_surrounded hne hc hbefore hmid hafter true
    refine ⟨k, ⟨?_, fun k' hk' => ?_⟩, shown_ack_first hne hc hbefore hmid hafter hzero⟩
    · rw [hcount, hzero, if_pos rfl]
    · rw [hcount, hzero, if_neg hk']

end

/-- Alice's client, with the message `c1` to bob on its way. -/
def optimistic : ChatStore :=
  ChatStore.initial.addDMMessage "bob"
    ⟨"c1", "alice", "alice", "hello", "2026-04-07T10:00:00Z", .sent, true⟩

theorem entries_optimistic (k i : String) :
    optimistic.entries k i = if k = "bob" ∧ "c1" = i then 1 else 0 := by
  rw [optimistic, ChatStore.entries_addDMMessage]
  exact Nat.zero_add _

theorem entries_optimistic_unknown (k : String) : optimistic.entries k "m1" = 0 := by
  rw [entries_optimistic, if_neg fun h => absurd h.2 (by decide)]

theorem oneEntry_optimistic : optimistic.OneEntry "bob" "c1" := by
  refine ⟨by rw [entries_optimistic, if_pos ⟨rfl, rfl⟩], fun k hk => ?_⟩
  rw [entries_optimistic, if_neg fun h => hk h.1]

/-- A message of carol's comes between the two frames. -/
def carolsHello : Incoming := .message "carol" "carol" "hi" "m7" "2026-04-07T10:00:01Z"

theorem carolsHello_apart : ∀ f ∈ [carolsHello], f.Apart "c1" ∧ f.Apart "m1" := by
  intro f hf
  rw [List.mem_singleton.mp hf]
  refine ⟨⟨?_, ?_⟩, ?_, ?_⟩ <;> intro h
  · exact absurd (show "m7" = "c1" from h) (by decide)
  · cases h
  · exact absurd (show "m7" = "m1" from h) (by decide)
  · cases h

/-- The ack, carol's message, the receipt. -/
theorem read_receipt_ack_first : (optimistic.onmessageAll
    (surrounded [] [carolsHello] [] (ackAndReceipt true "c1" "m1"))).OneRead "m1" :=
  (read_receipt_iff (by decide) oneEntry_optimistic (by simp) carolsHello_apart (by simp)
    true).mpr ⟨rfl, entries_optimistic_unknown⟩

/-- The receipt before the ack is lost. -/
theorem receipt_before_ack_lost : ¬ ∀ (s : ChatStore) (k c i : String)
    (before mid after : List Incoming) (sentFirst : Bool), c ≠ i → s.OneEntry k c →
    (∀ k', s.entries k' i = 0) → (∀ f ∈ before, f.Apart c ∧ f.Apart i) →
    (∀ f ∈ mid, f.Apart c ∧ f.Apart i) → (∀ f ∈ after, f.Apart c ∧ f.Apart i) →
    (s.onmessageAll (surrounded before mid after (ackAndReceipt sentFirst c i))).OneRead i := by
  intro hall
  refine receipt_first_lost (by decide) oneEntry_optimistic ?_ ?_ ?_
    (hall optimistic "bob" "c1" "m1" [] [carolsHello] [] false (by decide) oneEntry_optimistic
      entries_optimistic_unknown (by simp) carolsHello_apart (by simp))
  · simp
  · exact carolsHello_apart
  · simp

end PeerWeb
