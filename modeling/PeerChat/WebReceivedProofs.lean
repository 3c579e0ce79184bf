import PeerChat.WebFrameProofs

/-! # One entry for a message received

    A message of a partner reaches its conversation as a 'message' frame, which is
    appended whatever is there, and in histories, which are merged by id.  A frame
    that follows the history, or a second frame, makes a second entry. -/

namespace PeerWeb

/-- What comes in for the conversations: a frame, or a history that is merged. -/
inductive Arrival where
  | frame (f : Incoming)
  | history (partnerId : String) (msgs : List Message)

/-- Handle one arrival. -/
def ChatStore.arrive (getTime : String → Option Int) (s : ChatStore) : Arrival → ChatStore
  | .frame f => s.onmessage f
  | .history partnerId msgs => s.setDMHistory getTime partnerId msgs

def ChatStore.arriveAll (getTime : String → Option Int) (s : ChatStore)
    (as : List Arrival) : ChatStore :=
  as.foldl (ChatStore.arrive getTime) s

/-- The 'message' frame of the message `i` of partner `p`. -/
def Arrival.pushes (p i : String) : Arrival → Bool
  | .frame (.message fromID _ _ messageID _) => p = fromID && messageID = i
  | _ => false

/-- A history of the conversation that has it. -/
def Arrival.lists (p i : String) : Arrival → Bool
  | .history partnerId msgs => p = partnerId && i ∈ msgs.map Message.id
  | _ => false

/-- What the server keeps to for a message `i` of someone else: no 'sent' frame names
    it, and a history has distinct ids. -/
def Arrival.Regular (i : String) : Arrival → Prop
  | .frame (.sent id messageID) => id ≠ i ∧ messageID ≠ i
  | .frame _ => True
  | .history _ msgs => (msgs.map Message.id).Nodup

/-- Nothing is pushed after some history that has the message; without such a
    history, the `n` entries there were and the frames are one. -/
def PushedOnce (p i : String) (n : Nat) (as : List Arrival) : Prop :=
  (∃ before h after, as = before ++ h :: after ∧ h.lists p i = true ∧
    ∀ a ∈ after, a.pushes p i = false) ∨
  (∀ a ∈ as, a.lists p i = false) ∧ n + as.countP (Arrival.pushes p i) = 1

variable {getTime : String → Option Int} {p i : String}

/-- **ONE ARRIVAL**: a history sets the count to one, a frame adds one. -/
theorem entries_arrive (s : ChatStore) {a : Arrival} (ha : a.Regular i) :
    (s.arrive getTime a).entries p i =
      if a.lists p i then 1 else s.entries p i + if a.pushes p i then 1 else 0 := by
  cases a with
  | history partnerId msgs =>
      rw [ChatStore.arrive, ChatStore.entries_setDMHistory getTime s partnerId ha]
      simp [Arrival.lists, Arrival.pushes]
  | frame f =>
      have hlists : (Arrival.frame f).lists p i = false := rfl
      rw [ChatStore.arrive, hlists, if_neg Bool.false_ne_true]
      by_cases hname : f.Names i
      · cases f with
        | message fromID sender body messageID timestamp =>
            rw [ChatStore.onmessage, ChatStore.entries_addDMMessage]
            simp [Arrival.pushes]
        | sent id messageID =>
            rcases hname with heq | heq
            · exact absurd heq ha.1
            · exact absurd heq ha.2
        | read | groupMessage | presence | typing | ignored => exact hname.elim
      · rw [entries_onmessage_ne s hname]
        have hpush : (Arrival.frame f).pushes p i = false := by
          cases f with
          | message fromID sender body messageID timestamp =>
              have hid : messageID ≠ i := hname
              simp [Arrival.pushes, hid]
          | sent | read | groupMessage | presence | typing | ignored => rfl
        rw [hpush, if_neg Bool.false_ne_true, Nat.add_zero]

/-! ## Any number of arrivals -/

theorem pushedOnce_nil (n : Nat) : PushedOnce p i n [] ↔ n = 1 := by
  constructor
  · rintro (⟨before, h, after, heq, -⟩ | ⟨-, hn⟩)
    · exact absurd heq (by simp)
    · simpa using hn
  · intro hn
    exact Or.inr ⟨fun a ha => absurd ha List.not_mem_nil, by simpa using hn⟩

/-- After a history that has the message there is one entry to start from. -/
theorem pushedOnce_cons_lists {a : Arrival} (ha : a.lists p i = true) (n : Nat)
    (as : List Arrival) : PushedOnce p i n (a :: as) ↔ PushedOnce p i 1 as := by
  constructor
  · rintro (⟨before, h, after, heq, hlists, hafter⟩ | ⟨hnone, -⟩)
    · cases before with
      | nil =>
          obtain ⟨-, rfl⟩ := List.cons.inj heq
          by_cases hany : ∃ b ∈ as, b.lists p i = true
          · obtain ⟨b, hb, hbl⟩ := hany
            obtain ⟨l, r, rfl⟩ := List.append_of_mem hb
            exact Or.inl ⟨l, b, r, rfl, hbl, fun c hc =>
              hafter c (List.mem_append_right _ (List.mem_cons_of_mem _ hc))⟩
          · refine Or.inr ⟨fun b hb => ?_, ?_⟩
            · exact Bool.eq_false_iff.mpr fun hbl => hany ⟨b, hb, hbl⟩
            · rw [List.countP_eq_zero.mpr fun b hb => by simp [hafter b hb]]
      | cons b before =>
          obtain ⟨-, rfl⟩ := List.cons.inj heq
          exact Or.inl ⟨before, h, after, rfl, hlists, hafter⟩
    · exact absurd (ha.symm.trans (hnone a List.mem_cons_self)) (by decide)
  · rintro (⟨before, h, after, rfl, hlists, hafter⟩ | ⟨-, hone⟩)
    · exact Or.inl ⟨a :: before, h, after, rfl, hlists, hafter⟩
    · have hzero : as.countP (Arrival.pushes p i) = 0 := by omega
      refine Or.inl ⟨[], a, as, rfl, ha, fun b hb => ?_⟩
      exact Bool.eq_false_iff.mpr (List.countP_eq_zero.mp hzero b hb)

/-- Before the first such history every frame counts. -/
theorem pushedOnce_cons {a : Arrival} (ha : a.lists p i = false) (n : Nat)
    (as : List Arrival) :
    PushedOnce p i n (a :: as) ↔ PushedOnce p i (n + if a.pushes p i then 1 else 0) as := by
  constructor
  · rintro (⟨before, h, after, heq, hlists, hafter⟩ | ⟨hnone, hone⟩)
    · cases before with
      | nil =>
          obtain ⟨rfl, -⟩ := List.cons.inj heq
          exact absurd (ha.symm.trans hlists) (by decide)
      | cons b before =>
          obtain ⟨-, rfl⟩ := List.cons.inj heq
          exact Or.inl ⟨before, h, after, rfl, hlists, hafter⟩
    · refine Or.inr ⟨fun b hb => hnone b (List.mem_cons_of_mem _ hb), ?_⟩
      rw [List.countP_cons] at hone
      omega
  · rintro (⟨before, h, after, rfl, hlists, hafter⟩ | ⟨hnone, hone⟩)
    · exact Or.inl ⟨a :: before, h, after, rfl, hlists, hafter⟩
    · refine Or.inr ⟨?_, ?_⟩
      · intro b hb
        rcases List.mem_cons.mp hb with rfl | hb
        · exact ha
        · exact hnone b hb
      · rw [List.countP_cons]
        omega

/-- **ONE ENTRY, AS LONG AS NOTHING IS PUSHED AGAIN.** -/
theorem received_once_iff (s : ChatStore) (as : List Arrival) (has : ∀ a ∈ as, a.Regular i) :
    (s.arriveAll getTime as).entries p i = 1 ↔ PushedOnce p i (s.entries p i) as := by
  induction as generalizing s with
  | nil => exact (pushedOnce_nil _).symm
  | cons a as ih =>
      have hrest := ih (s.arrive getTime a) fun b hb => has b (List.mem_cons_of_mem _ hb)
      have hfold : s.arriveAll getTime (a :: as) = (s.arrive getTime a).arriveAll getTime as := rfl
      rw [hfold, hrest, entries_arrive s (has a List.mem_cons_self)]
      cases ha : a.lists p i with
      | true => exact (pushedOnce_cons_lists ha _ as).symm
      | false => exact (pushedOnce_cons ha _ as).symm

/-- Bob's message `m1`, pushed to alice's client. -/
def bobsHello : Arrival := .frame (.message "bob" "bob" "hello" "m1" "2026-04-07T10:00:00Z")

/-- The history of the conversation, after it was stored. -/
def bobsHistory : Arrival :=
  .history "bob" [⟨"m1", "bob", "bob", "hello", "2026-04-07T10:00:00Z", .delivered, false⟩]

/-- Pushed, and listed after that: one entry. -/
theorem received_once_listed :
    (ChatStore.initial.arriveAll sampleTime [bobsHello, bobsHistory]).entries "bob" "m1" = 1 := by
  refine (received_once_iff _ _ ?_).mpr ?_
  · intro a ha
    simp only [List.mem_cons, List.not_mem_nil, or_false] at ha
    rcases ha with rfl | rfl
    · exact trivial
    · exact List.nodup_singleton _
  · exact Or.inl ⟨[bobsHello], bobsHistory, [], rfl, by decide, fun a ha => by cases ha⟩

/-- Pushed again on reconnect, the message is there twice. -/
theorem pushed_twice_two_entries : ¬ ∀ (s : ChatStore) (p i : String) (as : List Arrival),
    (∀ a ∈ as, a.Regular i) → (∃ a ∈ as, a.pushes p i = true ∨ a.lists p i = true) →
    (s.arriveAll sampleTime as).entries p i = 1 := by
  intro hall
  have htwo := hall ChatStore.initial "bob" "m1" [bobsHello, bobsHello]
    (by
      intro a ha
      rw [List.mem_pair, or_self] at ha
      rw [ha]
      exact trivial)
    ⟨bobsHello, List.mem_cons_self, Or.inl (by decide)⟩
  revert htwo
  decide

end PeerWeb
