import PeerChat.StoreProofs
import PeerChat.TransitionProofs
import PeerChat.ThreadPoolProofs

/-! # Concurrent calls of `FindOrCreateChat`

    A call looks for a chat of its two users and, when there is none, creates one
    in a transaction of its own.  The schema knows no pairs, so nothing but the
    lookup keeps a pair from having two chats: two calls that both find nothing
    both create one. -/

namespace PeerChatPair

open PeerEnv KeyedTable PeerStore Transition ThreadPool

/-- Where a call of `FindOrCreateChat` stands. -/
inductive Lookup where
  | find (userA userB : UUID)
  | create (userA userB : UUID)
  | returned (userA userB chatID : UUID)
  | failed (userA userB : UUID)
  deriving DecidableEq

/-- One step of a call: the lookup on committed data, or the whole transaction at
    its commit, which nobody sees before. -/
def stepLookup (db : Db) (env : Env) : Lookup → Option (Db × Lookup)
  | .find userA userB =>
      match db.findChat env userA userB with
      | .ok chatID => some (db, .returned userA userB chatID)
      | .error .noRows => some (db, .create userA userB)
      | .error _ => some (db, .failed userA userB)
  | .create userA userB =>
      match db.createChat env userA userB with
      | .ok db => some (db, .returned userA userB env.newChat)
      | .error _ => some (db, .failed userA userB)
  | .returned _ _ _ => none
  | .failed _ _ => none

/-- The store and the calls, those that have returned included. -/
structure State where
  db : Db
  calls : List Lookup

def start (db : Db) : State := ⟨db, []⟩

inductive Act where
  | call (userA userB : UUID)
  | run (i : Nat) (env : Env)

def step (s : State) : Act → Option State
  | .call userA userB => some { s with calls := s.calls ++ [.find userA userB] }
  | .run i env =>
      match s.calls[i]? with
      | none => none
      | some l =>
          match stepLookup s.db env l with
          | none => none
          | some (db, l') => some ⟨db, moved s.calls i l' []⟩

/-- What a call of `FindOrCreateChat` has come to. -/
def outcome (userA userB : UUID) : Except DbError UUID → Lookup
  | .ok chatID => .returned userA userB chatID
  | .error _ => .failed userA userB

/-- **A CALL THAT NOBODY INTERRUPTS IS `FindOrCreateChat`.** -/
theorem running_alone (db : Db) (env : Env) (userA userB : UUID) :
    Runs (fun s => stepLookup s.1 env s.2) (db, .find userA userB)
      ((db.findOrCreateChat env userA userB).1,
        outcome userA userB (db.findOrCreateChat env userA userB).2) := by
  rw [Db.findOrCreateChat]
  cases hf : db.findChat env userA userB with
  | ok chatID =>
      exact Runs.step (by simp only [stepLookup, hf]; rfl) (Runs.refl _)
  | error e =>
      cases e with
      | noRows =>
          refine Runs.step (show stepLookup db env (.find userA userB)
            = some (db, .create userA userB) by simp only [stepLookup, hf]) ?_
          cases hc : db.createChat env userA userB with
          | ok db' => exact Runs.step (by simp only [stepLookup, hc]; rfl) (Runs.refl _)
          | error e => exact Runs.step (by simp only [stepLookup, hc]; rfl) (Runs.refl _)
      | _ => exact Runs.step (by simp only [stepLookup, hf]; rfl) (Runs.refl _)

/-- Are `c` and `d`, in either order, `a` and `b`? -/
def samePair (a b c d : UUID) : Prop := (c = a ∧ d = b) ∨ (c = b ∧ d = a)

instance (a b c d : UUID) : Decidable (samePair a b c d) :=
  inferInstanceAs (Decidable (_ ∨ _))

/-- Both users are members of the chat. -/
def Both (db : Db) (chat a b : UUID) : Prop := db.Member chat a ∧ db.Member chat b

instance (db : Db) (chat a b : UUID) : Decidable (Both db chat a b) :=
  inferInstanceAs (Decidable (_ ∧ _))

/-- What a call for the pair has returned. -/
def Lookup.result (a b : UUID) : Lookup → Option UUID
  | .returned userA userB chatID => if samePair a b userA userB then some chatID else none
  | _ => none

/-- Is the call between its lookup for the pair and its transaction? -/
def Lookup.creating (a b : UUID) : Lookup → Bool
  | .create userA userB => samePair a b userA userB
  | _ => false

/-- How many calls stand there. -/
def creators (a b : UUID) (calls : List Lookup) : Nat :=
  total (fun l => if l.creating a b then 1 else 0) calls

/-- **ONE CHAT FOR THE PAIR**: at most one committed chat has both, and it is what
    every call for them has returned. -/
structure OneChat (s : State) (a b : UUID) : Prop where
  unique : ∀ c c', Both s.db c a b → Both s.db c' a b → c = c'
  returned : ∀ l ∈ s.calls, ∀ c, l.result a b = some c → Both s.db c a b

/-- Every statement of the creation transaction succeeds. -/
def Commits (env : Env) : Prop :=
  env.ok .beginTx = true ∧ env.ok .insertChat = true ∧ env.ok .insertMembers = true ∧
    env.ok .commit = true

instance (env : Env) : Decidable (Commits env) := inferInstanceAs (Decidable (_ ∧ _))

/-- The condition on a step: a transaction for the pair commits only while no other
    call for the pair stands between its lookup and its own. -/
def CreatesAlone (a b : UUID) (s : State) : Act → Prop
  | .run i env => Commits env →
      ∀ l ∈ s.calls[i]?, l.creating a b = true → creators a b s.calls ≤ 1
  | .call _ _ => True

instance (a b : UUID) (s : State) : (act : Act) → Decidable (CreatesAlone a b s act)
  | .run i _ =>
      inferInstanceAs (Decidable
        (_ → ∀ l ∈ s.calls[i]?, l.creating a b = true → creators a b s.calls ≤ 1))
  | .call _ _ => isTrue trivial

/-! ## The step -/

/-- **One step of a call, case by case.** -/
inductive LookupStep (db : Db) (env : Env) : Lookup → Db → Lookup → Prop where
  | found (a b c : UUID) (hc : Both db c a b) :
      LookupStep db env (.find a b) db (.returned a b c)
  | missing (a b : UUID) (hnone : ∀ c, ¬ Both db c a b) :
      LookupStep db env (.find a b) db (.create a b)
  | created (a b : UUID) (db' : Db) (h : db.createChat env a b = .ok db') :
      LookupStep db env (.create a b) db' (.returned a b env.newChat)
  | failed (l : Lookup) (a b : UUID) : LookupStep db env l db (.failed a b)

theorem lookupStep_of_stepLookup {db db' : Db} {env : Env} {l l' : Lookup}
    (h : stepLookup db env l = some (db', l')) : LookupStep db env l db' l' := by
  cases l with
  | find a b =>
      simp only [stepLookup] at h
      split at h
      · rename_i c hf
        cases h
        exact .found a b c (findChat_ok hf)
      · rename_i hf
        cases h
        exact .missing a b (findChat_noRows hf)
      · cases h
        exact .failed _ a b
  | create a b =>
      simp only [stepLookup] at h
      split at h
      · rename_i hc
        cases h
        exact .created a b _ hc
      · cases h
        exact .failed _ a b
  | returned a b c => cases h
  | failed a b => cases h

inductive Stepped (s : State) : Act → State → Prop where
  | call (a b : UUID) : Stepped s (.call a b) { s with calls := s.calls ++ [.find a b] }
  | run (i : Nat) (env : Env) (l : Lookup) (db : Db) (l' : Lookup)
      (hi : s.calls[i]? = some l) (hl : LookupStep s.db env l db l') :
      Stepped s (.run i env) ⟨db, moved s.calls i l' []⟩

/-- **WHAT A STEP DOES**, action by action. -/
theorem step_cases {s t : State} {a : Act} (h : step s a = some t) : Stepped s a t := by
  cases a with
  | call a b =>
      cases h
      exact .call a b
  | run i env =>
      simp only [step] at h
      split at h
      · cases h
      · rename_i l hi
        split at h
        · cases h
        · rename_i db l' hl
          cases h
          exact .run i env l db l' hi (lookupStep_of_stepLookup hl)

/-- Members stay members. -/
theorem both_of_step {db db' : Db} {env : Env} {l l' : Lookup} (h : LookupStep db env l db' l')
    {c a b : UUID} (hc : Both db c a b) : Both db' c a b := by
  cases h with
  | created x y db' hcr =>
      have hmembers := (createChat_ok hcr).members
      exact ⟨(hmembers c a).mpr (Or.inl hc.1), (hmembers c b).mpr (Or.inl hc.2)⟩
  | _ => exact hc

/-- A new chat has its own two users, and nobody else. -/
theorem both_of_created {db db' : Db} {chat x y : UUID} (h : ChatCreated db db' chat x y)
    {c a b : UUID} (hne : a ≠ b) (hc : Both db' c a b) :
    Both db c a b ∨ (c = chat ∧ samePair a b x y) := by
  obtain ⟨ha, hb⟩ := hc
  rcases (h.members c a).mp ha with hola | ⟨hca, hax⟩
  · rcases (h.members c b).mp hb with holb | ⟨hcb, -⟩
    · exact Or.inl ⟨hola, holb⟩
    · exact absurd (hcb ▸ hola) (h.fresh a)
  · rcases (h.members c b).mp hb with holb | ⟨-, hbx⟩
    · exact absurd (hca ▸ holb) (h.fresh b)
    · refine Or.inr ⟨hca, ?_⟩
      rcases hax with rfl | rfl
      · rcases hbx with rfl | rfl
        · exact absurd rfl hne
        · exact Or.inl ⟨rfl, rfl⟩
      · rcases hbx with rfl | rfl
        · exact Or.inr ⟨rfl, rfl⟩
        · exact absurd rfl hne

/-! ## The invariant -/

/-- A call about to create a chat for the pair is right: the pair has none. -/
structure Paired (a b : UUID) (s : State) : Prop extends OneChat s a b where
  creating : ∀ l ∈ s.calls, l.creating a b = true → ∀ c, ¬ Both s.db c a b

/-- A chat of both is one of both in either order. -/
theorem both_swap {db : Db} {c a b x y : UUID} (hp : samePair a b x y) (h : Both db c x y) :
    Both db c a b := by
  rcases hp with ⟨rfl, rfl⟩ | ⟨rfl, rfl⟩
  · exact h
  · exact ⟨h.2, h.1⟩

theorem samePair_symm {a b x y : UUID} (h : samePair a b x y) : samePair x y a b := by
  rcases h with ⟨rfl, rfl⟩ | ⟨rfl, rfl⟩
  · exact Or.inl ⟨rfl, rfl⟩
  · exact Or.inr ⟨rfl, rfl⟩

/-- When the only creator of the pair has moved on, nobody creates for it any more. -/
theorem creators_moved {calls : List Lookup} {i : Nat} {l l' : Lookup} {a b : UUID}
    (hi : calls[i]? = some l) (hl : l.creating a b = true) (hl' : l'.creating a b = false)
    (hone : creators a b calls ≤ 1) : ∀ u ∈ moved calls i l' [], u.creating a b = false := by
  intro u hu
  have htotal : creators a b (moved calls i l' []) + (if l.creating a b then 1 else 0)
      = creators a b calls + (if l'.creating a b then 1 else 0) + total _ [] :=
    total_moved _ hi
  simp only [hl, hl', if_true, Bool.false_eq_true, if_false, total_nil] at htotal
  have hle : (if u.creating a b then 1 else 0) ≤ creators a b (moved calls i l' []) :=
    le_total (fun l : Lookup => if l.creating a b then 1 else 0) hu
  cases hcu : u.creating a b with
  | false => rfl
  | true =>
      rw [hcu, if_pos rfl] at hle
      omega

/-- What the calls returned still stands after the step of one of them, if what that
    one returned does. -/
theorem returned_moved {s : State} {i : Nat} {env : Env} {l l' : Lookup} {db : Db} {a b : UUID}
    (hp : OneChat s a b) (h : LookupStep s.db env l db l')
    (hl' : ∀ c, l'.result a b = some c → Both db c a b) :
    ∀ u ∈ moved s.calls i l' [], ∀ c, u.result a b = some c → Both db c a b := by
  intro u hu c hc
  rcases mem_moved hu with hold | rfl | hin
  · exact both_of_step h (hp.returned u hold c hc)
  · exact hl' c hc
  · cases hin

/-- The result of a call for a pair is about that pair. -/
theorem both_of_result {db : Db} {x y chat a b c : UUID} (hchat : Both db chat x y)
    (hc : (Lookup.returned x y chat).result a b = some c) : Both db c a b := by
  simp only [Lookup.result] at hc
  split at hc
  · rename_i hpair
    rw [← Option.some.inj hc]
    exact both_swap hpair hchat
  · cases hc

/-- The calls that still create, when the store has not changed. -/
theorem creating_moved {s : State} {i : Nat} {l' : Lookup} {a b : UUID} (hp : Paired a b s)
    (hl' : l'.creating a b = true → ∀ c, ¬ Both s.db c a b) :
    ∀ u ∈ moved s.calls i l' [], u.creating a b = true → ∀ c, ¬ Both s.db c a b := by
  intro u hu hcu
  rcases mem_moved hu with hold | rfl | hin
  · exact hp.creating u hold hcu
  · exact hl' hcu
  · cases hin

/-- Every step of a call keeps the pair to one chat. -/
theorem paired_run {s : State} {i : Nat} {env : Env} {l l' : Lookup} {db : Db} {a b : UUID}
    (hne : a ≠ b) (hp : Paired a b s) (hi : s.calls[i]? = some l)
    (h : LookupStep s.db env l db l')
    (hG : Commits env → l.creating a b = true → creators a b s.calls ≤ 1) :
    Paired a b ⟨db, moved s.calls i l' []⟩ := by
  have hreturned := returned_moved (i := i) hp.toOneChat h
  cases h with
  | found x y c hc =>
      exact ⟨⟨hp.unique, hreturned fun _ hd => both_of_result hc hd⟩,
        creating_moved hp fun hcu => (by cases hcu)⟩
  | missing x y hnone =>
      refine ⟨⟨hp.unique, hreturned fun _ hd => (by cases hd)⟩, creating_moved hp ?_⟩
      intro hcu c hc
      exact hnone c (both_swap (samePair_symm (of_decide_eq_true hcu)) hc)
  | failed l x y =>
      exact ⟨⟨hp.unique, hreturned fun _ hd => (by cases hd)⟩,
        creating_moved hp fun hcu => (by cases hcu)⟩
  | created x y db' hcr =>
      have hc := createChat_ok hcr
      have hnew : Both db env.newChat x y :=
        ⟨(hc.members _ _).mpr (Or.inr ⟨rfl, Or.inl rfl⟩),
          (hc.members _ _).mpr (Or.inr ⟨rfl, Or.inr rfl⟩)⟩
      have hself : samePair a b x y → (Lookup.create x y).creating a b = true :=
        fun hab => decide_eq_true hab
      -- a chat made for the pair is its first
      have hnone : samePair a b x y → ∀ c, ¬ Both s.db c a b :=
        fun hab => hp.creating _ (List.mem_of_getElem? hi) (hself hab)
      refine ⟨⟨?_, hreturned fun _ hd => both_of_result hnew hd⟩, ?_⟩
      · intro c c' hcb hcb'
        rcases both_of_created hc hne hcb with hold | ⟨rfl, hpair⟩
        · rcases both_of_created hc hne hcb' with hold' | ⟨-, hpair⟩
          · exact hp.unique c c' hold hold'
          · exact absurd hold (hnone hpair c)
        · rcases both_of_created hc hne hcb' with hold' | ⟨rfl, -⟩
          · exact absurd hold' (hnone hpair c')
          · rfl
      · intro u hu hcu c hcb
        rcases both_of_created hc hne hcb with hold | ⟨-, hpair⟩
        · rcases mem_moved hu with hin | rfl | hin
          · exact hp.creating u hin hcu c hold
          · cases hcu
          · cases hin
        · -- the one creator of the pair has just moved on
          have hnobody := creators_moved hi (hself hpair)
            (show (Lookup.returned x y env.newChat).creating a b = false from rfl)
            (hG (createChat_transaction hcr).up (hself hpair)) u hu
          rw [hcu] at hnobody
          cases hnobody

/-- Every step keeps the pair to one chat. -/
theorem paired_step {s t : State} {act : Act} {a b : UUID} (hne : a ≠ b) (hp : Paired a b s)
    (hG : CreatesAlone a b s act) (h : Stepped s act t) : Paired a b t := by
  cases h with
  | call x y =>
      refine ⟨⟨hp.unique, ?_⟩, ?_⟩
      · intro u hu c hc
        rcases List.mem_append.mp hu with hold | hnew
        · exact hp.returned u hold c hc
        · rw [List.mem_singleton.mp hnew] at hc
          cases hc
      · intro u hu hcu
        rcases List.mem_append.mp hu with hold | hnew
        · exact hp.creating u hold hcu
        · rw [List.mem_singleton.mp hnew] at hcu
          cases hcu
  | run i env l db l' hi hl => exact paired_run hne hp hi hl fun hok => hG hok l hi

/-- **ONE CHAT PER PAIR**, in every run in which the calls for the pair do not both find
    nothing before one of them has created the chat. -/
theorem one_chat_per_pair {db : Db} {s : State} {a b : UUID} (hne : a ≠ b)
    (hdb : ∀ c c', Both db c a b → Both db c' a b → c = c')
    (h : Reach step (CreatesAlone a b) (start db) s) : OneChat s a b := by
  have hp : Paired a b s :=
    Reach.invariant (fun _ _ _ hs hG ht => paired_step hne hs hG (step_cases ht)) h
      ⟨⟨hdb, fun _ hl => (by cases hl)⟩, fun _ hl => (by cases hl)⟩
  exact hp.toOneChat

/-- Both users call, one after the other has created the chat. -/
theorem one_chat_per_pair_in_turn :
    ∃ s, (Reach step (CreatesAlone ⟨1⟩ ⟨2⟩) (start threeUsers) s ∧
      s.calls = [.returned ⟨1⟩ ⟨2⟩ ⟨10⟩, .returned ⟨2⟩ ⟨1⟩ ⟨10⟩]) ∧ OneChat s ⟨1⟩ ⟨2⟩ := by
  obtain ⟨s, hs, hcalls⟩ := exists_reach_of_replayGuarded step (CreatesAlone ⟨1⟩ ⟨2⟩)
    (start threeUsers)
    [.call ⟨1⟩ ⟨2⟩, .run 0 (.fine ⟨10⟩ ⟨20⟩ 5), .run 0 (.fine ⟨10⟩ ⟨20⟩ 6),
      .call ⟨2⟩ ⟨1⟩, .run 1 (.fine ⟨11⟩ ⟨21⟩ 7)]
    (fun s => s.calls = [.returned ⟨1⟩ ⟨2⟩ ⟨10⟩, .returned ⟨2⟩ ⟨1⟩ ⟨10⟩]) (by decide)
  exact ⟨s, ⟨hs, hcalls⟩,
    one_chat_per_pair (by decide) (fun _ _ hc => absurd hc.1 List.not_mem_nil) hs⟩

/-- **TWO CHATS FOR ONE PAIR**: alice's and bob's calls both find nothing, then both
    create. -/
theorem first_contact_twice :
    ¬ ∀ s, Reach step anyStep (start threeUsers) s → ∀ a b, a ≠ b → OneChat s a b := by
  obtain ⟨s, hs, h10, h11⟩ := exists_reach_of_replayGuarded step (fun _ _ => True)
    (start threeUsers)
    [.call ⟨1⟩ ⟨2⟩, .call ⟨2⟩ ⟨1⟩, .run 0 (.fine ⟨10⟩ ⟨20⟩ 5), .run 1 (.fine ⟨11⟩ ⟨21⟩ 5),
      .run 0 (.fine ⟨10⟩ ⟨20⟩ 6), .run 1 (.fine ⟨11⟩ ⟨21⟩ 6)]
    (fun s => Both s.db ⟨10⟩ ⟨1⟩ ⟨2⟩ ∧ Both s.db ⟨11⟩ ⟨1⟩ ⟨2⟩) (by decide)
  intro hall
  have heq := (hall s hs ⟨1⟩ ⟨2⟩ (by decide)).unique _ _ h10 h11
  cases heq

end PeerChatPair
