import PeerChat.TransitionProofs
import PeerChat.ThreadPoolProofs
import PeerChat.HubProofs

/-! # Runs of the hub — registrations, disconnects and sends in any order

    The hub under any number of concurrent callers.  `Register` and
    `Unregister` are one critical section each; a `Send` is a job that takes
    the steps of `stepSend` one at a time, with anything in between.

    Two histories ride along: the clients in the order they were registered,
    newest first, and those an `Unregister` has been run on. -/

namespace HubRun

open PeerEnv BufferedChan PeerHub Transition ThreadPool

/-- A `Send(toID, data)` call and where it stands. -/
structure Job (β : Type) where
  toID : UUID
  data : β
  next : SendNext

/-- The hub, the `Send` calls made so far, and the two histories. -/
structure Run (β : Type) where
  hub : Hub β
  jobs : List (Job β)
  registered : List ClientId
  unregistered : List ClientId

inductive Act (β : Type) where
  | register (c : ClientId)
  | unregister (c : ClientId)
  | call (toID : UUID) (data : β)
  | run (i : Nat)

variable {β : Type}

/-- The empty hub; `who` says whose client every `*Client` will be. -/
def start (who : ClientId → UUID × String) : Run β :=
  ⟨newHub (fun c => newRealClient (who c).1 (who c).2), [], [], []⟩

/-- Job `i` has taken its step `pc`; an eviction is an `Unregister` too. -/
def afterSend (s : Run β) (i : Nat) (j : Job β) (pc : SendPc) (h : Hub β)
    (next : SendNext) : Run β where
  hub := h
  jobs := moved s.jobs i { j with next := next } []
  registered := s.registered
  unregistered := match pc with
    | .evict c => c :: s.unregistered
    | _ => s.unregistered

/-- One atomic step; after a panic the process is gone. -/
def step (s : Run β) (a : Act β) : Option (Run β) :=
  if s.hub.panic.isSome then none
  else match a with
    | .register c => some { s with
        hub := s.hub.register c, registered := c :: s.registered }
    | .unregister c => some { s with
        hub := s.hub.unregister c, unregistered := c :: s.unregistered }
    | .call toID data => some { s with jobs := s.jobs ++ [⟨toID, data, .goto .lookup⟩] }
    | .run i => match s.jobs[i]? with
      | some j => match j.next with
        | .goto pc =>
            let (h, next) := stepSend s.hub j.toID j.data pc
            some (afterSend s i j pc h next)
        | .returned _ => none
      | none => none

/-- **The step, case by case.** -/
inductive Stepped (s : Run β) : Act β → Run β → Prop where
  | register (c : ClientId) : Stepped s (.register c) { s with
      hub := s.hub.register c, registered := c :: s.registered }
  | unregister (c : ClientId) : Stepped s (.unregister c) { s with
      hub := s.hub.unregister c, unregistered := c :: s.unregistered }
  | call (toID : UUID) (data : β) : Stepped s (.call toID data)
      { s with jobs := s.jobs ++ [⟨toID, data, .goto .lookup⟩] }
  | run (i : Nat) (j : Job β) (pc : SendPc) (h : Hub β) (next : SendNext)
      (hi : s.jobs[i]? = some j) (hpc : j.next = .goto pc)
      (hsend : SendStep s.hub j.toID j.data pc h next) :
      Stepped s (.run i) (afterSend s i j pc h next)

theorem step_cases {s t : Run β} {a : Act β} (h : step s a = some t) : Stepped s a t := by
  simp only [step] at h
  split at h
  · cases h
  · cases a with
    | register c =>
        rw [← Option.some.inj h]
        exact .register c
    | unregister c =>
        rw [← Option.some.inj h]
        exact .unregister c
    | call toID data =>
        rw [← Option.some.inj h]
        exact .call toID data
    | run i =>
        cases hi : s.jobs[i]? with
        | none =>
            simp only [hi] at h
            cases h
        | some j =>
            cases hn : j.next with
            | returned ok =>
                simp only [hi, hn] at h
                cases h
            | goto pc =>
                simp only [hi, hn] at h
                rw [← Option.some.inj h]
                exact .run i j pc _ _ hi hn (stepSend_sendStep ..)

/-- A client belongs to one user for good. -/
theorem Stepped.userOf {s t : Run β} {a : Act β} (h : Stepped s a t) (c : ClientId) :
    t.hub.userOf c = s.hub.userOf c := by
  cases h with
  | register d => rfl
  | unregister d => exact unregister_userOf s.hub d c
  | call _ _ => rfl
  | run i j pc h next _ _ hsend => exact hsend.userOf c

/-! ## Sending on a closed channel -/

/-- Every client the map holds, and every client a `Send` is about to send
    to, has an open channel. -/
structure Open (s : Run β) : Prop where
  held : ∀ u c, s.hub.clients u = some c → (s.hub.chan c).closed = false
  selected : ∀ j ∈ s.jobs, ∀ c, j.next = .goto (.select c) → (s.hub.chan c).closed = false

/-- The process has not died of a send on a closed channel. -/
def NoSendOnClosed (s : Run β) : Prop := s.hub.panic ≠ some .sendOnClosed

/-- The client an action takes out of the map, closing its channel. -/
def removes (s : Run β) : Act β → Option ClientId
  | .unregister c => if s.hub.holds c then some c else none
  | .run i => match s.jobs[i]? with
    | some j => match j.next with
      | .goto (.evict c) => if s.hub.holds c then some c else none
      | _ => none
    | none => none
  | _ => none

/-- Only open clients are registered, and a client is taken out of the map only
    when no `Send` stands between its lookup and its send on that client. -/
def ClosesUnselected (s : Run β) (a : Act β) : Prop :=
  (match a with
    | .register c => (s.hub.chan c).closed = false
    | _ => True) ∧
  ∀ c ∈ removes s a, ∀ j ∈ s.jobs, j.next ≠ .goto (.select c)

instance (s : Run β) (a : Act β) : Decidable (ClosesUnselected s a) :=
  match a with
  | .register _ => inferInstanceAs (Decidable (_ = false ∧ ∀ d ∈ _, ∀ j ∈ s.jobs, _))
  | .unregister _ | .call _ _ | .run _ =>
      inferInstanceAs (Decidable (True ∧ ∀ d ∈ _, ∀ j ∈ s.jobs, _))

theorem start_open (who : ClientId → UUID × String) : Open (start who : Run β) where
  held := by intro u c h; cases h
  selected := by intro j hj; cases hj

/-- An `Unregister` closes nothing that is still in use, when nobody is about
    to send to the client it removes. -/
theorem open_of_unregister {s : Run β} (c : ClientId) (jobs : List (Job β))
    (ho : Open s) (hsub : ∀ j ∈ jobs, ∀ d, j.next = .goto (.select d) →
      (s.hub.chan d).closed = false ∧ (s.hub.holds c → d ≠ c)) :
    (∀ u d, (s.hub.unregister c).clients u = some d →
        ((s.hub.unregister c).chan d).closed = false) ∧
      ∀ j ∈ jobs, ∀ d, j.next = .goto (.select d) →
        ((s.hub.unregister c).chan d).closed = false := by
  refine ⟨?_, ?_⟩
  · intro u d hd
    obtain ⟨hold, hne⟩ := clients_of_unregister hd
    rw [unregister_chan_ne s.hub hne]
    exact ho.held u d hold
  · intro j hj d hd
    obtain ⟨hopen, hne⟩ := hsub j hj d hd
    by_cases hc : s.hub.holds c
    · rw [unregister_chan_ne s.hub (hne hc)]
      exact hopen
    · rw [unregister_of_not_holds hc]
      exact hopen

/-- A guarded step keeps the channels in use open. -/
theorem open_step {s t : Run β} {a : Act β} (ho : Open s) (hG : ClosesUnselected s a)
    (h : Stepped s a t) : Open t := by
  cases h with
  | register c =>
      refine ⟨?_, ho.selected⟩
      intro u d hd
      by_cases hu : u = s.hub.userOf c
      · rw [hu, register_clients_self] at hd
        rw [register_chan, ← Option.some.inj hd]
        exact hG.1
      · rw [register_clients_ne s.hub hu] at hd
        exact ho.held u d hd
  | unregister c =>
      obtain ⟨h1, h2⟩ := open_of_unregister c s.jobs ho (by
        intro j hj d hd
        refine ⟨ho.selected j hj d hd, ?_⟩
        rintro hc rfl
        exact hG.2 d (if_pos hc) j hj hd)
      exact ⟨h1, h2⟩
  | call toID data =>
      refine ⟨ho.held, ?_⟩
      intro j hj c hc
      rcases List.mem_append.mp hj with hold | hnew
      · exact ho.selected j hold c hc
      · rw [List.mem_singleton.mp hnew] at hc
        cases hc
  | run i j pc h next hi hpc hsend =>
      have hj : j ∈ s.jobs := List.mem_of_getElem? hi
      -- a job that moved to something other than a `select` adds nothing to check
      have hrest : (∀ c, next ≠ .goto (.select c)) →
          ∀ j' ∈ moved s.jobs i { j with next := next } [], ∀ d,
            j'.next = .goto (.select d) → j' ∈ s.jobs := by
        intro hnext j' hj' d hd
        rcases mem_moved hj' with hold | rfl | hnew
        · exact hold
        · exact absurd hd (hnext d)
        · cases hnew
      cases hsend with
      | offline hno =>
          refine ⟨ho.held, ?_⟩
          intro j' hj' d hd
          exact ho.selected j' (hrest (fun c hc => by cases hc) j' hj' d hd) d hd
      | found c hc =>
          refine ⟨ho.held, ?_⟩
          intro j' hj' d hd
          rcases mem_moved hj' with hold | rfl | hnew
          · exact ho.selected j' hold d hd
          · simp only [SendNext.goto.injEq, SendPc.select.injEq] at hd
            rw [← hd]
            exact ho.held _ c hc
          · cases hnew
      | sent c ch hch =>
          refine ⟨?_, ?_⟩
          · intro u d hd
            show ((s.hub.push c ch j.data).chan d).closed = false
            rw [push_closed hch]
            exact ho.held u d hd
          · intro j' hj' d hd
            show ((s.hub.push c ch j.data).chan d).closed = false
            rw [push_closed hch]
            exact ho.selected j' (hrest (fun c hc => by cases hc) j' hj' d hd) d hd
      | full c hopen hfull =>
          refine ⟨ho.held, ?_⟩
          intro j' hj' d hd
          exact ho.selected j' (hrest (fun c hc => by cases hc) j' hj' d hd) d hd
      | panic c hclosed =>
          have hopen := ho.selected j hj c hpc
          rw [hclosed] at hopen
          cases hopen
      | evict c =>
          obtain ⟨h1, h2⟩ := open_of_unregister c
            (moved s.jobs i { j with next := .returned false } []) ho (by
              intro j' hj' d hd
              have hold := hrest (fun c hc => by cases hc) j' hj' d hd
              refine ⟨ho.selected j' hold d hd, ?_⟩
              rintro hc rfl
              refine hG.2 d ?_ j' hold hd
              simp only [removes, hi, hpc]
              exact if_pos hc)
          exact ⟨h1, h2⟩

/-- In a state with open channels no step sends on a closed one. -/
theorem noSendOnClosed_step {s t : Run β} {a : Act β} (ho : Open s)
    (hp : NoSendOnClosed s) (h : Stepped s a t) : NoSendOnClosed t := by
  have hunreg : ∀ c, (s.hub.unregister c).panic ≠ some .sendOnClosed := by
    intro c
    rw [Hub.unregister]
    split
    · simp only
      split
      · intro hc
        cases hc
      · exact hp
    · exact hp
  cases h with
  | register c => exact hp
  | unregister c => exact hunreg c
  | call toID data => exact hp
  | run i j pc h next hi hpc hsend =>
      cases hsend with
      | offline hno => exact hp
      | found c hc => exact hp
      | sent c ch hch => exact hp
      | full c hopen hfull => exact hp
      | panic c hclosed =>
          have hopen := ho.selected j (List.mem_of_getElem? hi) c hpc
          rw [hclosed] at hopen
          cases hopen
      | evict c => exact hunreg c

/-- **NO SEND ON A CLOSED CHANNEL**, in every run that never takes a client out
    of the map between another caller's lookup of it and its send. -/
theorem never_sends_on_closed {who : ClientId → UUID × String} {s : Run β}
    (h : Reach step ClosesUnselected (start who) s) : NoSendOnClosed s := by
  have hboth : Open s ∧ NoSendOnClosed s := by
    refine Reach.invariant (I := fun s => Open s ∧ NoSendOnClosed s) ?_ h
      ⟨start_open who, fun hp => by cases hp⟩
    intro s a t hs hG ht
    exact ⟨open_step hs.1 hG (step_cases ht), noSendOnClosed_step hs.1 hs.2 (step_cases ht)⟩
  exact hboth.2

/-- A frame sent while its receiver stays connected, and the disconnect after. -/
theorem never_sends_on_closed_delivered : ∃ s : Run (List UInt8),
    Reach step ClosesUnselected (start oneUser) s ∧ s.hub.log = [(0, [])] ∧
      s.hub.clients ⟨1⟩ = none ∧ NoSendOnClosed s := by
  obtain ⟨s, hs, hlog, hgone⟩ := exists_reach_of_replayGuarded step ClosesUnselected
    (start oneUser) [.register 0, .call ⟨1⟩ ([] : List UInt8), .run 0, .run 0, .unregister 0]
    (fun s => s.hub.log = [(0, [])] ∧ s.hub.clients ⟨1⟩ = none) (by decide)
  exact ⟨s, hs, hlog, hgone, never_sends_on_closed hs⟩

/-- The condition leaves nothing out: once a client is taken out of the map
    under a `Send` that has looked it up, that `Send`'s next step panics. -/
theorem select_panics {s : Run β} {i : Nat} {j : Job β} {c : ClientId}
    (hc : s.hub.holds c) (hlive : (s.hub.unregister c).panic = none)
    (hi : s.jobs[i]? = some j) (hj : j.next = .goto (.select c)) :
    ∃ t, step { s with hub := s.hub.unregister c } (.run i) = some t ∧
      t.hub.panic = some .sendOnClosed := by
  have hclosed : ((s.hub.unregister c).chan c).closed = true := by
    rw [unregister_chan_self hc]
    rfl
  have hoffer := (offer_panic (x := j.data)).mpr hclosed
  refine ⟨afterSend { s with hub := s.hub.unregister c } i j (.select c)
    { s.hub.unregister c with panic := some .sendOnClosed } (.returned false), ?_, rfl⟩
  rw [step]
  simp only [hlive, hi, hj, stepSend, hoffer]
  rfl

/-! ## The callers' discipline, and whom the map holds -/

/-- How the server uses the hub: a client is registered once, when it is
    created, and unregistered only after that. -/
def Lifecycle (s : Run β) : Act β → Prop
  | .register c => c ∉ s.registered
  | .unregister c => c ∈ s.registered
  | _ => True

instance (s : Run β) (a : Act β) : Decidable (Lifecycle s a) :=
  match a with
  | .register c => inferInstanceAs (Decidable (c ∉ s.registered))
  | .unregister c => inferInstanceAs (Decidable (c ∈ s.registered))
  | .call _ _ | .run _ => isTrue trivial

/-- A `Send` looks its receiver up, the receiver's connection ends, and the
    `Send` goes on to a closed channel: the process dies. -/
theorem sends_on_closed_reachable : ¬ ∀ s : Run (List UInt8),
    Reach step Lifecycle (start oneUser) s → NoSendOnClosed s := by
  obtain ⟨s, hs, hpanic⟩ := exists_reach_of_replayGuarded step Lifecycle (start oneUser)
    [.register 0, .call ⟨1⟩ ([] : List UInt8), .run 0, .unregister 0, .run 0]
    (fun s => s.hub.panic = some .sendOnClosed) (by decide)
  intro hall
  exact hall s hs hpanic

/-- Has the `Send` found a queue full? -/
def overflowed : SendNext → Bool
  | .goto (.evict _) => true
  | _ => false

/-- No job evicts a client whose queue it found full. -/
def NoOverflow (s : Run β) : Act β → Prop
  | .run i => ∀ j ∈ s.jobs[i]?, overflowed j.next = false
  | _ => True

instance (s : Run β) (a : Act β) : Decidable (NoOverflow s a) :=
  match a with
  | .run i => inferInstanceAs (Decidable (∀ j ∈ s.jobs[i]?, _))
  | .register _ | .unregister _ | .call _ _ => isTrue trivial

/-- The client of `u` that was registered last. -/
def lastOf (s : Run β) (u : UUID) : Option ClientId :=
  s.registered.find? fun c => s.hub.userOf c = u

/-- **The hub against its history**: the slot of a user is the client
    registered last, unless it has been unregistered since. -/
structure Tracked (s : Run β) : Prop where
  slot : ∀ u c, s.hub.clients u = some c ↔ lastOf s u = some c ∧ c ∉ s.unregistered
  opened : ∀ c, c ∉ s.unregistered → (s.hub.chan c).closed = false
  ended : ∀ c ∈ s.unregistered, c ∈ s.registered
  seen : ∀ j ∈ s.jobs, ∀ c, j.next = .goto (.select c) ∨ j.next = .goto (.evict c) →
    c ∈ s.registered

theorem start_tracked (who : ClientId → UUID × String) : Tracked (start who : Run β) where
  slot := by
    intro u c
    constructor
    · intro h
      cases h
    · intro h
      cases h.1
  opened := by intro c _; rfl
  ended := by intro c hc; cases hc
  seen := by intro j hj; cases hj

theorem lastOf_mem {s : Run β} {u : UUID} {c : ClientId} (h : lastOf s u = some c) :
    c ∈ s.registered ∧ s.hub.userOf c = u :=
  ⟨List.mem_of_find?_eq_some h, by simpa using List.find?_some h⟩

theorem registered_of_clients {s : Run β} (ht : Tracked s) {u : UUID} {c : ClientId}
    (hc : s.hub.clients u = some c) : c ∈ s.registered :=
  (lastOf_mem ((ht.slot u c).mp hc).1).1

/-- Running `Unregister(c)` on a registered client keeps the slots in step with
    the history. -/
theorem slot_unregister {s : Run β} (ht : Tracked s) (c : ClientId) (u : UUID)
    (d : ClientId) :
    (s.hub.unregister c).clients u = some d ↔
      lastOf s u = some d ∧ d ∉ c :: s.unregistered := by
  rw [List.mem_cons, not_or]
  constructor
  · intro hd
    obtain ⟨hold, hne⟩ := clients_of_unregister hd
    obtain ⟨hlast, hlive⟩ := (ht.slot u d).mp hold
    exact ⟨hlast, hne, hlive⟩
  · rintro ⟨hlast, hne, hlive⟩
    have hslot := (ht.slot u d).mpr ⟨hlast, hlive⟩
    by_cases hu : u = s.hub.userOf c
    · -- the slot of `c`'s user is taken by `d`, so `Unregister(c)` does nothing
      have hnot : ¬ s.hub.holds c := by
        rw [Hub.holds]
        rw [← hu, hslot]
        exact fun heq => hne (Option.some.inj heq)
      rw [unregister_of_not_holds hnot]
      exact hslot
    · rw [unregister_clients_ne s.hub hu]
      exact hslot

/-- An `Unregister(c)` closes at most the channel of `c`. -/
theorem opened_unregister {s : Run β} (ht : Tracked s) {c d : ClientId}
    (hd : d ∉ c :: s.unregistered) : ((s.hub.unregister c).chan d).closed = false := by
  rw [List.mem_cons, not_or] at hd
  rw [unregister_chan_ne s.hub hd.1]
  exact ht.opened d hd.2

theorem lastOf_congr {s t : Run β} (hr : t.registered = s.registered)
    (hu : ∀ c, t.hub.userOf c = s.hub.userOf c) (u : UUID) : lastOf t u = lastOf s u := by
  rw [lastOf]
  rw [hr]
  congr 1
  funext c
  rw [hu]

/-- A client that is registered is the last one of its user. -/
theorem lastOf_register (s : Run β) (c : ClientId) (u : UUID) :
    lastOf { s with hub := s.hub.register c, registered := c :: s.registered } u
      = if u = s.hub.userOf c then some c else lastOf s u := by
  rw [lastOf]
  by_cases hu : u = s.hub.userOf c
  · rw [if_pos hu]
    rw [List.find?_cons_of_pos (by simp [hu])]
  · rw [if_neg hu]
    rw [List.find?_cons_of_neg (by
      show ¬ decide (s.hub.userOf c = u) = true
      rw [decide_eq_true_eq]
      exact fun heq => hu heq.symm)]
    rfl

/-- Registering a client that was never unregistered keeps the slots in step with the
    history too. -/
theorem slot_register {s : Run β} (ht : Tracked s) {c : ClientId} (hnew : c ∉ s.unregistered)
    (u : UUID) (d : ClientId) :
    (s.hub.register c).clients u = some d ↔
      lastOf { s with hub := s.hub.register c, registered := c :: s.registered } u = some d ∧
        d ∉ s.unregistered := by
  rw [lastOf_register]
  by_cases hu : u = s.hub.userOf c
  · rw [if_pos hu, hu, register_clients_self]
    constructor
    · intro hd
      exact ⟨hd, (Option.some.inj hd) ▸ hnew⟩
    · exact fun hd => hd.1
  · rw [if_neg hu, register_clients_ne s.hub hu]
    exact ht.slot u d

/-- One step of a job. -/
theorem tracked_send {s : Run β} {i : Nat} {j : Job β} {pc : SendPc} {h : Hub β}
    {next : SendNext} (ht : Tracked s) (hj : j ∈ s.jobs) (hpc : j.next = .goto pc)
    (hsend : SendStep s.hub j.toID j.data pc h next) : Tracked (afterSend s i j pc h next) := by
  have hlast : ∀ u, lastOf (afterSend s i j pc h next) u = lastOf s u :=
    lastOf_congr rfl hsend.userOf
  -- whatever the job looks at next was registered
  have hseen : (∀ c, next = .goto (.select c) ∨ next = .goto (.evict c) →
      c ∈ s.registered) → ∀ j' ∈ moved s.jobs i { j with next := next } [],
        ∀ c, j'.next = .goto (.select c) ∨ j'.next = .goto (.evict c) →
          c ∈ s.registered := by
    intro hnext j' hj' c hc
    rcases mem_moved hj' with hold | rfl | hnew
    · exact ht.seen j' hold c hc
    · exact hnext c hc
    · cases hnew
  cases hsend with
  | offline hno =>
      refine ⟨fun u d => by rw [hlast]; exact ht.slot u d, ht.opened, ht.ended, hseen ?_⟩
      intro c hc
      rcases hc with hc | hc <;> cases hc
  | found c hc =>
      refine ⟨fun u d => by rw [hlast]; exact ht.slot u d, ht.opened, ht.ended, hseen ?_⟩
      rintro d (hd | hd)
      · simp only [SendNext.goto.injEq, SendPc.select.injEq] at hd
        rw [← hd]
        exact registered_of_clients ht hc
      · cases hd
  | sent c ch hch =>
      refine ⟨fun u d => by rw [hlast]; exact ht.slot u d, ?_, ht.ended, hseen ?_⟩
      · intro d hd
        show ((s.hub.push c ch j.data).chan d).closed = false
        rw [push_closed hch]
        exact ht.opened d hd
      · intro d hd
        rcases hd with hd | hd <;> cases hd
  | full c hopen hfull =>
      refine ⟨fun u d => by rw [hlast]; exact ht.slot u d, ht.opened, ht.ended, hseen ?_⟩
      rintro d (hd | hd)
      · cases hd
      · simp only [SendNext.goto.injEq, SendPc.evict.injEq] at hd
        rw [← hd]
        exact ht.seen j hj c (Or.inl hpc)
  | panic c hclosed =>
      refine ⟨fun u d => by rw [hlast]; exact ht.slot u d, ht.opened, ht.ended, hseen ?_⟩
      intro d hd
      rcases hd with hd | hd <;> cases hd
  | evict c =>
      refine ⟨?_, fun d hd => opened_unregister ht hd, ?_, hseen ?_⟩
      · intro u d
        rw [hlast]
        exact slot_unregister ht c u d
      · intro d hd
        rcases List.mem_cons.mp hd with rfl | hd
        · exact ht.seen j hj d (Or.inr hpc)
        · exact ht.ended d hd
      · intro d hd
        rcases hd with hd | hd <;> cases hd

theorem tracked_step {s t : Run β} {a : Act β} (ht : Tracked s) (hG : Lifecycle s a)
    (h : Stepped s a t) : Tracked t := by
  have huser := h.userOf
  cases h with
  | register c =>
      have hnew : c ∉ s.unregistered := fun hc => hG (ht.ended c hc)
      refine ⟨slot_register ht hnew, ht.opened, ?_, ?_⟩
      · intro d hd
        exact List.mem_cons_of_mem _ (ht.ended d hd)
      · intro j hj d hd
        exact List.mem_cons_of_mem _ (ht.seen j hj d hd)
  | unregister c =>
      refine ⟨?_, fun d hd => opened_unregister ht hd, ?_, ht.seen⟩
      · intro u d
        have hlast : lastOf { s with
            hub := s.hub.unregister c, unregistered := c :: s.unregistered } u
            = lastOf s u := lastOf_congr (s := s) (t := { s with
              hub := s.hub.unregister c, unregistered := c :: s.unregistered }) rfl huser u
        rw [hlast]
        exact slot_unregister ht c u d
      · intro d hd
        rcases List.mem_cons.mp hd with rfl | hd
        · exact hG
        · exact ht.ended d hd
  | call toID data =>
      refine ⟨ht.slot, ht.opened, ht.ended, ?_⟩
      intro j hj c hc
      rcases List.mem_append.mp hj with hold | hnew
      · exact ht.seen j hold c hc
      · rw [List.mem_singleton.mp hnew] at hc
        rcases hc with hc | hc <;> cases hc
  | run i j pc h next hi hpc hsend =>
      exact tracked_send ht (List.mem_of_getElem? hi) hpc hsend

/-- **THE SLOT IS THE NEWEST CLIENT**, in every run of the server's callers. -/
theorem tracked_of_reach {who : ClientId → UUID × String} {s : Run β}
    (h : Reach step Lifecycle (start who) s) : Tracked s :=
  Reach.invariant (fun _ _ _ hs hG ht => tracked_step hs hG (step_cases ht)) h
    (start_tracked who)

/-! ## Reachability of live connections -/

/-- A connection of `u` that was registered and has not ended. -/
def Live (s : Run β) (u : UUID) (c : ClientId) : Prop :=
  c ∈ s.registered ∧ s.hub.userOf c = u ∧ c ∉ s.unregistered

instance (s : Run β) (u : UUID) (c : ClientId) : Decidable (Live s u c) :=
  inferInstanceAs (Decidable (_ ∧ _))

/-- The queue of `c` can take one more frame. -/
def HasRoom (s : Run β) (c : ClientId) : Prop :=
  (s.hub.chan c).buf.length < (s.hub.chan c).cap

instance (s : Run β) (c : ClientId) : Decidable (HasRoom s c) :=
  inferInstanceAs (Decidable (_ < _))

/-- `u` is online, and whatever is sent to `u` is enqueued on `c`. -/
def ReachedThrough (s : Run β) (u : UUID) (c : ClientId) : Prop :=
  s.hub.isOnline u = true ∧
    ∀ data, (s.hub.send u data).2 = true ∧
      (s.hub.send u data).1.log = s.hub.log ++ [(c, data)]

/-- Connects, disconnects and sends, without a queue overflow. -/
def Connections (s : Run β) (a : Act β) : Prop := Lifecycle s a ∧ NoOverflow s a

instance (s : Run β) (a : Act β) : Decidable (Connections s a) :=
  inferInstanceAs (Decidable (_ ∧ _))

/-- Every live connection has room, and through one of them its user is
    reached. -/
def LiveReached (s : Run β) : Prop :=
  (∀ c ∈ s.registered, HasRoom s c) →
    ∀ u c, Live s u c → ∃ d, Live s u d ∧ ReachedThrough s u d

/-- **THE NEWEST CONNECTION IS REACHABLE** as long as it has not ended. -/
theorem newest_connection_reachable {who : ClientId → UUID × String} {s : Run β}
    (h : Reach step Connections (start who) s) {u : UUID} {c : ClientId}
    (hlast : lastOf s u = some c) (hlive : Live s u c) (hroom : HasRoom s c) :
    ReachedThrough s u c := by
  have ht := tracked_of_reach (h.weaken (fun _ _ hG => hG.1))
  have hslot := (ht.slot u c).mpr ⟨hlast, hlive.2.2⟩
  refine ⟨?_, ?_⟩
  · rw [Hub.isOnline, hslot]
    rfl
  · intro data
    have hoffer := offer_of_room data (ht.opened c hlive.2.2) hroom
    simp only [Hub.send, hslot, hoffer, push_log]
    exact ⟨trivial, trivial⟩

/-- Two connections of one user; the newer one ends, and the older one, still
    live, can no longer be reached. -/
theorem older_connection_unreachable : ¬ ∀ s : Run (List UInt8),
    Reach step Connections (start oneUser) s → LiveReached s := by
  obtain ⟨s, hs, hroom, hlive, hoff⟩ := exists_reach_of_replayGuarded step Connections
    (start oneUser)
    ([.register 0, .register 1, .unregister 1] : List (Act (List UInt8)))
    (fun s => (∀ c ∈ s.registered, HasRoom s c) ∧ Live s ⟨1⟩ 0 ∧
      s.hub.isOnline ⟨1⟩ = false) (by decide)
  intro hall
  obtain ⟨d, -, honline, -⟩ := hall s hs hroom ⟨1⟩ 0 hlive
  rw [hoff] at honline
  cases honline

/-- An older connection that ends late does not cost the newer one anything. -/
theorem newest_connection_reachable_after_overlap : ∃ s : Run (List UInt8),
    Reach step Connections (start oneUser) s ∧ s.registered = [1, 0] ∧
      s.unregistered = [0] ∧ ReachedThrough s ⟨1⟩ 1 := by
  obtain ⟨s, hs, hreg, hunreg, hlast, hlive, hroom⟩ := exists_reach_of_replayGuarded step
    Connections (start oneUser)
    ([.register 0, .register 1, .unregister 0] : List (Act (List UInt8)))
    (fun s => s.registered = [1, 0] ∧ s.unregistered = [0] ∧ lastOf s ⟨1⟩ = some 1 ∧
      Live s ⟨1⟩ 1 ∧ HasRoom s 1) (by decide)
  exact ⟨s, hs, hreg, hunreg, newest_connection_reachable hs hlast hlive hroom⟩

end HubRun
