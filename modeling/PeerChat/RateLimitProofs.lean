import PeerChat.RedisProofs
import PeerChat.FixedWindowProofs

/-! # The rate limiter over sequences of calls

    `Limiter.Allow` counts in a key that expires.  Over a sequence of calls by any
    users the key of one user is the counter of that user's fixed windows, so the
    answers are the ones its windows give. -/

namespace PeerRateLimit

open PeerEnv PeerRedis FixedWindow

/-- Calls of `Allow`, one after the other: the keys afterwards, and the answers. -/
def allowAll (l : Limiter) (r : Redis) : List (UUID × Env) → Redis × List Bool
  | [] => (r, [])
  | (userID, env) :: calls =>
      let (r, ok) := r.allow l env userID
      let (r, oks) := allowAll l r calls
      (r, ok :: oks)

/-- The times of one user's calls. -/
def timesOf (userID : UUID) (calls : List (UUID × Env)) : List Nat :=
  (calls.filter fun c => c.1 = userID).map fun c => c.2.now

/-- The answers to one user's calls. -/
def answersOf (userID : UUID) (calls : List (UUID × Env)) (oks : List Bool) : List Bool :=
  ((calls.zip oks).filter fun c => c.1.1 = userID).map fun c => c.2

/-- `windowS`, in milliseconds. -/
def width (l : Limiter) : Nat := l.windowS * second

/-- What the windows of a user's calls answer: the first `max` of each are let
    through. -/
def windowAnswers (l : Limiter) (times : List Nat) : List Bool :=
  (windows (width l) times).flatMap fun w => (List.range' 1 w.length).map fun n => decide (n ≤ l.max)

/-- **THE LAW OF THE LIMITER** for one user, over the calls of all. -/
structure FixedWindowLaw (l : Limiter) (calls : List (UUID × Env)) (userID : UUID) :
    Prop where
  /-- A call is allowed iff it is among the first `max` of its window. -/
  windowed : answersOf userID calls (allowAll l Redis.empty calls).2
    = windowAnswers l (timesOf userID calls)
  /-- An interval as long as a window holds at most `2 * max` allowed calls. -/
  interval : ∀ x, ((timesOf userID calls).zip
      (answersOf userID calls (allowAll l Redis.empty calls).2)).countP
    (fun c => c.2 ∧ x ≤ c.1 ∧ c.1 < x + width l) ≤ 2 * l.max
  /-- A call that finds the window open, rejected or not, leaves its end alone. -/
  steady : ∀ pre env post, calls = pre ++ (userID, env) :: post →
    ∀ e, alive env.now ((allowAll l Redis.empty pre).1.rate userID) = some e →
      ((allowAll l Redis.empty (pre ++ [(userID, env)])).1.rate userID).map Entry.expiry
        = some e.expiry
  /-- The other users' calls do not matter. -/
  alone : ∀ calls', (∀ c ∈ calls', c.2.ok .allow = true) →
    timesOf userID calls' = timesOf userID calls →
      answersOf userID calls' (allowAll l Redis.empty calls').2
        = answersOf userID calls (allowAll l Redis.empty calls).2

/-! ## The key is the counter -/

/-- The counter a `rate:` key holds. -/
def counter (e : Option (Entry Nat)) : Counter Nat :=
  e.bind fun e => e.expiry.map fun t => (t, e.value)

/-- Every `rate:` key has an expiry. -/
def Expires (r : Redis) : Prop := ∀ u e, r.rate u = some e → e.expiry.isSome = true

/-- **`INCR` AND `EXPIRE … NX` TICK THE COUNTER**. -/
theorem incrExpire_tick (l : Limiter) (now : Nat) {e : Option (Entry Nat)}
    (he : ∀ x, e = some x → x.expiry.isSome = true) :
    ∃ t, incrExpire l now e = ⟨(tick (width l) (counter e) now).2, some t⟩ ∧
      t = (tick (width l) (counter e) now).1 := by
  cases e with
  | none => exact ⟨_, rfl, rfl⟩
  | some x =>
      obtain ⟨n, expiry⟩ := x
      cases expiry with
      | none => exact absurd (he _ rfl) (by simp)
      | some t =>
          by_cases ht : now < t
          · refine ⟨t, ?_, by simp [counter, tick, ht]⟩
            rw [incrExpire, alive_of_lt n ht]
            simp [counter, tick, ht]
          · refine ⟨now + width l, ?_, by simp [counter, tick, ht]⟩
            rw [incrExpire, alive_of_le n (Nat.le_of_not_lt ht)]
            simp [counter, tick, ht, width]

/-- `Allow` ticks its caller's counter, and answers by it. -/
theorem allow_tick {r : Redis} (hr : Expires r) (l : Limiter) {env : Env} (u : UUID)
    (hok : env.ok .allow = true) :
    Expires (r.allow l env u).1 ∧
      counter ((r.allow l env u).1.rate u)
        = some (tick (width l) (counter (r.rate u)) env.now) ∧
      (r.allow l env u).2 = decide ((tick (width l) (counter (r.rate u)) env.now).2 ≤ l.max) ∧
      ∀ v, v ≠ u → (r.allow l env u).1.rate v = r.rate v := by
  obtain ⟨t, he, ht⟩ := incrExpire_tick l env.now (hr u)
  rw [Redis.allow, if_pos hok, he]
  refine ⟨?_, ?_, rfl, ?_⟩
  · intro v e hv
    by_cases hvu : v = u
    · simp only [hvu, Function.update_self, Option.some.injEq] at hv
      rw [← hv]
      rfl
    · simp only [Function.update_of_ne hvu] at hv
      exact hr v e hv
  · simp only [Function.update_self, counter, Option.bind_some, Option.map_some, ht]
  · intro v hv
    simp only [Function.update_of_ne hv]

theorem expires_empty : Expires Redis.empty := by
  intro u e he
  cases he

/-! ## Sequences of calls -/

variable {l : Limiter} {u : UUID}

theorem timesOf_cons (u : UUID) (c : UUID × Env) (calls : List (UUID × Env)) :
    timesOf u (c :: calls) = if c.1 = u then c.2.now :: timesOf u calls
      else timesOf u calls := by
  rw [timesOf, List.filter_cons]
  by_cases hc : c.1 = u
  · simp [hc, timesOf]
  · simp [hc, timesOf]

theorem answersOf_cons (u : UUID) (c : UUID × Env) (calls : List (UUID × Env)) (ok : Bool)
    (oks : List Bool) : answersOf u (c :: calls) (ok :: oks) =
      if c.1 = u then ok :: answersOf u calls oks else answersOf u calls oks := by
  rw [answersOf, List.zip_cons_cons, List.filter_cons]
  by_cases hc : c.1 = u
  · simp [hc, answersOf]
  · simp [hc, answersOf]

/-- The keys after some calls and then some more. -/
theorem allowAll_append (l : Limiter) (r : Redis) (calls more : List (UUID × Env)) :
    (allowAll l r (calls ++ more)).1 = (allowAll l (allowAll l r calls).1 more).1 := by
  induction calls generalizing r with
  | nil => rfl
  | cons c calls ih => exact ih _

/-- Every key the limiter leaves expires. -/
theorem expires_allowAll {r : Redis} (hr : Expires r) {calls : List (UUID × Env)}
    (hok : ∀ c ∈ calls, c.2.ok .allow = true) : Expires (allowAll l r calls).1 := by
  induction calls generalizing r with
  | nil => exact hr
  | cons c calls ih =>
      exact ih (allow_tick hr l c.1 (hok c List.mem_cons_self)).1
        fun d hd => hok d (List.mem_cons_of_mem _ hd)

/-- **EACH USER'S ANSWERS ARE THE RANKS OF ITS OWN CALLS**. -/
theorem answersOf_allowAll {r : Redis} (hr : Expires r) {calls : List (UUID × Env)}
    (hok : ∀ c ∈ calls, c.2.ok .allow = true) :
    answersOf u calls (allowAll l r calls).2 =
      (ranks (width l) (counter (r.rate u)) (timesOf u calls)).map fun n => decide (n ≤ l.max) := by
  induction calls generalizing r with
  | nil => rfl
  | cons c calls ih =>
      obtain ⟨hexp, hself, hans, hother⟩ := allow_tick hr l c.1 (hok c List.mem_cons_self)
      have hrest := ih hexp fun d hd => hok d (List.mem_cons_of_mem _ hd)
      simp only [allowAll]
      rw [answersOf_cons, timesOf_cons, hrest]
      by_cases hc : c.1 = u
      · rw [if_pos hc, if_pos hc, ranks, List.map_cons, hans]
        rw [hc] at hself ⊢
        rw [hself]
      · rw [if_neg hc, if_neg hc, hother u (Ne.symm hc)]

/-- Answers over the calls of the windows, call by call. -/
theorem zip_windowAnswers (l : Limiter) (ws : List (List Nat)) :
    ((ws.flatten.zip (ws.flatMap fun w =>
      (List.range' 1 w.length).map fun n => decide (n ≤ l.max))).filter fun c => c.2).map
        Prod.fst = ws.flatMap (·.take l.max) := by
  have hone : ∀ (w : List Nat) (k : Nat),
      ((w.zip ((List.range' (k + 1) w.length).map fun n => decide (n ≤ l.max))).filter
        fun c => c.2).map Prod.fst = w.take (l.max - k) := by
    intro w
    induction w with
    | nil => intro k; simp
    | cons t w ih =>
        intro k
        rw [List.length_cons, List.range'_succ, List.map_cons, List.zip_cons_cons,
          List.filter_cons]
        by_cases hk : k + 1 ≤ l.max
        · have hsub : l.max - k = l.max - (k + 1) + 1 := by omega
          simp only [hk, decide_true, if_true, List.map_cons, hsub, List.take_succ_cons]
          rw [ih (k + 1)]
        · have hsub : l.max - k = 0 := by omega
          have hnext : l.max - (k + 1) = 0 := by omega
          simp only [hk, decide_false, Bool.false_eq_true, if_false, hsub, List.take_zero]
          rw [ih (k + 1), hnext, List.take_zero]
  induction ws with
  | nil => rfl
  | cons w ws ih =>
      have hlen : w.length = ((List.range' 1 w.length).map
          fun n => decide (n ≤ l.max)).length := by simp
      rw [List.flatten_cons, List.flatMap_cons, List.flatMap_cons, List.zip_append hlen,
        List.filter_append, List.map_append, ih]
      have := hone w 0
      rw [Nat.zero_add, Nat.sub_zero] at this
      rw [this]

/-- **THE LIMITER'S ANSWERS ARE THOSE OF FIXED WINDOWS**, user by user. -/
theorem windowed_of_ok {calls : List (UUID × Env)} (hok : ∀ c ∈ calls, c.2.ok .allow = true) :
    answersOf u calls (allowAll l Redis.empty calls).2 = windowAnswers l (timesOf u calls) := by
  rw [answersOf_allowAll expires_empty hok, windowAnswers]
  show (ranks (width l) none (timesOf u calls)).map _ = _
  rw [ranks_eq, List.map_flatMap]

/-- **THE RATE LIMITER IS A FIXED WINDOW PER USER**: for every limit, every window
    and every sequence of calls at times that never go back. -/
theorem allow_fixed_window (l : Limiter) (calls : List (UUID × Env))
    (hok : ∀ c ∈ calls, c.2.ok .allow = true)
    (hsorted : calls.Pairwise fun c d => c.2.now ≤ d.2.now) (u : UUID) :
    FixedWindowLaw l calls u where
  windowed := windowed_of_ok hok
  interval := by
    intro x
    have htimes : (timesOf u calls).Pairwise (· ≤ ·) :=
      List.pairwise_map.mpr (hsorted.sublist List.filter_sublist)
    have hgranted := zip_windowAnswers l (windows (width l) (timesOf u calls))
    rw [flatten_windows] at hgranted
    rw [windowed_of_ok hok, windowAnswers]
    have hbound : (FixedWindow.granted (width l) l.max (timesOf u calls)).countP
        (fun t => x ≤ t ∧ t < x + width l) ≤ 2 * l.max :=
      granted_le (width l) x (timesOf u calls) htimes
    rw [granted, ← hgranted, List.countP_map, List.countP_filter] at hbound
    refine le_trans (le_of_eq ?_) hbound
    refine List.countP_congr ?_
    intro c _
    simp [and_comm]
  steady := by
    intro pre env post hcalls e he
    have hpre : ∀ c ∈ pre, c.2.ok .allow = true := fun c hc =>
      hok c (by rw [hcalls]; exact List.mem_append_left _ hc)
    have henv : env.ok .allow = true :=
      hok (u, env) (by rw [hcalls]; exact List.mem_append_right _ List.mem_cons_self)
    have hexp := expires_allowAll (l := l) expires_empty hpre
    rw [allowAll_append]
    simp only [allowAll, Redis.allow, if_pos henv, Function.update_self, Option.map_some,
      incrExpire, he]
    obtain ⟨n, expiry⟩ := e
    cases expiry with
    | some t => rfl
    | none =>
        have halive : (allowAll l Redis.empty pre).1.rate u = some ⟨n, none⟩ :=
          (Option.filter_eq_some_iff.mp he).1
        exact absurd (hexp u _ halive) (by simp)
  alone := by
    intro calls' hok' htimes
    rw [windowed_of_ok hok', windowed_of_ok hok, htimes]

/-- Four calls of one user a second apart, the last one in a second window, and
    one call of somebody else. -/
def fiveCalls : List (UUID × Env) :=
  [(⟨1⟩, Env.fine ⟨0⟩ ⟨0⟩ 0), (⟨1⟩, Env.fine ⟨0⟩ ⟨0⟩ 1000), (⟨2⟩, Env.fine ⟨0⟩ ⟨0⟩ 1500),
    (⟨1⟩, Env.fine ⟨0⟩ ⟨0⟩ 2000), (⟨1⟩, Env.fine ⟨0⟩ ⟨0⟩ 3000)]

/-- Two calls a window of three seconds: the third call is rejected. -/
theorem allow_fixed_window_five :
    answersOf ⟨1⟩ fiveCalls (allowAll ⟨2, 3⟩ Redis.empty fiveCalls).2
        = [true, true, false, true] ∧
      FixedWindowLaw ⟨2, 3⟩ fiveCalls ⟨1⟩ :=
  ⟨by decide, allow_fixed_window ⟨2, 3⟩ fiveCalls (by decide) (by decide) ⟨1⟩⟩

end PeerRateLimit
