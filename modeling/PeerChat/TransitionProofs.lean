import Mathlib

/-! # Guarded transition systems — reachability and its induction rules

    A system is an executable step function `step s a`, `none` when action `a`
    is not enabled in `s`.  A GUARD restricts the steps a run may take: it
    reads the state before the step and the action, so "in every run whose
    steps all meet a condition" is reachability under that condition as the
    guard.  Reachability itself is Mathlib's reflexive-transitive closure;
    this file adds the invariant rules every development over it uses, and
    `replay`, which turns a computed trace into a run. -/

namespace Transition

variable {σ α : Type}

/-- One step of the system, taken by some action the guard lets through. -/
def Step (step : σ → α → Option σ) (G : σ → α → Prop) (s t : σ) : Prop :=
  ∃ a, G s a ∧ step s a = some t

/-- Reachability by steps that all meet the guard. -/
def Reach (step : σ → α → Option σ) (G : σ → α → Prop) : σ → σ → Prop :=
  Relation.ReflTransGen (Step step G)

/-- The guard that lets every step through. -/
def anyStep (_ : σ) (_ : α) : Prop := True

/-- A state is reached from itself. -/
theorem Reach.refl {step : σ → α → Option σ} {G : σ → α → Prop} (s : σ) :
    Reach step G s s :=
  Relation.ReflTransGen.refl

/-- A run goes on with one step. -/
theorem Reach.tail {step : σ → α → Option σ} {G : σ → α → Prop} {s t u : σ} {a : α}
    (h : Reach step G s t) (hG : G t a) (hs : step t a = some u) :
    Reach step G s u :=
  Relation.ReflTransGen.tail h ⟨a, hG, hs⟩

/-- A run begins with one step. -/
theorem Reach.head {step : σ → α → Option σ} {G : σ → α → Prop} {s t u : σ} {a : α}
    (hG : G s a) (hs : step s a = some t) (h : Reach step G t u) :
    Reach step G s u :=
  Relation.ReflTransGen.head ⟨a, hG, hs⟩ h

/-- **THE INVARIANT RULE**: what holds at the start and is kept by every
    guarded step holds in every reachable state. -/
theorem Reach.invariant {step : σ → α → Option σ} {G : σ → α → Prop} {I : σ → Prop}
    (hkeep : ∀ s a t, I s → G s a → step s a = some t → I t)
    {s t : σ} (h : Reach step G s t) (hs : I s) : I t := by
  induction h with
  | refl => exact hs
  | tail _ hst ih =>
      obtain ⟨a, hG, ha⟩ := hst
      exact hkeep _ a _ ih hG ha

/-- The invariant rule with an auxiliary invariant `J` already established
    for the same runs. -/
theorem Reach.invariant_using {step : σ → α → Option σ} {G : σ → α → Prop}
    {I J : σ → Prop} {s : σ} (hJ : ∀ t, Reach step G s t → J t)
    (hkeep : ∀ u a t, J u → I u → G u a → step u a = some t → I t)
    {t : σ} (h : Reach step G s t) (hs : I s) : I t := by
  induction h with
  | refl => exact hs
  | tail hpre hst ih =>
      obtain ⟨a, hG, ha⟩ := hst
      exact hkeep _ a _ (hJ _ hpre) ih hG ha

/-- A weaker guard reaches at least as much. -/
theorem Reach.weaken {step : σ → α → Option σ} {G G' : σ → α → Prop}
    (hG : ∀ s a, G s a → G' s a) {s t : σ} (h : Reach step G s t) :
    Reach step G' s t := by
  induction h with
  | refl => exact Reach.refl _
  | tail _ hst ih =>
      obtain ⟨a, hg, ha⟩ := hst
      exact Reach.tail ih (hG _ a hg) ha

-- ── A thread that nobody interrupts ──────────────────────────────────────────

/-- A step function taken again and again, with nothing in between. -/
def Runs (f : σ → Option σ) : σ → σ → Prop :=
  Relation.ReflTransGen fun s t => f s = some t

theorem Runs.refl {f : σ → Option σ} (s : σ) : Runs f s s := Relation.ReflTransGen.refl

/-- A deterministic run begins with one step. -/
theorem Runs.step {f : σ → Option σ} {s t u : σ} (h : f s = some t) (hrest : Runs f t u) :
    Runs f s u :=
  Relation.ReflTransGen.head h hrest

-- ── Replaying a concrete trace ────────────────────────────────────────────────

/-- Run the actions of a list in order, each only if the Boolean guard passes. -/
def replay (step : σ → α → Option σ) (ok : σ → α → Bool) : σ → List α → Option σ
  | s, [] => some s
  | s, a :: as => if ok s a then (step s a).bind (replay step ok · as) else none

/-- A trace that replays is a run under the guard the Boolean test decides. -/
theorem reach_of_replay {step : σ → α → Option σ} {ok : σ → α → Bool}
    {G : σ → α → Prop} (hok : ∀ s a, ok s a = true → G s a) :
    ∀ (as : List α) {s t : σ}, replay step ok s as = some t → Reach step G s t := by
  intro as
  induction as with
  | nil =>
      intro s t h
      simp only [replay, Option.some.injEq] at h
      rw [h]
      exact Reach.refl t
  | cons a as ih =>
      intro s t h
      simp only [replay] at h
      by_cases ha : ok s a = true
      · rw [if_pos ha] at h
        obtain ⟨u, hu, hrest⟩ := Option.bind_eq_some_iff.mp h
        exact Reach.head (hok s a ha) hu (ih hrest)
      · rw [if_neg ha] at h
        cases h

/-- A trace that ends in a state passing the test `p` gives a reachable state
    that passes it; the kernel only has to evaluate the trace. -/
theorem exists_reach_of_replay {step : σ → α → Option σ} {ok : σ → α → Bool}
    {G : σ → α → Prop} (hok : ∀ s a, ok s a = true → G s a)
    (s : σ) (as : List α) (p : σ → Bool)
    (h : (replay step ok s as).any p = true) :
    ∃ t, Reach step G s t ∧ p t = true := by
  cases hr : replay step ok s as with
  | none =>
      rw [hr] at h
      cases h
  | some t =>
      rw [hr] at h
      exact ⟨t, reach_of_replay hok as hr, h⟩

/-- A trace whose steps all pass the decidable guard. -/
def replayGuarded (step : σ → α → Option σ) (G : σ → α → Prop)
    [∀ s a, Decidable (G s a)] (s : σ) (as : List α) : Option σ :=
  replay step (fun s a => decide (G s a)) s as

/-- A guarded run that can be replayed is one. -/
theorem exists_reach_of_replayGuarded (step : σ → α → Option σ) (G : σ → α → Prop)
    [∀ s a, Decidable (G s a)] (s : σ) (as : List α) (P : σ → Prop) [DecidablePred P]
    (h : (replayGuarded step G s as).any (fun t => decide (P t)) = true) :
    ∃ t, Reach step G s t ∧ P t := by
  obtain ⟨t, hreach, hp⟩ := exists_reach_of_replay
    (fun _ _ hok => of_decide_eq_true hok) s as (fun t => decide (P t)) h
  exact ⟨t, hreach, of_decide_eq_true hp⟩

end Transition
