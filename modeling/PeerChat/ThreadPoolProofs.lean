import Mathlib

/-! # A pool of threads — counting and membership after one thread moves

    The threads of an interleaved system are a list of program counters.  A
    step of thread `i` replaces its entry and may append newly started
    threads.  Invariants over such a pool are of two kinds: a property of
    every thread, and a TOTAL of what the threads still may do.  The lemmas
    here say how both change. -/

namespace ThreadPool

variable {τ : Type}

/-- Thread `i` moves to `t` and starts the threads `new`. -/
def moved (ts : List τ) (i : Nat) (t : τ) (new : List τ) : List τ :=
  ts.set i t ++ new

/-- The sum of `f` over the pool. -/
def total (f : τ → Nat) (ts : List τ) : Nat := (ts.map f).sum

@[simp] theorem total_nil (f : τ → Nat) : total f [] = 0 := rfl

@[simp] theorem total_cons (f : τ → Nat) (t : τ) (ts : List τ) :
    total f (t :: ts) = f t + total f ts := by
  simp [total]

@[simp] theorem total_append (f : τ → Nat) (ts us : List τ) :
    total f (ts ++ us) = total f ts + total f us := by
  simp [total]

/-- A thread of the pool after a step was there before, or is the moved one,
    or was just started. -/
theorem mem_moved {ts : List τ} {i : Nat} {t u : τ} {new : List τ}
    (h : u ∈ moved ts i t new) : u ∈ ts ∨ u = t ∨ u ∈ new := by
  rcases List.mem_append.mp h with hset | hnew
  · rcases List.mem_or_eq_of_mem_set hset with hold | heq
    · exact Or.inl hold
    · exact Or.inr (Or.inl heq)
  · exact Or.inr (Or.inr hnew)

/-- The moved thread is in the new pool. -/
theorem self_mem_moved {ts : List τ} {i : Nat} {t₀ t : τ} {new : List τ}
    (h : ts[i]? = some t₀) : t ∈ moved ts i t new := by
  obtain ⟨hi, -⟩ := List.getElem?_eq_some_iff.mp h
  exact List.mem_append.mpr (Or.inl (List.mem_set hi t))

/-- Every other thread stays: a thread of the old pool is the one that moved
    or is still there. -/
theorem mem_moved_of_mem {ts : List τ} {i : Nat} {t₀ t u : τ} {new : List τ}
    (h : ts[i]? = some t₀) (hu : u ∈ ts) : u = t₀ ∨ u ∈ moved ts i t new := by
  obtain ⟨j, hj, hju⟩ := List.mem_iff_getElem.mp hu
  by_cases hij : i = j
  · subst hij
    rw [List.getElem?_eq_getElem hj, Option.some.injEq] at h
    exact Or.inl (hju.symm.trans h)
  · refine Or.inr (List.mem_append.mpr (Or.inl ?_))
    refine List.mem_iff_getElem.mpr ⟨j, by rw [List.length_set]; exact hj, ?_⟩
    rw [List.getElem_set_ne hij]
    exact hju

-- ── What stands at an index ───────────────────────────────────────────────────

/-- Threads keep their index when others are started. -/
theorem getElem?_spawned {ts : List τ} {j : Nat} {u : τ} (new : List τ)
    (h : ts[j]? = some u) : (ts ++ new)[j]? = some u := by
  obtain ⟨hj, -⟩ := List.getElem?_eq_some_iff.mp h
  rw [List.getElem?_append_left hj, h]

theorem getElem?_moved_self {ts : List τ} {i : Nat} {t₀ t : τ} {new : List τ}
    (h : ts[i]? = some t₀) : (moved ts i t new)[i]? = some t := by
  obtain ⟨hi, -⟩ := List.getElem?_eq_some_iff.mp h
  exact getElem?_spawned new (List.getElem?_set_self hi)

theorem getElem?_moved_ne {ts : List τ} {i j : Nat} {u : τ} (t : τ) (new : List τ)
    (hij : i ≠ j) (h : ts[j]? = some u) : (moved ts i t new)[j]? = some u := by
  refine getElem?_spawned new ?_
  rw [List.getElem?_set_ne hij, h]

-- ── Totals ────────────────────────────────────────────────────────────────────

/-- **THE ACCOUNTING STEP**: moving thread `i` from `t₀` to `t` changes the
    total by exactly what the thread and the started ones contribute. -/
theorem total_moved (f : τ → Nat) {ts : List τ} {i : Nat} {t₀ t : τ} {new : List τ}
    (h : ts[i]? = some t₀) :
    total f (moved ts i t new) + f t₀ = total f ts + f t + total f new := by
  have hset : total f (ts.set i t) + f t₀ = total f ts + f t := by
    induction ts generalizing i with
    | nil => cases h
    | cons u us ih =>
        cases i with
        | zero =>
            have hu : u = t₀ := by simpa using h
            subst hu
            simp only [List.set_cons_zero, total_cons]
            omega
        | succ i =>
            have hus : us[i]? = some t₀ := by simpa using h
            have := ih hus
            simp only [List.set_cons_succ, total_cons]
            omega
  simp only [moved, total_append]
  omega

/-- A thread that moves and starts others contributes no more than before: the total
    does not grow. -/
theorem total_moved_le {f : τ → Nat} {ts : List τ} {i : Nat} {t₀ t : τ} {new : List τ}
    (h : ts[i]? = some t₀) (hle : f t + total f new ≤ f t₀) :
    total f (moved ts i t new) ≤ total f ts := by
  have hsum : total f (moved ts i t new) + f t₀ = total f ts + f t + total f new :=
    total_moved f h
  omega

/-- One thread contributes at most the total. -/
theorem le_total (f : τ → Nat) {ts : List τ} {t : τ} (h : t ∈ ts) :
    f t ≤ total f ts := by
  induction ts with
  | nil => cases h
  | cons u us ih =>
      rw [total_cons]
      rcases List.mem_cons.mp h with heq | hmem
      · rw [heq]
        omega
      · have := ih hmem
        omega

/-- Two different threads contribute together at most the total. -/
theorem add_le_total (f : τ → Nat) {ts : List τ} {t u : τ} (ht : t ∈ ts) (hu : u ∈ ts)
    (hne : t ≠ u) : f t + f u ≤ total f ts := by
  induction ts with
  | nil => cases ht
  | cons v vs ih =>
      rw [total_cons]
      rcases List.mem_cons.mp ht with rfl | htail
      · rcases List.mem_cons.mp hu with rfl | hutail
        · exact absurd rfl hne
        · have := le_total f hutail
          omega
      · rcases List.mem_cons.mp hu with rfl | hutail
        · have := le_total f htail
          omega
        · have := ih htail hutail
          omega

/-- The total is zero when every thread contributes nothing. -/
theorem total_eq_zero {f : τ → Nat} {ts : List τ} (h : ∀ t ∈ ts, f t = 0) :
    total f ts = 0 := by
  induction ts with
  | nil => rfl
  | cons u us ih =>
      rw [total_cons, h u (List.mem_cons_self ..),
        ih (fun t ht => h t (List.mem_cons_of_mem _ ht))]

end ThreadPool
