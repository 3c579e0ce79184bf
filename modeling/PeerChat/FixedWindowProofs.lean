import Mathlib

/-! # Fixed windows — calls split by the first call of each window

    A sequence of call times is split into WINDOWS of width `W`: a window starts
    at its first call and holds the calls before its end, and the next one starts
    at the first call at or after that end.  The split reads nothing but the
    times.

    A counter that expires does the same online: it counts up while it is alive,
    and a call that finds it expired starts it again.  `ranks_eq` says that the
    two agree; `granted_le` bounds what is granted in any interval. -/

namespace FixedWindow

variable {τ : Type} {max : Nat}

/-- One window grants at most `max` calls. -/
theorem countP_take_le (n : Nat) (w : List τ) (p : τ → Bool) : (w.take n).countP p ≤ n :=
  le_trans List.countP_le_length (by rw [List.length_take]; exact Nat.min_le_left _ _)

variable [LinearOrder τ] [Add τ]

/-- The windows of a sequence of calls. -/
def windows (W : τ) : List τ → List (List τ)
  | [] => []
  | t :: ts =>
      (t :: ts.takeWhile (· < t + W)) :: windows W (ts.dropWhile (· < t + W))
  termination_by ts => ts.length
  decreasing_by
    simp only [List.length_cons]
    exact Nat.lt_succ_of_le (List.dropWhile_sublist _).length_le

/-- A counter: the end of its window and the calls counted in it. -/
abbrev Counter (τ : Type) := Option (τ × Nat)

/-- One call at time `t`: the counter goes up, or starts again. -/
def tick (W : τ) (s : Counter τ) (t : τ) : τ × Nat :=
  match s with
  | some (e, n) => if t < e then (e, n + 1) else (t + W, 1)
  | none => (t + W, 1)

/-- What the counter shows after each call. -/
def ranks (W : τ) : Counter τ → List τ → List Nat
  | _, [] => []
  | s, t :: ts => (tick W s t).2 :: ranks W (some (tick W s t)) ts

/-- The calls at which the counter shows at most `max`. -/
def granted (W : τ) (max : Nat) (ts : List τ) : List τ :=
  (windows W ts).flatMap (·.take max)

-- ── The split ─────────────────────────────────────────────────────────────────

@[simp] theorem windows_nil (W : τ) : windows W [] = [] := by rw [windows]

theorem windows_cons (W t : τ) (ts : List τ) :
    windows W (t :: ts) =
      (t :: ts.takeWhile (· < t + W)) :: windows W (ts.dropWhile (· < t + W)) := by
  rw [windows]

/-- The windows are the calls, in order. -/
theorem flatten_windows (W : τ) (ts : List τ) : (windows W ts).flatten = ts := by
  induction ts using windows.induct W with
  | case1 => rw [windows_nil, List.flatten_nil]
  | case2 t ts ih =>
      rw [windows_cons, List.flatten_cons, ih, List.cons_append,
        List.takeWhile_append_dropWhile]

/-- Every call of a window comes before the window's end. -/
theorem lt_end_of_mem {W t t' : τ} {ts : List τ} (h : t' ∈ ts.takeWhile (· < t + W)) :
    t' < t + W := by
  simpa using List.mem_takeWhile_imp h

/-- What comes after a window starts at or after its end. -/
theorem end_le_of_dropWhile {W t d : τ} {ts ds : List τ}
    (h : ts.dropWhile (· < t + W) = d :: ds) : t + W ≤ d := by
  have hne : ts.dropWhile (· < t + W) ≠ [] := by rw [h]; exact List.cons_ne_nil d ds
  have hhead := List.head_dropWhile_not (fun x => decide (x < t + W)) hne
  have hd : (ts.dropWhile (· < t + W)).head hne = d := by simp only [h, List.head_cons]
  rw [hd] at hhead
  simpa using hhead

-- ── The counter ───────────────────────────────────────────────────────────────

/-- A counter that is alive counts the calls before its end, then starts again. -/
theorem ranks_alive (W e : τ) (ts : List τ) : ∀ n : Nat,
    ranks W (some (e, n)) ts =
      List.range' (n + 1) (ts.takeWhile (· < e)).length ++
        ranks W none (ts.dropWhile (· < e)) := by
  induction ts with
  | nil => intro n; rfl
  | cons t ts ih =>
      intro n
      by_cases ht : t < e
      · have htick : tick W (some (e, n)) t = (e, n + 1) := by simp only [tick, if_pos ht]
        rw [ranks, htick, ih (n + 1), List.takeWhile_cons_of_pos (by simpa using ht),
          List.dropWhile_cons_of_pos (by simpa using ht), List.length_cons, List.range'_succ,
          List.cons_append]
      · have htick : tick W (some (e, n)) t = tick W none t := by simp only [tick, if_neg ht]
        rw [List.takeWhile_cons_of_neg (by simpa using ht),
          List.dropWhile_cons_of_neg (by simpa using ht), ranks, ranks, htick]
        rfl

/-- **THE COUNTER SHOWS EACH CALL'S PLACE IN ITS WINDOW**. -/
theorem ranks_eq (W : τ) (ts : List τ) :
    ranks W none ts = (windows W ts).flatMap fun w => List.range' 1 w.length := by
  induction ts using windows.induct W with
  | case1 => rw [windows_nil]; rfl
  | case2 t ts ih =>
      have htick : tick W none t = (t + W, 1) := rfl
      rw [windows_cons, List.flatMap_cons, ← ih, ranks, htick, ranks_alive,
        List.length_cons, List.range'_succ, List.cons_append]

-- ── What is granted ───────────────────────────────────────────────────────────

theorem granted_cons (W t : τ) (ts : List τ) :
    granted W max (t :: ts) = (t :: ts.takeWhile (· < t + W)).take max ++
      granted W max (ts.dropWhile (· < t + W)) := by
  rw [granted, windows_cons, List.flatMap_cons, granted]

/-- Only calls are granted. -/
theorem granted_sublist (W : τ) (ts : List τ) : (granted W max ts).Sublist ts := by
  induction ts using windows.induct W with
  | case1 => rw [granted, windows_nil]; exact List.Sublist.refl _
  | case2 t ts ih =>
      rw [granted_cons]
      have hall := ((t :: ts.takeWhile (· < t + W)).take_sublist max).append ih
      rwa [List.cons_append, List.takeWhile_append_dropWhile] at hall

/-- The calls that a filter passes at or after the moment the filter ends. -/
theorem countP_granted_eq_zero {W b : τ} {ts : List τ} {p : τ → Bool}
    (hb : ∀ t ∈ ts, b ≤ t) (hp : ∀ t, b ≤ t → p t = false) :
    (granted W max ts).countP p = 0 := by
  rw [List.countP_eq_zero]
  intro t ht
  rw [hp t (hb t ((granted_sublist W ts).subset ht))]
  exact Bool.false_ne_true

variable [AddRightMono τ]

/-- **TWICE THE LIMIT**: an interval as long as a window meets at most two of
    them, so it holds at most `2 * max` granted calls. -/
theorem granted_le (W : τ) (x : τ) (ts : List τ) (hs : ts.Pairwise (· ≤ ·)) :
    (granted W max ts).countP (fun t => x ≤ t ∧ t < x + W) ≤ 2 * max := by
  induction ts using windows.induct W with
  | case1 => rw [granted, windows_nil]; exact Nat.zero_le _
  | case2 t ts ih =>
      have hdrop : (ts.dropWhile (· < t + W)).Pairwise (· ≤ ·) :=
        (List.pairwise_cons.mp hs).2.sublist (List.dropWhile_sublist _)
      rw [granted_cons, List.countP_append]
      by_cases hmeet : ∃ t' ∈ t :: ts.takeWhile (· < t + W), x ≤ t' ∧ t' < x + W
      · -- the first window meets the interval: only one more can
        have hfirst := countP_take_le max (t :: ts.takeWhile (· < t + W))
          (fun t => decide (x ≤ t ∧ t < x + W))
        suffices hnext : (granted W max (ts.dropWhile (· < t + W))).countP
            (fun t => decide (x ≤ t ∧ t < x + W)) ≤ max by omega
        obtain ⟨t', ht', hx, -⟩ := hmeet
        cases hd : ts.dropWhile (· < t + W) with
        | nil => rw [granted, windows_nil]; exact Nat.zero_le _
        | cons d ds =>
            have hxd : x ≤ d := by
              have hend := end_le_of_dropWhile hd
              have hle : ∀ u ∈ ts, t ≤ u := (List.pairwise_cons.mp hs).1
              have hdts : d ∈ ts := (List.dropWhile_sublist _).subset
                (hd ▸ List.mem_cons_self : d ∈ ts.dropWhile (· < t + W))
              rcases List.mem_cons.mp ht' with rfl | hin
              · exact le_trans hx (hle d hdts)
              · exact le_trans hx (le_trans (le_of_lt (lt_end_of_mem hin)) hend)
            -- and the ones after that start past its end
            have hlast : (granted W max (ds.dropWhile (· < d + W))).countP
                (fun t => decide (x ≤ t ∧ t < x + W)) = 0 := by
              refine countP_granted_eq_zero (b := x + W) ?_ ?_
              · intro u hu
                rw [hd] at hdrop
                have hsorted : (ds.dropWhile (· < d + W)).Pairwise (· ≤ ·) :=
                  (List.pairwise_cons.mp hdrop).2.sublist (List.dropWhile_sublist _)
                cases he : ds.dropWhile (· < d + W) with
                | nil => rw [he] at hu; cases hu
                | cons e es =>
                    have hde : x + W ≤ e :=
                      le_trans (add_le_add_left hxd W) (end_le_of_dropWhile he)
                    rw [he] at hu hsorted
                    rcases List.mem_cons.mp hu with rfl | hin
                    · exact hde
                    · exact le_trans hde ((List.pairwise_cons.mp hsorted).1 u hin)
              · intro u hu
                exact decide_eq_false fun h => absurd h.2 (not_lt.mpr hu)
            rw [granted_cons, List.countP_append, hlast, Nat.add_zero]
            exact countP_take_le _ _ _
      · have hnone : ((t :: ts.takeWhile (· < t + W)).take max).countP
            (fun t => decide (x ≤ t ∧ t < x + W)) = 0 := by
          rw [List.countP_eq_zero]
          intro u hu hin
          exact hmeet ⟨u, List.mem_of_mem_take hu, of_decide_eq_true hin⟩
        rw [hnone, Nat.zero_add]
        exact ih hdrop

end FixedWindow
