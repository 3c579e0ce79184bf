import PeerChat.WebClientProofs

/-! # Frames the client owes

    `handleSend` shows an entry and the ack effect marks messages as read; each owes
    the server a frame.  `send` drops it unless the socket is OPEN, and nothing keeps
    it for later: there is no queue. -/

namespace PeerWeb

/-- A 'message' or an 'ack'. -/
def OutFrame.isOwed : OutFrame → Bool
  | .message .. => true
  | .ack .. => true
  | .presenceCheck _ => false
  | .ping => false
  | .typing _ => false

namespace Client

/-- The frames owed for a whole run. -/
def owedRun (getTime : String → Option Int) (c : Client) : List ClientEvent → List OutFrame
  | [] => []
  | e :: es => c.owed e ++ ((c.step getTime e).elim [] fun c' => c'.owedRun getTime es)

/-- A step that owes a frame finds the socket OPEN. -/
def OwesWhileOpen (c : Client) (e : ClientEvent) : Prop :=
  c.owed e ≠ [] → c.hook.refOpen = true

/-- What is written of the frames owed. -/
def paidRun (getTime : String → Option Int) (c : Client) : List ClientEvent → List OutFrame
  | [] => []
  | e :: es => (if c.hook.refOpen then c.owed e else []) ++
      ((c.step getTime e).elim [] fun c' => c'.paidRun getTime es)

/-- The frames written so far that were owed. -/
def paid (c : Client) : List OutFrame := c.written.filter OutFrame.isOwed

variable {getTime : String → Option Int} {c c' : Client}

/-! ## What is paid of what is owed -/

/-- What an event owes is a message or an ack. -/
theorem isOwed_owed {e : ClientEvent} {f : OutFrame} (hf : f ∈ c.owed e) : f.isOwed = true := by
  cases e with
  | send id timestamp =>
      rw [owed] at hf
      split at hf
      · split at hf
        · cases hf
        · rw [List.mem_singleton.mp hf]
          rfl
      · cases hf
  | ackEffect =>
      rw [owed] at hf
      split at hf
      · obtain ⟨id, -, rfl⟩ := List.mem_map.mp hf
        rfl
      · cases hf
  | _ => cases hf

/-- So is what a run owes. -/
theorem isOwed_owedRun {es : List ClientEvent} {f : OutFrame}
    (hf : f ∈ c.owedRun getTime es) : f.isOwed = true := by
  induction es generalizing c with
  | nil => cases hf
  | cons e es ih =>
      rcases List.mem_append.mp hf with hone | hrest
      · exact isOwed_owed hone
      · cases hstep : c.step getTime e with
        | none =>
            rw [hstep] at hrest
            cases hrest
        | some c' =>
            rw [hstep] at hrest
            exact ih hrest

/-- Whatever an event owes is owed. -/
theorem filter_owed (c : Client) (e : ClientEvent) :
    (c.owed e).filter OutFrame.isOwed = c.owed e :=
  List.filter_eq_self.mpr fun _ hf => isOwed_owed hf

/-- A presence check is not owed. -/
theorem filter_presenceFrames (c : Client) :
    c.presenceFrames.filter OutFrame.isOwed = [] := by
  rw [presenceFrames]
  split <;> rfl

/-- Of what a step owes, what it writes: all of it or nothing. -/
theorem filter_writes (c : Client) (e : ClientEvent) :
    (c.writes e).filter OutFrame.isOwed = if c.hook.refOpen then c.owed e else [] := by
  have hnothing : ∀ b : Bool, (if b = true then ([] : List OutFrame) else []) = [] := by
    intro b
    cases b <;> rfl
  cases e with
  | send id timestamp =>
      rw [writes]
      split
      · exact filter_owed c _
      · rfl
  | ackEffect =>
      rw [writes]
      split
      · exact filter_owed c _
      · rfl
  | input body =>
      have hnone : c.owed (.input body) = [] := rfl
      rw [writes, hnone, hnothing]
      split
      · cases c.window <;> rfl
      · rfl
  | opened ws => exact (filter_presenceFrames c).trans (hnothing _).symm
  | heartbeat ws => exact (filter_presenceFrames c).trans (hnothing _).symm
  | frame ws f =>
      refine Eq.trans ?_ (hnothing c.hook.refOpen).symm
      cases f <;> rfl
  | _ => exact (hnothing _).symm

/-- An event pays all it owes through an open socket, and nothing through a closed one. -/
theorem paid_step {e : ClientEvent} (h : c.step getTime e = some c') :
    c'.paid = c.paid ++ if c.hook.refOpen then c.owed e else [] := by
  rw [paid, (step_cases h).written, List.filter_append, filter_writes]
  rfl

/-- What a run pays is what its events pay. -/
theorem paid_run {es : List ClientEvent} (h : c.run getTime es = some c') :
    c'.paid = c.paid ++ c.paidRun getTime es := by
  induction es generalizing c with
  | nil =>
      cases h
      exact (List.append_nil _).symm
  | cons e es ih =>
      obtain ⟨mid, hstep, hrest⟩ := Option.bind_eq_some_iff.mp h
      rw [ih hrest, paid_step hstep, List.append_assoc, paidRun, hstep]
      rfl

/-- Nothing is paid that is not owed, and in that order. -/
theorem paidRun_sublist (getTime : String → Option Int) (c : Client) (es : List ClientEvent) :
    (c.paidRun getTime es).Sublist (c.owedRun getTime es) := by
  induction es generalizing c with
  | nil => exact List.Sublist.refl _
  | cons e es ih =>
      refine List.Sublist.append ?_ ?_
      · split
        · exact List.Sublist.refl _
        · exact List.nil_sublist _
      · cases c.step getTime e with
        | none => exact List.Sublist.refl _
        | some c' => exact ih c'

/-- Everything is paid exactly if nothing is owed while the socket is not OPEN. -/
theorem paidRun_eq_iff (getTime : String → Option Int) (c : Client) (es : List ClientEvent) :
    c.paidRun getTime es = c.owedRun getTime es ↔ c.Always getTime OwesWhileOpen es := by
  induction es generalizing c with
  | nil => exact ⟨fun _ => trivial, fun _ => rfl⟩
  | cons e es ih =>
      have hrest : ((c.step getTime e).elim [] fun c' => c'.paidRun getTime es)
            = ((c.step getTime e).elim [] fun c' => c'.owedRun getTime es) ↔
          ((c.step getTime e).elim True fun c' => c'.Always getTime OwesWhileOpen es) := by
        cases c.step getTime e with
        | none => exact ⟨fun _ => trivial, fun _ => rfl⟩
        | some c' => exact ih c'
      have hle : ((c.step getTime e).elim [] fun c' => c'.paidRun getTime es).length
          ≤ ((c.step getTime e).elim [] fun c' => c'.owedRun getTime es).length := by
        cases c.step getTime e with
        | none => exact Nat.le_refl _
        | some c' => exact (paidRun_sublist getTime c' es).length_le
      rw [paidRun, owedRun, Always, OwesWhileOpen, ← hrest]
      by_cases hopen : c.hook.refOpen = true
      · rw [if_pos hopen]
        constructor
        · intro heq
          exact ⟨fun _ => hopen, List.append_cancel_left heq⟩
        · rintro ⟨-, heq⟩
          rw [heq]
      · rw [if_neg hopen, List.nil_append]
        constructor
        · intro heq
          -- the rest cannot make up for a frame dropped here: it pays no more than it owes
          have hnone : c.owed e = [] := by
            have hlength := congrArg List.length heq
            rw [List.length_append] at hlength
            exact List.eq_nil_of_length_eq_zero (by omega)
          rw [hnone, List.nil_append] at heq
          exact ⟨fun hne => absurd hnone hne, heq⟩
        · rintro ⟨howes, heq⟩
          have hnone : c.owed e = [] := by
            by_contra hne
            exact hopen (howes hne)
          rw [hnone, List.nil_append, heq]

/-- **NOTHING IS LOST, AS LONG AS NOTHING IS OWED WHILE THE SOCKET IS NOT OPEN.** -/
theorem nothing_lost_iff {es : List ClientEvent} (h : start.run getTime es = some c) :
    (start.owedRun getTime es).Sublist c.written ↔ start.Always getTime OwesWhileOpen es := by
  have hpaid : c.paid = start.paidRun getTime es := paid_run h
  rw [← paidRun_eq_iff]
  constructor
  · intro hsub
    have howed : (start.owedRun getTime es).filter OutFrame.isOwed
        = start.owedRun getTime es :=
      List.filter_eq_self.mpr fun _ hf => isOwed_owedRun hf
    have hsub' := hsub.filter OutFrame.isOwed
    rw [howed] at hsub'
    have hle : (start.owedRun getTime es).length ≤ (start.paidRun getTime es).length := by
      rw [← hpaid]
      exact hsub'.length_le
    exact (paidRun_sublist getTime start es).eq_of_length_le hle
  · intro heq
    rw [← heq, ← hpaid]
    exact List.filter_sublist

/-- Alice logs in; her first socket is CONNECTING. -/
def aliceLogsIn : List ClientEvent := [.login ⟨"t", "alice", "alice"⟩]

/-- She writes to bob. -/
def aliceWrites : List ClientEvent :=
  [.openChat "bob", .input "hello", .send "c1" "2026-04-07T10:00:00Z"]

/-- The socket opens before she writes. -/
theorem nothing_lost_opened : ∃ c,
    start.run sampleTime (aliceLogsIn ++ .opened 0 :: aliceWrites) = some c ∧
    (start.owedRun sampleTime (aliceLogsIn ++ .opened 0 :: aliceWrites)).Sublist c.written := by
  have hrun : ∃ c, start.run sampleTime (aliceLogsIn ++ .opened 0 :: aliceWrites) = some c :=
    ⟨_, rfl⟩
  obtain ⟨c, hc⟩ := hrun
  refine ⟨c, hc, (nothing_lost_iff hc).mpr ?_⟩
  exact ⟨absurd rfl, absurd rfl, absurd rfl, absurd rfl, fun _ => rfl, trivial⟩

/-- Before that the message is shown, and its frame is nowhere. -/
theorem written_while_connecting : ¬ ∀ (c : Client) (es : List ClientEvent),
    start.run sampleTime es = some c → (start.owedRun sampleTime es).Sublist c.written := by
  intro hall
  have hrun : ∃ c, start.run sampleTime (aliceLogsIn ++ aliceWrites) = some c ∧ c.written = [] ∧
      start.owedRun sampleTime (aliceLogsIn ++ aliceWrites) = [.message "bob" "hello" "c1"] :=
    ⟨_, rfl, rfl, rfl⟩
  obtain ⟨c, hc, hwritten, howed⟩ := hrun
  have hsub := hall c _ hc
  rw [howed, hwritten] at hsub
  exact absurd (List.sublist_nil.mp hsub) (List.cons_ne_nil _ _)

end Client

end PeerWeb
