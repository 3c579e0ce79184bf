import PeerChat.TransitionProofs
import PeerChat.WebSocketProofs

/-! # Reconnecting — every order of close events, timers and token changes

    All effect instances of a component share one socket ref and one timer ref,
    and the sockets of a cancelled instance go on closing after the next instance
    has started.

    Two results.  At most one socket is live, it is the current instance's, and a
    cancelled instance never creates another.  But reconnecting can stall: a close
    event of an old socket takes the pending timer of the current instance away
    and puts its own in its place, which then finds its instance cancelled. -/

namespace PeerWeb

open Transition

namespace Hook

/-- What happens to a mounted component. -/
inductive SocketEvent where
  /-- The effect runs again: the token has changed, or the component was unmounted;
      `signedIn` says whether there is a token for a new instance. -/
  | rerun (signedIn : Bool)
  | opened (i : Nat)
  | closing (i : Nat)
  | closed (i : Nat)
  | timer

/-- The cleanup of the instance before, if it had one. -/
def leave (h : Hook) : Hook := if h.current.isSome then h.cleanup else h

def next (h : Hook) : SocketEvent → Option Hook
  | .rerun signedIn => some (if signedIn then h.leave.effect else h.leave)
  | .opened i => h.onopen i
  | .closing i => h.closing i
  | .closed i => h.onclose i
  | .timer => h.onTimer

/-- **The event, case by case**, with what has been checked of the socket or the timer. -/
inductive Stepped (h : Hook) : SocketEvent → Hook → Prop where
  | rerun (signedIn : Bool) :
      Stepped h (.rerun signedIn) (if signedIn then h.leave.effect else h.leave)
  | opened (i owner : Nat) (hget : h.sockets[i]? = some ⟨owner, .connecting⟩) :
      Stepped h (.opened i) { h.setReadyState i .opened with reconnectDelay := 1000 }
  | closing (i owner : Nat) (hget : h.sockets[i]? = some ⟨owner, .opened⟩) :
      Stepped h (.closing i) (h.setReadyState i .closing)
  | closed (i : Nat) (ws : Socket) (hget : h.sockets[i]? = some ws)
      (hst : ws.readyState ≠ .closed) :
      Stepped h (.closed i)
        { h.setReadyState i .closed with reconnectTimer := some ws.owner }
  | timer (owner : Nat) (ho : h.reconnectTimer = some owner) :
      Stepped h .timer (connect { h with
        reconnectTimer := none
        reconnectDelay := min (h.reconnectDelay * 2) 30000 } owner)

/-- **WHAT AN EVENT DOES TO THE HOOK**, event by event. -/
theorem next_cases {h t : Hook} {e : SocketEvent} (hs : h.next e = some t) : Stepped h e t := by
  cases e with
  | rerun signedIn =>
      cases hs
      exact .rerun signedIn
  | opened i =>
      simp only [next, onopen] at hs
      split at hs
      · rename_i owner hget
        cases hs
        exact .opened i owner hget
      · cases hs
  | closing i =>
      simp only [next, closing] at hs
      split at hs
      · rename_i owner hget
        cases hs
        exact .closing i owner hget
      · cases hs
  | closed i =>
      simp only [next, onclose] at hs
      split at hs
      · cases hs
      · cases hs
      · rename_i ws hopen hget
        cases hs
        exact .closed i ws hget fun hst => hopen ws.owner (by rw [← hst])
  | timer =>
      simp only [next, onTimer] at hs
      obtain ⟨owner, ho, rfl⟩ := Option.map_eq_some_iff.mp hs
      exact .timer owner ho

/-- CONNECTING or OPEN. -/
def live (ws : Socket) : Prop := ws.readyState = .connecting ∨ ws.readyState = .opened

instance (ws : Socket) : Decidable (live ws) := inferInstanceAs (Decidable (_ ∨ _))

/-- How many sockets an instance has created. -/
def created (h : Hook) (owner : Nat) : Nat := (h.sockets.map Socket.owner).count owner

/-- **What holds of the refs.**  A socket of the current instance that has not closed
    is the one behind the ref; and when the instance's own timer is pending it has
    none. -/
structure Tidy (h : Hook) : Prop where
  owners : ∀ ws ∈ h.sockets, ws.owner < h.instances
  timers : ∀ o ∈ h.reconnectTimer, o < h.instances
  instances : ∀ c ∈ h.current, c < h.instances
  lives : ∀ ws ∈ h.sockets, live ws → h.current = some ws.owner
  ref : ∀ i ws, h.sockets[i]? = some ws → h.current = some ws.owner →
    ws.readyState ≠ .closed → h.wsRef = some i
  pending : ∀ c, h.current = some c → h.reconnectTimer = some c →
    ∀ ws ∈ h.sockets, ws.owner = c → ws.readyState = .closed

/-! ## What the operations do to the sockets -/

/-- A socket after one of them has been replaced, traced back. -/
theorem getElem?_of_modify {l : List Socket} {f : Socket → Socket} {i j : Nat} {ws : Socket}
    (h : (l.modify i f)[j]? = some ws) :
    ∃ ws₀, l[j]? = some ws₀ ∧ ((j = i ∧ ws = f ws₀) ∨ (j ≠ i ∧ ws = ws₀)) := by
  rw [List.getElem?_modify] at h
  obtain ⟨ws₀, hget, heq⟩ := Option.map_eq_some_iff.mp h
  refine ⟨ws₀, hget, ?_⟩
  by_cases hij : i = j
  · rw [if_pos hij] at heq
    exact Or.inl ⟨hij.symm, heq.symm⟩
  · rw [if_neg hij] at heq
    exact Or.inr ⟨fun hji => hij hji.symm, heq.symm⟩

@[simp] theorem close_owner (ws : Socket) : ws.close.owner = ws.owner := by
  obtain ⟨owner, st⟩ := ws
  cases st <;> rfl

theorem not_live_close (ws : Socket) : ¬ live ws.close := by
  obtain ⟨owner, st⟩ := ws
  cases st <;> simp [live, Socket.close]

/-- A socket that `connect` may have appended. -/
theorem getElem?_of_append {l : List Socket} {new ws : Socket} {i : Nat}
    (h : (l ++ [new])[i]? = some ws) : l[i]? = some ws ∨ (i = l.length ∧ ws = new) := by
  rw [List.getElem?_append] at h
  split at h
  · exact Or.inl h
  · rename_i hlen
    right
    obtain ⟨hlt, heq⟩ := List.getElem?_eq_some_iff.mp h
    rw [List.length_singleton] at hlt
    have hi : i = l.length := by omega
    refine ⟨hi, ?_⟩
    rw [hi, Nat.sub_self] at h
    exact (Option.some.inj h).symm

/-- A page without sockets is tidy. -/
theorem fresh_tidy : Tidy fresh where
  owners := by intro ws hws; cases hws
  timers := by intro o ho; cases ho
  instances := by intro c hc; cases hc
  lives := by intro ws hws; cases hws
  ref := by intro i ws hws; cases hws
  pending := by intro c hc; cases hc

/-- After a cleanup no socket is live: the only one that could be is behind the ref. -/
theorem tidy_cleanup {h : Hook} (ht : Tidy h) : Tidy h.cleanup := by
  -- every socket of the list after it, traced back
  have hback : ∀ j ws, h.cleanup.sockets[j]? = some ws → ∃ ws₀, h.sockets[j]? = some ws₀ ∧
      ws.owner = ws₀.owner ∧ (live ws → h.wsRef ≠ some j ∧ ws = ws₀) := by
    intro j ws hget
    simp only [cleanup] at hget
    split at hget
    · rename_i i hi
      obtain ⟨ws₀, h₀, ⟨hj, rfl⟩ | ⟨hj, rfl⟩⟩ := getElem?_of_modify hget
      · exact ⟨ws₀, h₀, close_owner ws₀, fun hlive => absurd hlive (not_live_close ws₀)⟩
      · refine ⟨ws, h₀, rfl, fun _ => ⟨?_, rfl⟩⟩
        rw [hi]
        exact fun heq => hj (Option.some.inj heq).symm
    · rename_i hi
      refine ⟨ws, hget, rfl, fun _ => ⟨?_, rfl⟩⟩
      rw [hi]
      exact fun heq => by cases heq
  refine ⟨?_, fun o ho => (by cases ho), fun c hc => (by cases hc), ?_,
    fun i ws _ hc => (by cases hc), fun c hc => (by cases hc)⟩
  · intro ws hws
    obtain ⟨j, hj⟩ := List.mem_iff_getElem?.mp hws
    obtain ⟨ws₀, h₀, howner, -⟩ := hback j ws hj
    rw [howner]
    exact ht.owners ws₀ (List.mem_of_getElem? h₀)
  · intro ws hws hlive
    obtain ⟨j, hj⟩ := List.mem_iff_getElem?.mp hws
    obtain ⟨ws₀, h₀, -, hkept⟩ := hback j ws hj
    obtain ⟨hne, rfl⟩ := hkept hlive
    have hcurrent := ht.lives ws (List.mem_of_getElem? h₀) hlive
    refine absurd (ht.ref j ws h₀ hcurrent ?_) hne
    rcases hlive with hst | hst
    · rw [hst]
      exact fun heq => by cases heq
    · rw [hst]
      exact fun heq => by cases heq

/-- An effect that is cleaned up leaves the hook tidy, and nobody current. -/
theorem tidy_leave {h : Hook} (ht : Tidy h) : Tidy h.leave ∧ h.leave.current = none := by
  rw [leave]
  split
  · exact ⟨tidy_cleanup ht, rfl⟩
  · rename_i hc
    exact ⟨ht, by simpa using hc⟩

/-- `connect` of an instance that has no socket that could still be live. -/
theorem tidy_connect {h : Hook} (ht : Tidy h) {o : Nat} (hcurrent : h.current = some o)
    (htimer : h.reconnectTimer ≠ some o)
    (hclosed : ∀ ws ∈ h.sockets, ws.owner = o → ws.readyState = .closed) :
    Tidy (h.connect o) := by
  rw [connect, if_pos hcurrent]
  refine ⟨?_, ht.timers, ht.instances, ?_, ?_, ?_⟩
  · intro ws hws
    rcases List.mem_append.mp hws with hold | hnew
    · exact ht.owners ws hold
    · rw [List.mem_singleton.mp hnew]
      exact ht.instances o hcurrent
  · intro ws hws hlive
    rcases List.mem_append.mp hws with hold | hnew
    · exact ht.lives ws hold hlive
    · rw [List.mem_singleton.mp hnew]
      exact hcurrent
  · intro i ws hget hown hopen
    rcases getElem?_of_append hget with hold | ⟨rfl, -⟩
    · -- the sockets from before have closed
      have howner : o = ws.owner := Option.some.inj (hcurrent.symm.trans hown)
      exact absurd (hclosed ws (List.mem_of_getElem? hold) howner.symm) hopen
    · rfl
  · intro c hc hpending
    have hoc : o = c := Option.some.inj (hcurrent.symm.trans hc)
    rw [hoc] at htimer
    exact absurd hpending htimer

/-- An effect that runs where nobody is current leaves the hook tidy. -/
theorem tidy_effect {h : Hook} (ht : Tidy h) (hnone : h.current = none) : Tidy h.effect := by
  rw [effect]
  refine tidy_connect (h := { h with
    instances := h.instances + 1, current := some h.instances }) ?_ rfl ?_ ?_
  · refine ⟨?_, ?_, ?_, ?_, ?_, ?_⟩
    · intro ws hws
      exact Nat.lt_succ_of_lt (ht.owners ws hws)
    · intro o ho
      exact Nat.lt_succ_of_lt (ht.timers o ho)
    · intro c hc
      rw [← Option.some.inj hc]
      exact Nat.lt_succ_self _
    · intro ws hws hlive
      have hcurrent := ht.lives ws hws hlive
      rw [hnone] at hcurrent
      cases hcurrent
    · intro i ws hget hown
      have hlt := ht.owners ws (List.mem_of_getElem? hget)
      rw [← Option.some.inj hown] at hlt
      exact absurd hlt (Nat.lt_irrefl _)
    · intro c hc hpending
      have hlt := ht.timers c hpending
      rw [← Option.some.inj hc] at hlt
      exact absurd hlt (Nat.lt_irrefl _)
  · intro hpending
    exact absurd (ht.timers _ hpending) (Nat.lt_irrefl _)
  · intro ws hws howner
    have hlt := ht.owners ws hws
    rw [howner] at hlt
    exact absurd hlt (Nat.lt_irrefl _)

/-- A socket that has not closed goes on to another state; it does not come alive. -/
theorem tidy_setReadyState {h : Hook} (ht : Tidy h) {i : Nat} {ws₀ : Socket}
    {st : ReadyState} (hget : h.sockets[i]? = some ws₀) (hopen : ws₀.readyState ≠ .closed)
    (hlive : live { ws₀ with readyState := st } → live ws₀) : Tidy (h.setReadyState i st) := by
  have hback : ∀ j ws, (h.setReadyState i st).sockets[j]? = some ws →
      ∃ ws₁, h.sockets[j]? = some ws₁ ∧ ws.owner = ws₁.owner ∧ (live ws → live ws₁) ∧
        (ws.readyState ≠ .closed → ws₁.readyState ≠ .closed) ∧ (j ≠ i → ws = ws₁) := by
    intro j ws hj
    obtain ⟨ws₁, h₁, ⟨rfl, rfl⟩ | ⟨hne, rfl⟩⟩ := getElem?_of_modify hj
    · have heq : ws₁ = ws₀ := Option.some.inj (h₁.symm.trans hget)
      rw [heq] at h₁ ⊢
      exact ⟨ws₀, h₁, rfl, hlive, fun _ => hopen, fun hne => absurd rfl hne⟩
    · exact ⟨ws, h₁, rfl, id, id, fun _ => rfl⟩
  refine ⟨?_, ht.timers, ht.instances, ?_, ?_, ?_⟩
  · intro ws hws
    obtain ⟨j, hj⟩ := List.mem_iff_getElem?.mp hws
    obtain ⟨ws₁, h₁, howner, -⟩ := hback j ws hj
    rw [howner]
    exact ht.owners ws₁ (List.mem_of_getElem? h₁)
  · intro ws hws hlive'
    obtain ⟨j, hj⟩ := List.mem_iff_getElem?.mp hws
    obtain ⟨ws₁, h₁, howner, hback₁, -⟩ := hback j ws hj
    rw [howner]
    exact ht.lives ws₁ (List.mem_of_getElem? h₁) (hback₁ hlive')
  · intro j ws hj hown hst
    obtain ⟨ws₁, h₁, howner, -, hclosed, -⟩ := hback j ws hj
    rw [howner] at hown
    exact ht.ref j ws₁ h₁ hown (hclosed hst)
  · intro c hc hpending ws hws howner
    obtain ⟨j, hj⟩ := List.mem_iff_getElem?.mp hws
    obtain ⟨ws₁, h₁, howner₁, -, -, hsame⟩ := hback j ws hj
    have hclosed := ht.pending c hc hpending ws₁ (List.mem_of_getElem? h₁)
      (howner₁.symm.trans howner)
    by_cases hji : j = i
    · -- the socket that moved on was not closed
      rw [hji] at h₁
      rw [Option.some.inj (h₁.symm.trans hget)] at hclosed
      exact absurd hclosed hopen
    · rw [hsame hji]
      exact hclosed

/-- A close that is noticed leaves the hook tidy. -/
theorem tidy_onclose {h : Hook} (ht : Tidy h) {i : Nat} {ws₀ : Socket}
    (hget : h.sockets[i]? = some ws₀) (hopen : ws₀.readyState ≠ .closed) :
    Tidy { h.setReadyState i .closed with reconnectTimer := some ws₀.owner } := by
  have ht' : Tidy (h.setReadyState i .closed) := tidy_setReadyState ht hget hopen fun hlive => by
    rcases hlive with hst | hst <;> cases hst
  refine ⟨ht'.owners, ?_, ht'.instances, ht'.lives, ht'.ref, ?_⟩
  · intro o ho
    rw [← Option.some.inj ho]
    exact ht.owners ws₀ (List.mem_of_getElem? hget)
  · intro c hc hpending ws hws howner
    by_contra hst
    -- another open socket of the instance would be behind the ref as well
    obtain ⟨j, hj⟩ := List.mem_iff_getElem?.mp hws
    have hc₀ : h.current = some ws₀.owner := by
      rw [Option.some.inj hpending]
      exact hc
    have hi := ht.ref i ws₀ hget hc₀ hopen
    obtain ⟨ws₁, h₁, ⟨rfl, rfl⟩ | ⟨hne, rfl⟩⟩ := getElem?_of_modify hj
    · exact hst rfl
    · have hj' := ht.ref j ws h₁ (howner ▸ hc) hst
      exact hne (Option.some.inj (hj'.symm.trans hi))

/-- Every event keeps the hook tidy. -/
theorem tidy_next {h t : Hook} {e : SocketEvent} (ht : Tidy h) (hs : h.next e = some t) :
    Tidy t := by
  cases next_cases hs with
  | rerun signedIn =>
      obtain ⟨hleft, hnone⟩ := tidy_leave ht
      cases signedIn with
      | true => exact tidy_effect hleft hnone
      | false => exact hleft
  | opened i owner hget =>
      have ht' : Tidy (h.setReadyState i .opened) :=
        tidy_setReadyState ht hget (fun hbad => by cases hbad) fun _ => Or.inl rfl
      exact ⟨ht'.owners, ht'.timers, ht'.instances, ht'.lives, ht'.ref, ht'.pending⟩
  | closing i owner hget =>
      exact tidy_setReadyState ht hget (fun hbad => by cases hbad) fun _ => Or.inr rfl
  | closed i ws hget hst => exact tidy_onclose ht hget hst
  | timer o ho =>
      have ht' : Tidy { h with
          reconnectTimer := none, reconnectDelay := min (h.reconnectDelay * 2) 30000 } :=
        ⟨ht.owners, fun o ho => (by cases ho), ht.instances, ht.lives, ht.ref,
          fun c hc hbad => (by cases hbad)⟩
      by_cases hc : h.current = some o
      · exact tidy_connect ht' hc (fun hbad => by cases hbad) (ht.pending o hc ho)
      · rw [connect, if_neg hc]
        exact ht'

/-- The hook is tidy in every run. -/
theorem tidy_of_reach {h : Hook} {G : Hook → SocketEvent → Prop} (hr : Reach next G fresh h) :
    Tidy h :=
  Reach.invariant (fun _ _ _ ht _ hs => tidy_next ht hs) hr fresh_tidy

/-! ## At most one live socket -/

@[simp] theorem created_modify {l : List Socket} {f : Socket → Socket}
    (hf : ∀ ws, (f ws).owner = ws.owner) (i : Nat) :
    (l.modify i f).map Socket.owner = l.map Socket.owner := by
  refine List.ext_getElem? fun j => ?_
  rw [List.getElem?_map, List.getElem?_map, List.getElem?_modify]
  cases l[j]? with
  | none => rfl
  | some ws =>
      by_cases hij : i = j
      · simp [if_pos hij, hf]
      · simp [if_neg hij]

/-- A connection is created for its own effect only. -/
theorem created_connect {h : Hook} {o o' : Nat} (hne : h.current ≠ some o) :
    (h.connect o').created o = h.created o := by
  rw [connect]
  split
  · rename_i hc
    rw [created, List.map_append, List.count_append, List.map_singleton,
      List.count_singleton]
    have hoo : ¬ o' = o := fun heq => hne (heq ▸ hc)
    simp [created, hoo]
  · rfl

/-- An instance that was cancelled: it is past, and not the current one. -/
def Cancelled (h : Hook) (o : Nat) : Prop := o < h.instances ∧ h.current ≠ some o

instance (h : Hook) (o : Nat) : Decidable (h.Cancelled o) :=
  inferInstanceAs (Decidable (_ ∧ _))

/-- A cancelled effect stays so when another is cleaned up. -/
theorem leave_cancelled {h : Hook} {o : Nat} (hc : h.Cancelled o) :
    h.leave.Cancelled o ∧ h.leave.created o = h.created o := by
  rw [leave]
  split
  · refine ⟨⟨hc.1, fun hbad => by cases hbad⟩, ?_⟩
    simp only [created, cleanup]
    split
    · rw [created_modify close_owner]
    · rfl
  · exact ⟨hc, rfl⟩

/-- A cancelled instance stays cancelled, and creates nothing. -/
theorem created_next {h t : Hook} {e : SocketEvent} {o : Nat} (hc : h.Cancelled o)
    (hs : h.next e = some t) : t.Cancelled o ∧ t.created o = h.created o := by
  have hstate : ∀ i st, ((h.setReadyState i st).sockets.map Socket.owner)
      = h.sockets.map Socket.owner := fun i st =>
    created_modify (f := fun ws => { ws with readyState := st }) (fun _ => rfl) i
  cases next_cases hs with
  | rerun signedIn =>
      obtain ⟨hleft, hsame⟩ := leave_cancelled hc
      cases signedIn with
      | false => exact ⟨hleft, hsame⟩
      | true =>
          have hne : some h.leave.instances ≠ some o := fun heq =>
            absurd hleft.1 (by rw [Option.some.inj heq]; exact Nat.lt_irrefl _)
          refine ⟨⟨?_, ?_⟩, ?_⟩
          · simp only [if_true, effect, connect]
            exact Nat.lt_succ_of_lt hleft.1
          · simp only [if_true, effect, connect]
            exact hne
          · simp only [if_true, effect]
            rw [created_connect hne, ← hsame]
            rfl
  | opened i owner hget => exact ⟨hc, congrArg (List.count o) (hstate i .opened)⟩
  | closing i owner hget => exact ⟨hc, congrArg (List.count o) (hstate i .closing)⟩
  | closed i ws hget hst => exact ⟨hc, congrArg (List.count o) (hstate i .closed)⟩
  | timer owner ho =>
      refine ⟨?_, created_connect hc.2⟩
      rw [connect]
      split
      · exact hc
      · exact hc

/-- A cancelled effect creates no connection any more. -/
theorem created_of_reach {h t : Hook} {o : Nat} (hc : h.Cancelled o)
    (hr : Reach next anyStep h t) : t.created o = h.created o := by
  have hboth := Reach.invariant (I := fun t => t.Cancelled o ∧ t.created o = h.created o)
    (fun u e v hu _ hs => ?_) hr ⟨hc, rfl⟩
  · exact hboth.2
  · obtain ⟨hv, hsame⟩ := created_next hu.1 hs
    exact ⟨hv, hsame.trans hu.2⟩

/-- **AT MOST ONE LIVE SOCKET**: whatever the order of token changes, unmounts, close
    events and timers, at most one socket is CONNECTING or OPEN, it is the current
    instance's, and a cancelled instance creates no more sockets. -/
theorem one_live_socket {h : Hook} (hr : Reach next anyStep fresh h) :
    (∀ (i j : Nat) (wi wj : Socket), h.sockets[i]? = some wi → h.sockets[j]? = some wj →
      live wi → live wj → i = j) ∧
    (∀ ws ∈ h.sockets, live ws → h.current = some ws.owner) ∧
    (∀ o, h.Cancelled o → ∀ t, Reach next anyStep h t → t.created o = h.created o) := by
  have ht := tidy_of_reach hr
  have href : ∀ (i : Nat) (ws : Socket), h.sockets[i]? = some ws → live ws →
      h.wsRef = some i := by
    intro i ws hget hlive
    refine ht.ref i ws hget (ht.lives ws (List.mem_of_getElem? hget) hlive) ?_
    rcases hlive with hst | hst
    · rw [hst]
      exact fun heq => by cases heq
    · rw [hst]
      exact fun heq => by cases heq
  refine ⟨?_, ht.lives, fun o hc t => created_of_reach hc⟩
  intro i j wi wj hi hj hlivei hlivej
  exact Option.some.inj ((href i wi hi hlivei).symm.trans (href j wj hj hlivej))

/-- The token changes while the first socket is open; the second is connecting when
    the first closes, and the timer of the first instance fires. -/
theorem one_live_socket_overlap : ∃ h : Hook, h.sockets =
    [⟨0, .closed⟩, ⟨1, .connecting⟩] ∧ h.Cancelled 0 ∧
      ∀ ws ∈ h.sockets, live ws → h.current = some ws.owner := by
  obtain ⟨h, hr, hsockets, hcancelled⟩ := exists_reach_of_replayGuarded next
    (fun _ _ => True) fresh [.rerun true, .opened 0, .rerun true, .closed 0, .timer]
    (fun h => h.sockets = [⟨0, .closed⟩, ⟨1, .connecting⟩] ∧ h.Cancelled 0) (by decide)
  exact ⟨h, hsockets, hcancelled, (one_live_socket (hr.weaken fun _ _ _ => trivial)).2.1⟩

/-! ## Reconnecting -/

/-- The current instance has a socket that has not closed yet, or its own `connect`
    is to come. -/
def Reconnecting (h : Hook) : Prop := ∀ c, h.current = some c →
  (∃ ws ∈ h.sockets, ws.owner = c ∧ ws.readyState ≠ .closed) ∨ h.reconnectTimer = some c

/-- Is the pending timer the current instance's own? -/
def ownTimer (h : Hook) : Prop := h.reconnectTimer ≠ none ∧ h.reconnectTimer = h.current

instance (h : Hook) : Decidable h.ownTimer := inferInstanceAs (Decidable (_ ∧ _))

/-- While the current instance waits for its timer, no socket of another instance
    has its close event. -/
def NoStaleClose (h : Hook) : SocketEvent → Prop
  | .closed i => h.ownTimer → ∀ ws ∈ h.sockets[i]?, h.current = some ws.owner
  | _ => True

instance (h : Hook) (e : SocketEvent) : Decidable (h.NoStaleClose e) :=
  match e with
  | .closed i => inferInstanceAs (Decidable (_ → ∀ ws ∈ h.sockets[i]?, _))
  | .rerun _ | .opened _ | .closing _ | .timer => isTrue trivial

/-- A socket that has not closed, after another state change. -/
theorem unclosed_setReadyState {h : Hook} {i : Nat} {st : ReadyState} {c : Nat}
    (hst : st ≠ .closed ∨ ∀ ws ∈ h.sockets[i]?, ws.owner ≠ c)
    (hopen : ∃ ws ∈ h.sockets, ws.owner = c ∧ ws.readyState ≠ .closed) :
    ∃ ws ∈ (h.setReadyState i st).sockets, ws.owner = c ∧ ws.readyState ≠ .closed := by
  obtain ⟨ws, hws, howner, hws'⟩ := hopen
  obtain ⟨j, hj⟩ := List.mem_iff_getElem?.mp hws
  have hj' : (h.setReadyState i st).sockets[j]?
      = some (if i = j then { ws with readyState := st } else ws) := by
    simp only [setReadyState, List.getElem?_modify, hj]
    split <;> rfl
  refine ⟨_, List.mem_of_getElem? hj', ?_⟩
  by_cases hij : i = j
  · rw [if_pos hij]
    refine ⟨howner, ?_⟩
    rcases hst with hst | hother
    · exact hst
    · rw [hij] at hother
      exact absurd howner (hother ws hj)
  · rw [if_neg hij]
    exact ⟨howner, hws'⟩

/-- A new instance starts with a socket that is CONNECTING. -/
theorem reconnecting_connect {h : Hook} {o : Nat} (hc : h.current = some o) :
    (h.connect o).Reconnecting := by
  intro c hcur
  have hoc : o = c := by
    rw [connect, if_pos hc] at hcur
    exact Option.some.inj (hc.symm.trans hcur)
  refine Or.inl ⟨⟨o, .connecting⟩, ?_, hoc, fun hbad => by cases hbad⟩
  rw [connect, if_pos hc]
  exact List.mem_concat_self

/-- The close event of another instance's socket ends the wait for good. -/
theorem stalled_of_staleClose {h : Hook} (ht : Tidy h) {c : Nat} (hc : h.current = some c)
    (hpending : h.reconnectTimer = some c) {i : Nat} {ws₀ : Socket} (hne : ws₀.owner ≠ c) :
    ¬ Reconnecting { h.setReadyState i .closed with reconnectTimer := some ws₀.owner } := by
  intro hr
  rcases hr c hc with ⟨ws, hws, howner, hopen⟩ | htimer
  · obtain ⟨j, hj⟩ := List.mem_iff_getElem?.mp hws
    obtain ⟨ws₁, h₁, ⟨-, rfl⟩ | ⟨-, rfl⟩⟩ := getElem?_of_modify hj
    · exact hopen rfl
    · exact hopen (ht.pending c hc hpending ws (List.mem_of_getElem? h₁) howner)
  · exact hne (Option.some.inj htimer)

/-- A close event: its `onclose` sets the timer, for the instance of the socket. -/
theorem reconnecting_onclose_iff {h : Hook} (ht : Tidy h) (hr : h.Reconnecting) {i : Nat}
    {ws₀ : Socket} (hget : h.sockets[i]? = some ws₀) :
    Reconnecting { h.setReadyState i .closed with reconnectTimer := some ws₀.owner } ↔
      h.NoStaleClose (.closed i) := by
  constructor
  · intro hafter hown ws hws
    obtain ⟨hsome, heq⟩ := hown
    obtain ⟨c, hpending⟩ := Option.ne_none_iff_exists'.mp hsome
    have hc : h.current = some c := by rw [← heq, hpending]
    have hws₀ : ws = ws₀ := Option.some.inj (hws.symm.trans hget)
    by_contra hne
    refine stalled_of_staleClose ht hc hpending ?_ hafter
    intro howner
    rw [hws₀, howner] at hne
    exact hne hc
  · intro hG c hc
    by_cases howner : ws₀.owner = c
    · exact Or.inr (congrArg some howner)
    · -- somebody else's socket: the timer was not the instance's own
      rcases hr c hc with hopen | hpending
      · refine Or.inl (unclosed_setReadyState (Or.inr ?_) hopen)
        intro ws hws
        rw [Option.some.inj (hws.symm.trans hget)]
        exact howner
      · have hown : h.ownTimer :=
          ⟨by rw [hpending]; exact Option.some_ne_none c, hpending.trans hc.symm⟩
        have hcur := hG hown ws₀ hget
        exact absurd (Option.some.inj (hcur.symm.trans hc)) howner

/-- **ONE EVENT**: a component that is reconnecting still is, unless a socket of
    another instance closes while it waits for its own timer. -/
theorem reconnecting_next_iff {h t : Hook} {e : SocketEvent} (ht : Tidy h)
    (hr : h.Reconnecting) (hs : h.next e = some t) : t.Reconnecting ↔ h.NoStaleClose e := by
  have hstate : ∀ j st, st ≠ .closed → Reconnecting (h.setReadyState j st) := by
    intro j st hst c hc
    rcases hr c hc with hopen | hpending
    · exact Or.inl (unclosed_setReadyState (Or.inl hst) hopen)
    · exact Or.inr hpending
  cases next_cases hs with
  | rerun signedIn =>
      refine iff_of_true ?_ trivial
      cases signedIn with
      | true => exact reconnecting_connect rfl
      | false =>
          intro c hc
          rw [if_neg Bool.false_ne_true, (tidy_leave ht).2] at hc
          cases hc
  | opened i owner hget =>
      exact iff_of_true (hstate i .opened fun hbad => by cases hbad) trivial
  | closing i owner hget =>
      exact iff_of_true (hstate i .closing fun hbad => by cases hbad) trivial
  | closed i ws hget hst => exact reconnecting_onclose_iff ht hr hget
  | timer o ho =>
      refine iff_of_true ?_ trivial
      by_cases hc : h.current = some o
      · exact reconnecting_connect hc
      · rw [connect, if_neg hc]
        intro c hcur
        rcases hr c hcur with hopen | hpending
        · exact Or.inl hopen
        · rw [hpending] at ho
          exact absurd (hcur.trans ho) hc

/-- **RECONNECTING NEVER STALLS**, in every run in which no socket of a cancelled
    instance closes while the current instance waits for its own timer. -/
theorem always_reconnecting {h : Hook} (hr : Reach next NoStaleClose fresh h) :
    h.Reconnecting :=
  Reach.invariant_using (fun _ hu => tidy_of_reach hu)
    (fun _ _ _ ht hi hG hs => (reconnecting_next_iff ht hi hs).mpr hG) hr
    (fun c hc => by cases hc)

/-- The second instance's socket fails and its timer is set; then the first instance's
    socket closes. -/
theorem reconnecting_stalls :
    ¬ ∀ h : Hook, Reach next anyStep fresh h → h.Reconnecting := by
  obtain ⟨h, hr, hcurrent, hclosed, htimer⟩ := exists_reach_of_replayGuarded next
    (fun _ _ => True) fresh
    [.rerun true, .opened 0, .rerun true, .closed 1, .closed 0, .timer]
    (fun h => h.current = some 1 ∧ (∀ ws ∈ h.sockets, ws.readyState = .closed) ∧
      h.reconnectTimer = none) (by decide)
  intro hall
  rcases hall h (hr.weaken fun _ _ _ => trivial) 1 hcurrent with ⟨ws, hws, -, hopen⟩ | hpending
  · exact hopen (hclosed ws hws)
  · rw [htimer] at hpending
    cases hpending

/-- The old socket closes first, then the new one fails and its timer is pending. -/
theorem always_reconnecting_overlap : ∃ h : Hook, h.sockets =
    [⟨0, .closed⟩, ⟨1, .closed⟩] ∧ h.reconnectTimer = some 1 ∧ h.Reconnecting := by
  obtain ⟨h, hr, hsockets, htimer⟩ := exists_reach_of_replayGuarded next NoStaleClose
    fresh [.rerun true, .opened 0, .rerun true, .closed 0, .closed 1]
    (fun h => h.sockets = [⟨0, .closed⟩, ⟨1, .closed⟩] ∧ h.reconnectTimer = some 1)
    (by decide)
  exact ⟨h, hsockets, htimer, always_reconnecting hr⟩

end Hook

end PeerWeb
