import PeerChat.HubRunProofs

/-! # The hub against its history — every interleaving, overflows and panics included

    `HubRun.step` stops at a panic, and its channels only fill.  Here a run goes
    on in both directions: a `writePump` receives from a channel, and a panic in
    a request handler is caught by gin's recovery, so other callers go on with
    the hub it left behind.

    What the map holds and which channels are closed is a function of the
    history alone: who was registered, on whom `Unregister` was run, and whom it
    found in the map. -/

namespace HubRun

open PeerEnv BufferedChan PeerHub Transition ThreadPool

variable {β : Type}

/-- What happens around the hub. -/
inductive Event (β : Type) where
  /-- A caller takes its next atomic step. -/
  | act (a : Act β)
  /-- A `writePump` receives from the channel of `c`. -/
  | receive (c : ClientId)
  /-- The panic was in a request handler, and its recovery has caught it. -/
  | recovered

/-- A run, and the clients an `Unregister` has taken out of the map, newest
    first. -/
structure Audit (β : Type) where
  run : Run β
  removed : List ClientId

/-- The client a step runs `Unregister` on: its own, or the one whose queue a
    `Send` has found full. -/
def unregisters (s : Run β) : Event β → Option ClientId
  | .act (.unregister c) => some c
  | .act (.run i) => match s.jobs[i]? with
    | some j => match j.next with
      | .goto (.evict c) => some c
      | _ => none
    | none => none
  | _ => none

/-- `existing, ok := h.clients[c.UserID]; ok && existing == c`, of the client
    that `Unregister` is run on. -/
def removal (s : Run β) (e : Event β) : Option ClientId :=
  (unregisters s e).filter fun c => s.hub.holds c

/-- The run after one event. -/
def occurs (s : Run β) : Event β → Option (Run β)
  | .act a => step s a
  | .receive c => match s.hub.panic, (s.hub.chan c).buf with
    | none, _ :: _ => some { s with hub := s.hub.setChan c (s.hub.chan c).tail }
    | _, _ => none
  | .recovered => some { s with hub := { s.hub with panic := none } }

/-- One event, with its removal on record. -/
def audit (s : Audit β) (e : Event β) : Option (Audit β) :=
  (occurs s.run e).map fun t => ⟨t, (removal s.run e).toList ++ s.removed⟩

/-- Each client is registered at most once, and unregistered only after that. -/
def Disciplined (s : Audit β) : Event β → Prop
  | .act a => Lifecycle s.run a
  | _ => True

instance (s : Audit β) (e : Event β) : Decidable (Disciplined s e) :=
  match e with
  | .act a => inferInstanceAs (Decidable (Lifecycle s.run a))
  | .receive _ | .recovered => isTrue trivial

/-- The empty hub, with nothing on record. -/
def begin (who : ClientId → UUID × String) : Audit β := ⟨start who, []⟩

/-- **The state in terms of the history.** -/
structure Agrees (s : Audit β) : Prop where
  /-- The last client of `u` to be registered, and no `Unregister` of it since:
      by the callers' discipline there was none before. -/
  slot : ∀ u c, s.run.hub.clients u = some c ↔
    lastOf s.run u = some c ∧ c ∉ s.run.unregistered
  held : ∀ u c, s.run.hub.clients u = some c →
    s.run.hub.userOf c = u ∧ (s.run.hub.chan c).closed = false
  closed : ∀ c, (s.run.hub.chan c).closed = true ↔ c ∈ s.removed
  once : s.removed.Nodup
  intact : s.run.hub.panic ≠ some .closeOfClosed

/-- **What one event does to the map and to the channels.** -/
structure Exact (s : Audit β) (e : Event β) (t : Audit β) : Prop where
  closes : ∀ c, (s.run.hub.chan c).closed ≠ (t.run.hub.chan c).closed ↔
    unregisters s.run e = some c ∧ s.run.hub.clients (s.run.hub.userOf c) = some c
  vacates : ∀ c, unregisters s.run e = some c →
    s.run.hub.clients (s.run.hub.userOf c) = some c →
      t.run.hub.clients = Function.update s.run.hub.clients (s.run.hub.userOf c) none
  displaced : ∀ c, unregisters s.run e = some c →
    s.run.hub.clients (s.run.hub.userOf c) ≠ some c → t.run.hub = s.run.hub

/-! ## What an `Unregister` does -/

/-- An entry is dropped, or nothing happens. -/
theorem unregister_clients (h : Hub β) (c : ClientId) : (h.unregister c).clients =
    if h.holds c then Function.update h.clients (h.userOf c) none else h.clients := by
  rw [Hub.unregister]
  split
  · rfl
  · rfl

/-- A channel gets closed exactly where `Unregister` finds its client in the map. -/
theorem unregister_closed (h : Hub β) (c d : ClientId) :
    ((h.unregister c).chan d).closed = true ↔
      (h.chan d).closed = true ∨ (d = c ∧ h.holds c) := by
  by_cases hc : h.holds c
  · by_cases hd : d = c
    · rw [hd, unregister_chan_self hc]
      exact ⟨fun _ => Or.inr ⟨rfl, hc⟩, fun _ => rfl⟩
    · rw [unregister_chan_ne h hd]
      exact ⟨Or.inl, fun hor => hor.elim id fun hbad => absurd hbad.1 hd⟩
  · rw [unregister_of_not_holds hc]
    exact ⟨Or.inl, fun hor => hor.elim id fun hbad => absurd hbad.2 hc⟩

/-- A channel that is open can be closed. -/
theorem unregister_panic {h : Hub β} {c : ClientId}
    (hopen : h.holds c → (h.chan c).closed = false) : (h.unregister c).panic = h.panic := by
  rw [Hub.unregister]
  split
  · rename_i hc
    simp only [hopen hc, Bool.false_eq_true, if_false]
  · rfl

/-- **An event runs one `Unregister`, or closes nothing.** -/
inductive Effect (s : Run β) (e : Event β) (t : Run β) : Prop where
  | ended (c : ClientId) (hc : unregisters s e = some c) (hhub : t.hub = s.hub.unregister c)
  | kept (hnone : unregisters s e = none)
      (hclosed : ∀ c, (t.hub.chan c).closed = (s.hub.chan c).closed)
      (hpanic : t.hub.panic = some .closeOfClosed → s.hub.panic = some .closeOfClosed)

/-- One step of a `Send`. -/
theorem effect_of_send {s : Run β} {i : Nat} {j : Job β} {pc : SendPc} {h : Hub β}
    {next : SendNext} (hi : s.jobs[i]? = some j) (hpc : j.next = .goto pc)
    (hsend : SendStep s.hub j.toID j.data pc h next) :
    Effect s (.act (.run i)) (afterSend s i j pc h next) := by
  -- away from an eviction the step runs no `Unregister`
  have hnone : (∀ c, pc ≠ .evict c) → unregisters s (.act (.run i)) = none := by
    intro hne
    simp only [unregisters, hi, hpc]
    cases pc with
    | evict c => exact absurd rfl (hne c)
    | _ => rfl
  cases hsend with
  | offline hno => exact .kept (hnone fun c hc => by cases hc) (fun _ => rfl) id
  | found c hc => exact .kept (hnone fun c hc => by cases hc) (fun _ => rfl) id
  | sent c ch hch => exact .kept (hnone fun c hc => by cases hc) (push_closed hch) id
  | full c hopen hfull => exact .kept (hnone fun c hc => by cases hc) (fun _ => rfl) id
  | panic c hclosed =>
      refine .kept (hnone fun c hc => by cases hc) (fun _ => rfl) ?_
      intro hbad
      cases hbad
  | evict c =>
      refine .ended c ?_ rfl
      simp only [unregisters, hi, hpc]

theorem receive_closed (h : Hub β) (c d : ClientId) :
    ((h.setChan c (h.chan c).tail).chan d).closed = (h.chan d).closed := by
  by_cases hd : d = c
  · rw [hd, setChan_chan_self]
    rfl
  · rw [setChan_chan_ne h _ hd]

theorem effect_of_occurs {s t : Run β} {e : Event β} (h : occurs s e = some t) :
    Effect s e t := by
  cases e with
  | act a =>
      cases step_cases h with
      | register c => exact .kept rfl (fun _ => rfl) id
      | unregister c => exact .ended c rfl rfl
      | call toID data => exact .kept rfl (fun _ => rfl) id
      | run i j pc hub next hi hpc hsend => exact effect_of_send hi hpc hsend
  | receive c =>
      simp only [occurs] at h
      split at h
      · cases h
        exact .kept rfl (receive_closed s.hub c) id
      · cases h
  | recovered =>
      cases h
      exact .kept rfl (fun _ => rfl) fun hbad => by cases hbad

/-! ## Every run -/

/-- The slots keep in step with the registrations, whatever else happens. -/
theorem tracked_occurs {s t : Run β} {e : Event β} (ht : Tracked s)
    (hG : ∀ a, e = .act a → Lifecycle s a) (h : occurs s e = some t) : Tracked t := by
  cases e with
  | act a => exact tracked_step ht (hG a rfl) (step_cases h)
  | receive c =>
      simp only [occurs] at h
      split at h
      · -- what is buffered goes, and the map stays
        cases h
        have huser : ∀ d, (s.hub.setChan c (s.hub.chan c).tail).userOf d = s.hub.userOf d :=
          fun d => setChan_userOf s.hub c d _
        refine ⟨?_, ?_, ht.ended, ht.seen⟩
        · intro u d
          have hlast := lastOf_congr (s := s)
            (t := { s with hub := s.hub.setChan c (s.hub.chan c).tail }) rfl huser u
          rw [hlast]
          exact ht.slot u d
        · intro d hd
          rw [receive_closed]
          exact ht.opened d hd
      · cases h
  | recovered =>
      cases h
      exact ⟨ht.slot, ht.opened, ht.ended, ht.seen⟩

/-- An entry of the map is open, and filed under its own user. -/
theorem held_of_tracked {s : Run β} (ht : Tracked s) {u : UUID} {c : ClientId}
    (hc : s.hub.clients u = some c) :
    s.hub.userOf c = u ∧ (s.hub.chan c).closed = false :=
  ⟨s.hub.owned u c hc, ht.opened c ((ht.slot u c).mp hc).2⟩

theorem mem_removal {s : Run β} {e : Event β} {c : ClientId} :
    c ∈ (removal s e).toList ↔
      unregisters s e = some c ∧ s.hub.clients (s.hub.userOf c) = some c := by
  rw [removal, Option.mem_toList, Option.filter_eq_some_iff, decide_eq_true_eq]
  rfl

/-- What is kept beside the slots: the removals are the closed channels. -/
structure Closings (s : Audit β) : Prop where
  closed : ∀ c, (s.run.hub.chan c).closed = true ↔ c ∈ s.removed
  once : s.removed.Nodup
  intact : s.run.hub.panic ≠ some .closeOfClosed

theorem closings_step {s t : Audit β} {e : Event β} (ht : Tracked s.run) (hi : Closings s)
    (h : audit s e = some t) : Closings t := by
  obtain ⟨run, hrun, rfl⟩ := Option.map_eq_some_iff.mp h
  cases effect_of_occurs hrun with
  | ended c hc hhub =>
      have hopen : s.run.hub.holds c → (s.run.hub.chan c).closed = false :=
        fun hholds => (held_of_tracked ht hholds).2
      refine ⟨?_, ?_, ?_⟩
      · intro d
        rw [hhub, unregister_closed, hi.closed d, List.mem_append, mem_removal, hc,
          Option.some.injEq, or_comm]
        refine or_congr_left ?_
        constructor
        · rintro ⟨rfl, hholds⟩
          exact ⟨rfl, hholds⟩
        · rintro ⟨rfl, hholds⟩
          exact ⟨rfl, hholds⟩
      · refine List.nodup_append.mpr ⟨?_, hi.once, ?_⟩
        · cases removal s.run e with
          | none => exact List.nodup_nil
          | some d => exact List.nodup_singleton d
        · -- a client that is in the map has not been removed before
          intro d hd d' hd' heq
          obtain ⟨-, hholds⟩ := mem_removal.mp hd
          have hstill := (hi.closed d).mpr (heq ▸ hd')
          rw [(held_of_tracked ht hholds).2] at hstill
          cases hstill
      · rw [hhub, unregister_panic hopen]
        exact hi.intact
  | kept hnone hclosed hpanic =>
      have hremoval : (removal s.run e).toList = [] := by
        rw [removal, hnone]
        rfl
      refine ⟨?_, ?_, fun hbad => hi.intact (hpanic hbad)⟩
      · intro d
        rw [hclosed, hremoval]
        exact hi.closed d
      · rw [hremoval]
        exact hi.once

theorem agrees_of_reach {who : ClientId → UUID × String} {s : Audit β}
    (h : Reach audit Disciplined (begin who) s) : Tracked s.run ∧ Closings s := by
  refine Reach.invariant (I := fun s => Tracked s.run ∧ Closings s) ?_ h
    ⟨start_tracked who, ?_⟩
  · rintro s e t ⟨ht, hc⟩ hG hstep
    refine ⟨?_, closings_step ht hc hstep⟩
    obtain ⟨run, hrun, rfl⟩ := Option.map_eq_some_iff.mp hstep
    refine tracked_occurs ht ?_ hrun
    rintro a rfl
    exact hG
  · refine ⟨?_, List.nodup_nil, fun hbad => by cases hbad⟩
    intro c
    constructor
    · intro hbad
      cases hbad
    · intro hbad
      cases hbad

/-- In a state that keeps step with its history, an event closes and vacates
    exactly what its `Unregister` finds. -/
theorem exact_of_audit {s t : Audit β} {e : Event β} (ht : Tracked s.run)
    (h : audit s e = some t) : Exact s e t := by
  obtain ⟨run, hrun, rfl⟩ := Option.map_eq_some_iff.mp h
  cases effect_of_occurs hrun with
  | ended c hc hhub =>
      refine ⟨?_, ?_, ?_⟩
      · intro d
        rw [hhub, hc, Option.some.injEq]
        have hiff := unregister_closed s.run.hub c d
        constructor
        · intro hne
          by_contra hnot
          refine hne (Bool.eq_iff_iff.mpr (hiff.trans ⟨?_, Or.inl⟩).symm)
          rintro (hcl | ⟨rfl, hholds⟩)
          · exact hcl
          · exact absurd ⟨rfl, hholds⟩ hnot
        · rintro ⟨rfl, hholds⟩
          rw [(held_of_tracked ht hholds).2, hiff.mpr (Or.inr ⟨rfl, hholds⟩)]
          exact Bool.false_ne_true
      · intro d hd hholds
        rw [hc] at hd
        rw [← Option.some.inj hd] at hholds ⊢
        have hfound : s.run.hub.holds c := hholds
        rw [hhub, unregister_clients, if_pos hfound]
      · intro d hd hnot
        rw [hc] at hd
        rw [← Option.some.inj hd] at hnot
        rw [hhub, unregister_of_not_holds hnot]
  | kept hnone hclosed hpanic =>
      refine ⟨?_, ?_, ?_⟩
      · intro d
        rw [hclosed, hnone]
        exact ⟨fun hne => absurd rfl hne, fun hbad => by cases hbad.1⟩
      · intro d hd
        rw [hnone] at hd
        cases hd
      · intro d hd
        rw [hnone] at hd
        cases hd

/-- **THE HUB REFINES ITS HISTORY**: in every run of the server's callers, the
    map holds the newest client of each user unless an `Unregister` of it has run
    since, under its own user and with an open channel; a channel is closed once,
    by the `Unregister` that takes its client out of the map; and an `Unregister`
    of a displaced client changes nothing. -/
theorem hub_refines_history {who : ClientId → UUID × String} {s : Audit β}
    (h : Reach audit Disciplined (begin who) s) :
    Agrees s ∧ ∀ e t, audit s e = some t → Exact s e t := by
  obtain ⟨ht, hc⟩ := agrees_of_reach h
  refine ⟨?_, fun e t hstep => exact_of_audit ht hstep⟩
  exact ⟨ht.slot, fun u c hu => held_of_tracked ht hu, hc.closed, hc.once, hc.intact⟩

/-- Client 1 displaces client 0 under a `Send` that has looked client 0 up; when
    both connections have ended, only client 1 has been taken out of the map. -/
theorem hub_refines_history_displaced : ∃ s : Audit Nat,
    Reach audit Disciplined (begin oneUser) s ∧ s.removed = [1] ∧
      s.run.unregistered = [0, 1] ∧ Agrees s := by
  obtain ⟨s, hs, hremoved, hunreg⟩ := exists_reach_of_replayGuarded audit Disciplined
    (begin oneUser)
    ([.act (.register 0), .act (.call ⟨1⟩ 5), .act (.run 0), .act (.register 1),
      .act (.run 0), .receive 0, .act (.unregister 1), .act (.unregister 0)] :
        List (Event Nat))
    (fun s => s.removed = [1] ∧ s.run.unregistered = [0, 1]) (by decide)
  exact ⟨s, hs, hremoved, hunreg, (hub_refines_history hs).1⟩

end HubRun
