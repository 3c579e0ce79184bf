import PeerChat.TransitionProofs
import PeerChat.HubProofs
import PeerChat.RouterProofs

/-! # One subscription per live user — the hub and the router side by side

    A connection registers with the hub, subscribes with the router, lives, and
    undoes both when its `readPump` ends.  The hub's `Unregister` checks that
    the entry it deletes is its own client; the router's `Subscribe` overwrites
    whatever entry is there and its `Unsubscribe` deletes whatever it finds. -/

namespace Subscription

open PeerEnv BufferedChan PeerHub PeerRouter Transition

/-- Where a connection stands between `ServeWS` and the end of
    `onDisconnect`. -/
inductive Phase where
  | fresh
  | registered
  | opened (sub : SubId)
  | live
  | unregistered
  | unfiled (sub : Option SubId)
  | ended
  deriving DecidableEq

/-- The hub, the router, and every connection's phase; `conns` lists the
    connections that have started. -/
structure State (β : Type) where
  hub : Hub β
  router : Router β
  phase : ClientId → Phase
  conns : List ClientId

variable {β : Type}

inductive Act where
  /-- `hub.Register(client)` in `ServeWS`. -/
  | register (c : ClientId)
  /-- The first half of `router.Subscribe` in `onConnect`. -/
  | openSub (c : ClientId)
  /-- The second half. -/
  | file (c : ClientId)
  /-- Redis activates a subscription. -/
  | activate (sub : SubId)
  /-- `hub.Unregister(c)` in `readPump`. -/
  | unregister (c : ClientId)
  /-- The first half of `router.Unsubscribe` in `onDisconnect`. -/
  | unfile (c : ClientId)
  /-- The second half. -/
  | close (c : ClientId)

/-- Nothing has connected; `who` says whose client every `*Client` will be. -/
def start (who : ClientId → UUID × String) : State β :=
  ⟨newHub (fun c => newRealClient (who c).1 (who c).2), newRouter, fun _ => .fresh, []⟩

def State.setPhase (s : State β) (c : ClientId) (p : Phase) : State β :=
  { s with phase := Function.update s.phase c p }

/-- One atomic step, enabled by the phase of its connection. -/
def step (s : State β) : Act → Option (State β)
  | .register c =>
      if s.phase c = .fresh then
        some ({ s with hub := s.hub.register c, conns := c :: s.conns }.setPhase
          c .registered)
      else none
  | .openSub c =>
      if s.phase c = .registered then
        some ({ s with router := s.router.openSub (s.hub.userOf c) }.setPhase c
          (.opened s.router.opened))
      else none
  | .file c =>
      match s.phase c with
      | .opened sub =>
          some ({ s with router := s.router.file (s.hub.userOf c) sub }.setPhase c .live)
      | _ => none
  | .activate sub => some { s with router := s.router.activate sub }
  | .unregister c =>
      if s.phase c = .live then
        some ({ s with hub := s.hub.unregister c }.setPhase c .unregistered)
      else none
  | .unfile c =>
      if s.phase c = .unregistered then
        some ({ s with router := s.router.unfile (s.hub.userOf c) }.setPhase c
          (.unfiled (s.router.subs (s.hub.userOf c))))
      else none
  | .close c =>
      match s.phase c with
      | .unfiled (some sub) =>
          some ({ s with router := s.router.close sub }.setPhase c .ended)
      | .unfiled none => some (s.setPhase c .ended)
      | _ => none

/-- Between its `Register` and its `Unregister`. -/
def Phase.up : Phase → Bool
  | .registered => true
  | .opened _ => true
  | .live => true
  | _ => false

/-- Has the phase a filed subscription of its own? -/
def Phase.subscribed : Phase → Bool
  | .live => true
  | .unregistered => true
  | _ => false

/-- No connect and no disconnect is in progress. -/
def Phase.quiet : Phase → Bool
  | .fresh => true
  | .live => true
  | .ended => true
  | _ => false

/-- The condition on a step: a subscription is filed only where none is filed,
    and the hub's entry of a user is deleted only when no other connection of
    that user is up. -/
def OneAtATime (s : State β) : Act → Prop
  | .file c => s.router.subs (s.hub.userOf c) = none
  | .unregister c => s.hub.holds c → ∀ d ∈ s.conns, d ≠ c →
      s.hub.userOf d = s.hub.userOf c → (s.phase d).up = false
  | _ => True

instance (s : State β) (a : Act) : Decidable (OneAtATime s a) :=
  match a with
  | .file _ => inferInstanceAs (Decidable (_ = none))
  | .unregister _ => inferInstanceAs (Decidable (_ → ∀ d ∈ s.conns, _))
  | .register _ | .openSub _ | .activate _ | .unfile _ | .close _ => isTrue trivial

/-- No connect or disconnect of `u` is in progress. -/
def Quiet (s : State β) (u : UUID) : Prop :=
  ∀ c ∈ s.conns, s.hub.userOf c = u → (s.phase c).quiet = true

instance (s : State β) (u : UUID) : Decidable (Quiet s u) :=
  inferInstanceAs (Decidable (∀ c ∈ _, _))

/-- Every forwarder that got a copy of the payload has sent it to the hub. -/
def forwarded (s : State β) (u : UUID) (data : β) : Hub β :=
  (s.router.hearing u).foldl (fun h _ => (h.send u data).1) s.hub

/-- **ONE SUBSCRIPTION PER LIVE USER**: the open subscriptions number one if the
    hub holds a client of `u` and zero otherwise; so, once they are active, a
    payload published for `u` is enqueued on the client of `u` exactly once. -/
def OneSubscription (s : State β) (u : UUID) : Prop :=
  (s.router.openFor u).length = (if s.hub.isOnline u then 1 else 0) ∧
    ((∀ j ∈ s.router.openFor u, (s.router.pubsub j).active = true) →
      ∀ data, (forwarded s u data).log
        = s.hub.log ++ (s.hub.clients u).toList.map fun c => (c, data))

/-! ## The step, case by case -/

inductive Stepped (s : State β) : Act → State β → Prop where
  | register (c : ClientId) (hp : s.phase c = .fresh) : Stepped s (.register c)
      ({ s with hub := s.hub.register c, conns := c :: s.conns }.setPhase c .registered)
  | openSub (c : ClientId) (hp : s.phase c = .registered) : Stepped s (.openSub c)
      ({ s with router := s.router.openSub (s.hub.userOf c) }.setPhase c
        (.opened s.router.opened))
  | file (c : ClientId) (sub : SubId) (hp : s.phase c = .opened sub) :
      Stepped s (.file c)
        ({ s with router := s.router.file (s.hub.userOf c) sub }.setPhase c .live)
  | activate (sub : SubId) :
      Stepped s (.activate sub) { s with router := s.router.activate sub }
  | unregister (c : ClientId) (hp : s.phase c = .live) : Stepped s (.unregister c)
      ({ s with hub := s.hub.unregister c }.setPhase c .unregistered)
  | unfile (c : ClientId) (hp : s.phase c = .unregistered) : Stepped s (.unfile c)
      ({ s with router := s.router.unfile (s.hub.userOf c) }.setPhase c
        (.unfiled (s.router.subs (s.hub.userOf c))))
  | close (c : ClientId) (sub : SubId) (hp : s.phase c = .unfiled (some sub)) :
      Stepped s (.close c) ({ s with router := s.router.close sub }.setPhase c .ended)
  | closeNone (c : ClientId) (hp : s.phase c = .unfiled none) :
      Stepped s (.close c) (s.setPhase c .ended)

/-- **WHAT A STEP DOES**, action by action. -/
theorem step_cases {s t : State β} {a : Act} (h : step s a = some t) : Stepped s a t := by
  cases a with
  | register c =>
      obtain ⟨hp, ht⟩ := Option.ite_none_right_eq_some.mp h
      exact Option.some.inj ht ▸ .register c hp
  | openSub c =>
      obtain ⟨hp, ht⟩ := Option.ite_none_right_eq_some.mp h
      exact Option.some.inj ht ▸ .openSub c hp
  | file c =>
      cases hp : s.phase c with
      | opened sub =>
          simp only [step, hp] at h
          exact Option.some.inj h ▸ .file c sub hp
      | _ =>
          simp only [step, hp] at h
          cases h
  | activate sub => exact Option.some.inj h ▸ .activate sub
  | unregister c =>
      obtain ⟨hp, ht⟩ := Option.ite_none_right_eq_some.mp h
      exact Option.some.inj ht ▸ .unregister c hp
  | unfile c =>
      obtain ⟨hp, ht⟩ := Option.ite_none_right_eq_some.mp h
      exact Option.some.inj ht ▸ .unfile c hp
  | close c =>
      cases hp : s.phase c with
      | unfiled o =>
          cases o with
          | some sub =>
              simp only [step, hp] at h
              exact Option.some.inj h ▸ .close c sub hp
          | none =>
              simp only [step, hp] at h
              exact Option.some.inj h ▸ .closeNone c hp
      | _ =>
          simp only [step, hp] at h
          cases h

@[simp] theorem setPhase_self (s : State β) (c : ClientId) (p : Phase) :
    (s.setPhase c p).phase c = p := by
  simp [State.setPhase]

theorem setPhase_ne (s : State β) {c d : ClientId} (p : Phase) (hd : d ≠ c) :
    (s.setPhase c p).phase d = s.phase d := by
  simp [State.setPhase, Function.update_of_ne hd]

/-- What is seen of a phase is `c`'s new one or what it was. -/
theorem setPhase_cases {γ : Type} (f : Phase → γ) {x : γ} {s : State β} {c d : ClientId}
    {p : Phase} (h : f ((s.setPhase c p).phase d) = x) :
    (d = c ∧ f p = x) ∨ (d ≠ c ∧ f (s.phase d) = x) := by
  by_cases hd : d = c
  · rw [hd, setPhase_self] at h
    exact Or.inl ⟨hd, h⟩
  · rw [setPhase_ne _ _ hd] at h
    exact Or.inr ⟨hd, h⟩

/-- The same of a predicate that `c`'s new phase does not satisfy. -/
theorem setPhase_other {f : Phase → Bool} {s : State β} {c d : ClientId} {p : Phase}
    (h : f ((s.setPhase c p).phase d) = true) (hp : f p = false) :
    d ≠ c ∧ f (s.phase d) = true := by
  rcases setPhase_cases f h with ⟨-, hnew⟩ | hold
  · rw [hp] at hnew
    cases hnew
  · exact hold

/-- A client belongs to one user for good. -/
theorem Stepped.userOf {s t : State β} {a : Act} (h : Stepped s a t) (c : ClientId) :
    t.hub.userOf c = s.hub.userOf c := by
  cases h with
  | unregister d _ => exact unregister_userOf s.hub d c
  | _ => rfl

/-! ## The hub's half -/

/-- The hub holds a client of every user with a connection that is up, and no
    client but one that is up. -/
structure HubInv (s : State β) : Prop where
  known : ∀ c, s.phase c ≠ .fresh → c ∈ s.conns
  unused : ∀ c, s.phase c = .fresh ∨ (s.phase c).up = true →
    s.hub.chan c = make sendBuffer
  held : ∀ u c, s.hub.clients u = some c → (s.phase c).up = true
  holds : ∀ c, (s.phase c).up = true → ∃ d, s.hub.clients (s.hub.userOf c) = some d

/-- Nobody is connected at the start. -/
theorem start_hubInv (who : ClientId → UUID × String) : HubInv (start who : State β) where
  known := by intro c hc; exact absurd rfl hc
  unused := by intro c _; rfl
  held := by intro u c hc; cases hc
  holds := by intro c hc; cases hc

/-- A step of one connection that neither starts it nor takes it down, and
    leaves the hub alone, keeps the hub's half. -/
theorem hubInv_of_phase {s t : State β} {c : ClientId} {p : Phase} (hi : HubInv s)
    (hh : t.hub = s.hub) (hc : t.conns = s.conns)
    (hp : t.phase = Function.update s.phase c p)
    (hold : s.phase c ≠ .fresh) (hup : p.up = (s.phase c).up) (hnew : p ≠ .fresh) :
    HubInv t := by
  have hphase : ∀ d, (t.phase d).up = (s.phase d).up := by
    intro d
    rw [hp]
    by_cases hd : d = c
    · rw [hd, Function.update_self, hup]
    · rw [Function.update_of_ne hd]
  have hfresh : ∀ d, t.phase d = .fresh ↔ s.phase d = .fresh := by
    intro d
    rw [hp]
    by_cases hd : d = c
    · rw [hd, Function.update_self]
      exact ⟨fun h => absurd h hnew, fun h => absurd h hold⟩
    · rw [Function.update_of_ne hd]
  refine ⟨?_, ?_, ?_, ?_⟩
  · intro d hd
    rw [hc]
    exact hi.known d (fun h => hd ((hfresh d).mpr h))
  · intro d hd
    rw [hfresh, hphase] at hd
    rw [hh]
    exact hi.unused d hd
  · intro u d hd
    rw [hphase]
    rw [hh] at hd
    exact hi.held u d hd
  · intro d hd
    rw [hphase] at hd
    rw [hh]
    exact hi.holds d hd

/-- A fresh connection may register. -/
theorem HubInv.register {s : State β} {c : ClientId} (hi : HubInv s) (hp : s.phase c = .fresh) :
    HubInv ({ s with hub := s.hub.register c, conns := c :: s.conns }.setPhase c
      .registered) where
  known := by
    intro d hd
    by_cases hdc : d = c
    · rw [hdc]
      exact List.mem_cons_self
    · rw [setPhase_ne _ _ hdc] at hd
      exact List.mem_cons_of_mem _ (hi.known d hd)
  unused := by
    intro d hd
    by_cases hdc : d = c
    · rw [hdc]
      exact hi.unused c (Or.inl hp)
    · rw [setPhase_ne _ _ hdc] at hd
      exact hi.unused d hd
  held := by
    intro u d hd
    by_cases hdc : d = c
    · rw [hdc, setPhase_self]
      rfl
    · rw [setPhase_ne _ _ hdc]
      by_cases hu : u = s.hub.userOf c
      · rw [hu] at hd
        have hcd : some c = some d := (register_clients_self s.hub c).symm.trans hd
        exact absurd (Option.some.inj hcd).symm hdc
      · exact hi.held u d ((register_clients_ne s.hub hu).symm.trans hd)
  holds := by
    intro d hd
    by_cases hu : s.hub.userOf d = s.hub.userOf c
    · exact ⟨c, (congrArg _ hu).trans (register_clients_self s.hub c)⟩
    · rcases setPhase_cases Phase.up hd with ⟨hdc, -⟩ | ⟨-, hup⟩
      · exact absurd (congrArg s.hub.userOf hdc) hu
      · obtain ⟨e, he⟩ := hi.holds d hup
        exact ⟨e, (register_clients_ne s.hub hu).trans he⟩

/-- The user's one live connection may unregister. -/
theorem HubInv.unregister {s : State β} {c : ClientId} (hi : HubInv s) (hp : s.phase c = .live)
    (hG : OneAtATime s (.unregister c)) :
    HubInv ({ s with hub := s.hub.unregister c }.setPhase c .unregistered) where
  known := by
    intro d hd
    by_cases hdc : d = c
    · rw [hdc]
      exact hi.known c (by rw [hp]; exact fun h => by cases h)
    · rw [setPhase_ne _ _ hdc] at hd
      exact hi.known d hd
  unused := by
    intro d hd
    by_cases hdc : d = c
    · rw [hdc, setPhase_self] at hd
      rcases hd with hd | hd <;> cases hd
    · rw [setPhase_ne _ _ hdc] at hd
      exact (unregister_chan_ne s.hub hdc).trans (hi.unused d hd)
  held := by
    intro u d hd
    obtain ⟨hold, hdc⟩ := clients_of_unregister hd
    rw [setPhase_ne _ _ hdc]
    exact hi.held u d hold
  holds := by
    intro d hd
    obtain ⟨hdc, hup⟩ := setPhase_other hd rfl
    obtain ⟨e, he⟩ := hi.holds d hup
    have huser : (s.hub.unregister c).userOf d = s.hub.userOf d := unregister_userOf s.hub c d
    show ∃ e, (s.hub.unregister c).clients ((s.hub.unregister c).userOf d) = some e
    rw [huser]
    by_cases hc : s.hub.holds c
    · by_cases hu : s.hub.userOf d = s.hub.userOf c
      · -- the guard: nobody else of this user is up
        have hstarted : d ∈ s.conns := hi.known d (by
          intro hf
          change (s.phase d).up = true at hup
          rw [hf] at hup
          cases hup)
        have hdown : (s.phase d).up = false := hG hc d hstarted hdc hu
        exact absurd (hdown.symm.trans hup) Bool.false_ne_true
      · exact ⟨e, (unregister_clients_ne s.hub hu).trans he⟩
    · rw [unregister_of_not_holds hc]
      exact ⟨e, he⟩

/-- Every step keeps the hub's invariant. -/
theorem hubInv_step {s t : State β} {a : Act} (hi : HubInv s) (hG : OneAtATime s a)
    (h : Stepped s a t) : HubInv t := by
  cases h with
  | register c hp => exact hi.register hp
  | openSub c hp =>
      exact hubInv_of_phase hi rfl rfl rfl (by rw [hp]; exact fun h => by cases h)
        (by rw [hp]; rfl) (fun h => by cases h)
  | file c sub hp =>
      exact hubInv_of_phase hi rfl rfl rfl (by rw [hp]; exact fun h => by cases h)
        (by rw [hp]; rfl) (fun h => by cases h)
  | activate sub => exact ⟨hi.known, hi.unused, hi.held, hi.holds⟩
  | unregister c hp => exact hi.unregister hp hG
  | unfile c hp =>
      exact hubInv_of_phase hi rfl rfl rfl (by rw [hp]; exact fun h => by cases h)
        (by rw [hp]; rfl) (fun h => by cases h)
  | close c sub hp =>
      exact hubInv_of_phase hi rfl rfl rfl (by rw [hp]; exact fun h => by cases h)
        (by rw [hp]; rfl) (fun h => by cases h)
  | closeNone c hp =>
      exact hubInv_of_phase hi rfl rfl rfl (by rw [hp]; exact fun h => by cases h)
        (by rw [hp]; rfl) (fun h => by cases h)

/-! ## The router's half: who has an entry in the map -/

/-- A user has an entry exactly while one of its connections is subscribed, and
    then only one is. -/
structure FiledInv (s : State β) : Prop where
  filed : ∀ c, (s.phase c).subscribed = true → s.router.subs (s.hub.userOf c) ≠ none
  owner : ∀ u, s.router.subs u ≠ none →
    ∃ c, s.hub.userOf c = u ∧ (s.phase c).subscribed = true
  unique : ∀ c d, s.hub.userOf c = s.hub.userOf d → (s.phase c).subscribed = true →
    (s.phase d).subscribed = true → c = d

/-- No subscription is filed at the start. -/
theorem start_filedInv (who : ClientId → UUID × String) :
    FiledInv (start who : State β) where
  filed := by intro c hc; cases hc
  owner := by intro u hu; exact absurd rfl hu
  unique := by intro c d _ hc; cases hc

/-- A step of one connection that leaves the map of subscriptions alone. -/
theorem filedInv_of_phase {s t : State β} {c : ClientId} {p : Phase} (hi : FiledInv s)
    (huser : ∀ d, t.hub.userOf d = s.hub.userOf d) (hr : t.router.subs = s.router.subs)
    (hp : t.phase = Function.update s.phase c p)
    (hsub : p.subscribed = (s.phase c).subscribed) : FiledInv t := by
  have hphase : ∀ d, (t.phase d).subscribed = (s.phase d).subscribed := by
    intro d
    rw [hp]
    by_cases hd : d = c
    · rw [hd, Function.update_self, hsub]
    · rw [Function.update_of_ne hd]
  refine ⟨?_, ?_, ?_⟩
  · intro d hd
    rw [hr, huser]
    exact hi.filed d ((hphase d).symm.trans hd)
  · intro u hu
    rw [hr] at hu
    obtain ⟨d, hd, hs⟩ := hi.owner u hu
    exact ⟨d, (huser d).trans hd, (hphase d).trans hs⟩
  · intro d e hde hd he
    rw [huser, huser] at hde
    exact hi.unique d e hde ((hphase d).symm.trans hd) ((hphase e).symm.trans he)

/-- A connection files its subscription where none was. -/
theorem FiledInv.file {s : State β} {c : ClientId} (hi : FiledInv s) (sub : SubId)
    (hnone : s.router.subs (s.hub.userOf c) = none) :
    FiledInv ({ s with router := s.router.file (s.hub.userOf c) sub }.setPhase c .live) := by
  -- nobody of this user has an entry yet
  have halone : ∀ d, s.hub.userOf d = s.hub.userOf c → (s.phase d).subscribed ≠ true := by
    intro d hu hd
    exact hi.filed d hd (by rw [hu]; exact hnone)
  refine ⟨?_, ?_, ?_⟩
  · intro d hd
    by_cases hu : s.hub.userOf d = s.hub.userOf c
    · show Function.update s.router.subs (s.hub.userOf c) (some sub) (s.hub.userOf d) ≠ none
      rw [hu, Function.update_self]
      exact fun h => by cases h
    · rcases setPhase_cases Phase.subscribed hd with ⟨hdc, -⟩ | ⟨-, hs⟩
      · exact absurd (congrArg s.hub.userOf hdc) hu
      · show (s.router.file (s.hub.userOf c) sub).subs (s.hub.userOf d) ≠ none
        rw [file_subs_ne s.router sub hu]
        exact hi.filed d hs
  · intro u hu
    by_cases huc : u = s.hub.userOf c
    · exact ⟨c, huc.symm, by rw [setPhase_self]; rfl⟩
    · have hold : s.router.subs u ≠ none := by
        intro hn
        apply hu
        exact (file_subs_ne s.router sub huc).trans hn
      obtain ⟨d, hd, hs⟩ := hi.owner u hold
      have hdc : d ≠ c := fun heq => huc (by rw [← hd, heq])
      exact ⟨d, hd, by rw [setPhase_ne _ _ hdc]; exact hs⟩
  · intro d e hde hd he
    rcases setPhase_cases Phase.subscribed hd with ⟨hdc, -⟩ | ⟨-, hds⟩
    · rcases setPhase_cases Phase.subscribed he with ⟨hec, -⟩ | ⟨-, hes⟩
      · rw [hdc, hec]
      · rw [hdc] at hde
        exact absurd hes (halone e hde.symm)
    · rcases setPhase_cases Phase.subscribed he with ⟨hec, -⟩ | ⟨-, hes⟩
      · rw [hec] at hde
        exact absurd hds (halone d hde)
      · exact hi.unique d e hde hds hes

/-- A connection that has unregistered takes its entry out. -/
theorem FiledInv.unfile {s : State β} {c : ClientId} (hi : FiledInv s)
    (hp : s.phase c = .unregistered) (o : Option SubId) :
    FiledInv ({ s with router := s.router.unfile (s.hub.userOf c) }.setPhase c (.unfiled o)) := by
  have hcs : (s.phase c).subscribed = true := by rw [hp]; rfl
  have hother : ∀ d, d ≠ c → (s.phase d).subscribed = true →
      s.hub.userOf d ≠ s.hub.userOf c :=
    fun d hdc hd hu => hdc (hi.unique d c hu hd hcs)
  refine ⟨?_, ?_, ?_⟩
  · intro d hd
    obtain ⟨hdc, hs⟩ := setPhase_other hd rfl
    show (s.router.unfile (s.hub.userOf c)).subs (s.hub.userOf d) ≠ none
    rw [unfile_subs_ne s.router (hother d hdc hs)]
    exact hi.filed d hs
  · intro u hu
    have huc : u ≠ s.hub.userOf c := by
      rintro rfl
      exact hu (unfile_subs_self s.router _)
    have hold : s.router.subs u ≠ none := by
      intro hn
      apply hu
      exact (unfile_subs_ne s.router huc).trans hn
    obtain ⟨d, hd, hs⟩ := hi.owner u hold
    have hdc : d ≠ c := fun heq => huc (by rw [← hd, heq])
    exact ⟨d, hd, by rw [setPhase_ne _ _ hdc]; exact hs⟩
  · intro d e hde hd he
    exact hi.unique d e hde (setPhase_other hd rfl).2 (setPhase_other he rfl).2

/-- Every step keeps what the map of subscriptions holds. -/
theorem filedInv_step {s t : State β} {a : Act} (hi : FiledInv s) (hG : OneAtATime s a)
    (h : Stepped s a t) : FiledInv t := by
  cases h with
  | register c hp =>
      exact filedInv_of_phase (c := c) hi (fun _ => rfl) rfl rfl (by rw [hp]; rfl)
  | openSub c hp =>
      exact filedInv_of_phase (c := c) hi (fun _ => rfl) rfl rfl (by rw [hp]; rfl)
  | file c sub hp => exact hi.file sub hG
  | activate sub => exact ⟨hi.filed, hi.owner, hi.unique⟩
  | unregister c hp =>
      exact filedInv_of_phase (c := c) hi (unregister_userOf s.hub c) rfl rfl
        (by rw [hp]; rfl)
  | unfile c hp => exact hi.unfile hp _
  | close c sub hp =>
      exact filedInv_of_phase (c := c) hi (fun _ => rfl) rfl rfl (by rw [hp]; rfl)
  | closeNone c hp =>
      exact filedInv_of_phase (c := c) hi (fun _ => rfl) rfl rfl (by rw [hp]; rfl)

/-! ## The router's half: which subscriptions are open -/

/-- The subscription a connection holds outside the map. -/
def Phase.sub : Phase → Option SubId
  | .opened sub => some sub
  | .unfiled sub => sub
  | _ => none

/-- An open subscription of its user. -/
def OpenFor (r : Router β) (u : UUID) (j : SubId) : Prop :=
  j < r.opened ∧ (r.pubsub j).userID = u ∧ (r.pubsub j).closed = false

/-- Every open subscription is in the map or in the hands of one connection,
    and never in two places. -/
structure SubInv (s : State β) : Prop where
  held : ∀ c j, (s.phase c).sub = some j → OpenFor s.router (s.hub.userOf c) j
  entry : ∀ u j, s.router.subs u = some j → OpenFor s.router u j
  heldOnce : ∀ c d j, (s.phase c).sub = some j → (s.phase d).sub = some j → c = d
  apart : ∀ c u j, (s.phase c).sub = some j → s.router.subs u ≠ some j
  all : ∀ u j, OpenFor s.router u j →
    s.router.subs u = some j ∨ ∃ c, s.hub.userOf c = u ∧ (s.phase c).sub = some j

/-- No subscription is open at the start. -/
theorem start_subInv (who : ClientId → UUID × String) : SubInv (start who : State β) where
  held := by intro c j h; cases h
  entry := by intro u j h; cases h
  heldOnce := by intro c d j h; cases h
  apart := by intro c u j h; cases h
  all := by intro u j h; exact absurd h.1 (Nat.not_lt_zero j)

/-- A step that leaves the subscriptions and who holds them alone. -/
theorem subInv_of_phase {s t : State β} {c : ClientId} {p : Phase} (hi : SubInv s)
    (huser : ∀ d, t.hub.userOf d = s.hub.userOf d) (hr : t.router = s.router)
    (hp : t.phase = Function.update s.phase c p)
    (hsub : p.sub = (s.phase c).sub) : SubInv t := by
  have hphase : ∀ d, (t.phase d).sub = (s.phase d).sub := by
    intro d
    rw [hp]
    by_cases hd : d = c
    · rw [hd, Function.update_self, hsub]
    · rw [Function.update_of_ne hd]
  refine ⟨?_, ?_, ?_, ?_, ?_⟩
  · intro d j hd
    rw [hr, huser]
    exact hi.held d j ((hphase d).symm.trans hd)
  · intro u j hj
    rw [hr] at hj ⊢
    exact hi.entry u j hj
  · intro d e j hd he
    exact hi.heldOnce d e j ((hphase d).symm.trans hd) ((hphase e).symm.trans he)
  · intro d u j hd
    rw [hr]
    exact hi.apart d u j ((hphase d).symm.trans hd)
  · intro u j hj
    rw [hr] at hj ⊢
    rcases hi.all u j hj with hin | ⟨d, hd, hs⟩
    · exact Or.inl hin
    · exact Or.inr ⟨d, (huser d).trans hd, (hphase d).trans hs⟩

/-- An open subscription was open before, or is the new one. -/
theorem OpenFor.of_openSub {r : Router β} {u v : UUID} {j : SubId}
    (h : OpenFor (r.openSub v) u j) : OpenFor r u j ∨ (j = r.opened ∧ u = v) := by
  obtain ⟨hj, hu, hc⟩ := h
  by_cases hold : j < r.opened
  · rw [openSub_old r v hold] at hu hc
    exact Or.inl ⟨hold, hu, hc⟩
  · rw [openSub_opened] at hj
    have heq : j = r.opened :=
      Nat.le_antisymm (Nat.le_of_lt_succ hj) (Nat.le_of_not_lt hold)
    rw [heq, openSub_self] at hu
    exact Or.inr ⟨heq, hu.symm⟩

/-- An open subscription stays open when another is opened. -/
theorem OpenFor.openSub {r : Router β} {u : UUID} {j : SubId} (h : OpenFor r u j)
    (v : UUID) : OpenFor (r.openSub v) u j := by
  obtain ⟨hj, hu, hc⟩ := h
  refine ⟨Nat.lt_succ_of_lt hj, ?_, ?_⟩
  · rw [openSub_old r v hj]
    exact hu
  · rw [openSub_old r v hj]
    exact hc

/-- Closing a subscription closes that one only. -/
theorem openFor_close {r : Router β} {u : UUID} {j k : SubId} :
    OpenFor (r.close k) u j ↔ OpenFor r u j ∧ j ≠ k := by
  rw [OpenFor]
  by_cases hjk : j = k
  · simp [hjk]
  · rw [close_ne r hjk]
    simp only [ne_eq, hjk, not_false_eq_true, and_true]
    exact Iff.rfl

/-- Activation changes nothing the invariant looks at. -/
theorem SubInv.activate {s : State β} (hi : SubInv s) (sub : SubId) :
    SubInv { s with router := s.router.activate sub } := by
  have hopen : ∀ u j, OpenFor (s.router.activate sub) u j ↔ OpenFor s.router u j := by
    intro u j
    rw [OpenFor]
    rw [activate_userID, activate_closed]
    exact Iff.rfl
  exact ⟨fun c j hc => (hopen _ j).mpr (hi.held c j hc),
    fun u j hj => (hopen u j).mpr (hi.entry u j hj), hi.heldOnce, hi.apart,
    fun u j hj => hi.all u j ((hopen u j).mp hj)⟩

/-- A registered connection opens its one subscription. -/
theorem SubInv.openSub {s : State β} {c : ClientId} (hi : SubInv s)
    (hp : s.phase c = .registered) :
    SubInv ({ s with router := s.router.openSub (s.hub.userOf c) }.setPhase c
      (.opened s.router.opened)) := by
  -- the new subscription is in nobody's hands yet
  have hnew : ∀ d j, (s.phase d).sub = some j → j ≠ s.router.opened := by
    intro d j hd
    exact Nat.ne_of_lt (hi.held d j hd).1
  have hcase : ∀ d j, ((({ s with router := s.router.openSub (s.hub.userOf c) } :
      State β).setPhase c (.opened s.router.opened)).phase d).sub = some j →
      (d = c ∧ j = s.router.opened) ∨ (d ≠ c ∧ (s.phase d).sub = some j) := by
    intro d j hd
    rcases setPhase_cases Phase.sub hd with ⟨hdc, hj⟩ | hold
    · exact Or.inl ⟨hdc, (Option.some.inj hj).symm⟩
    · exact Or.inr hold
  refine ⟨?_, ?_, ?_, ?_, ?_⟩
  · intro d j hd
    rcases hcase d j hd with ⟨rfl, rfl⟩ | ⟨-, hold⟩
    · refine ⟨Nat.lt_succ_self _, ?_, ?_⟩
      · exact congrArg PubSub.userID (openSub_self s.router _)
      · exact congrArg PubSub.closed (openSub_self s.router _)
    · exact (hi.held d j hold).openSub _
  · intro u j hj
    exact (hi.entry u j hj).openSub _
  · intro d e j hd he
    rcases hcase d j hd with ⟨rfl, rfl⟩ | ⟨-, hold⟩
    · rcases hcase e _ he with ⟨rfl, -⟩ | ⟨-, hold'⟩
      · rfl
      · exact absurd rfl (hnew e _ hold')
    · rcases hcase e j he with ⟨rfl, rfl⟩ | ⟨-, hold'⟩
      · exact absurd rfl (hnew d _ hold)
      · exact hi.heldOnce d e j hold hold'
  · intro d u j hd hj
    rcases hcase d j hd with ⟨rfl, rfl⟩ | ⟨-, hold⟩
    · exact absurd (hi.entry u _ hj).1 (Nat.lt_irrefl _)
    · exact hi.apart d u j hold hj
  · intro u j hj
    rcases hj.of_openSub with hold | ⟨rfl, rfl⟩
    · rcases hi.all u j hold with hin | ⟨d, hd, hs⟩
      · exact Or.inl hin
      · have hdc : d ≠ c := by
          rintro rfl
          rw [hp] at hs
          cases hs
        exact Or.inr ⟨d, hd, by rw [setPhase_ne _ _ hdc]; exact hs⟩
    · exact Or.inr ⟨c, rfl, by rw [setPhase_self]; rfl⟩

/-- The subscription that is filed is the one that was opened. -/
theorem SubInv.file {s : State β} {c : ClientId} {sub : SubId} (hi : SubInv s)
    (hp : s.phase c = .opened sub) (hnone : s.router.subs (s.hub.userOf c) = none) :
    SubInv ({ s with router := s.router.file (s.hub.userOf c) sub }.setPhase c .live) := by
  have hcsub : (s.phase c).sub = some sub := by rw [hp]; rfl
  have hcase : ∀ d j, ((({ s with router := s.router.file (s.hub.userOf c) sub } :
      State β).setPhase c .live).phase d).sub = some j → d ≠ c ∧ (s.phase d).sub = some j := by
    intro d j hd
    rcases setPhase_cases Phase.sub hd with ⟨-, hj⟩ | hold
    · cases hj
    · exact hold
  have hsubs : ∀ u j, (s.router.file (s.hub.userOf c) sub).subs u = some j →
      (u = s.hub.userOf c ∧ j = sub) ∨ s.router.subs u = some j := by
    intro u j hj
    by_cases hu : u = s.hub.userOf c
    · rw [hu] at hj
      refine Or.inl ⟨hu, ?_⟩
      exact (Option.some.inj ((file_subs_self s.router _ sub).symm.trans hj)).symm
    · exact Or.inr ((file_subs_ne s.router sub hu).symm.trans hj)
  refine ⟨?_, ?_, ?_, ?_, ?_⟩
  · intro d j hd
    exact hi.held d j (hcase d j hd).2
  · intro u j hj
    rcases hsubs u j hj with ⟨rfl, rfl⟩ | hold
    · exact hi.held c _ hcsub
    · exact hi.entry u j hold
  · intro d e j hd he
    exact hi.heldOnce d e j (hcase d j hd).2 (hcase e j he).2
  · intro d u j hd hj
    obtain ⟨hdc, hs⟩ := hcase d j hd
    rcases hsubs u j hj with ⟨-, rfl⟩ | hold
    · exact hdc (hi.heldOnce d c _ hs hcsub)
    · exact hi.apart d u j hs hold
  · intro u j hj
    rcases hi.all u j hj with hin | ⟨d, hd, hs⟩
    · have hu : u ≠ s.hub.userOf c := by
        rintro rfl
        rw [hnone] at hin
        cases hin
      exact Or.inl ((file_subs_ne s.router sub hu).trans hin)
    · by_cases hdc : d = c
      · rw [hdc, hcsub] at hs
        rw [← hd, hdc, ← Option.some.inj hs]
        exact Or.inl (file_subs_self s.router _ sub)
      · exact Or.inr ⟨d, hd, by rw [setPhase_ne _ _ hdc]; exact hs⟩

/-- The subscription that is taken out is the one to close. -/
theorem SubInv.unfile {s : State β} {c : ClientId} (hi : SubInv s)
    (hp : s.phase c = .unregistered) :
    SubInv ({ s with router := s.router.unfile (s.hub.userOf c) }.setPhase c
      (.unfiled (s.router.subs (s.hub.userOf c)))) := by
  have hcase : ∀ d j, ((({ s with router := s.router.unfile (s.hub.userOf c) } :
      State β).setPhase c (.unfiled (s.router.subs (s.hub.userOf c)))).phase d).sub = some j →
      (d = c ∧ s.router.subs (s.hub.userOf c) = some j) ∨
        (d ≠ c ∧ (s.phase d).sub = some j) :=
    fun _ _ hd => setPhase_cases Phase.sub hd
  have hsubs : ∀ u j, (s.router.unfile (s.hub.userOf c)).subs u = some j →
      u ≠ s.hub.userOf c ∧ s.router.subs u = some j := by
    intro u j hj
    have hu : u ≠ s.hub.userOf c := by
      rintro rfl
      cases (unfile_subs_self s.router _).symm.trans hj
    exact ⟨hu, (unfile_subs_ne s.router hu).symm.trans hj⟩
  refine ⟨?_, ?_, ?_, ?_, ?_⟩
  · intro d j hd
    rcases hcase d j hd with ⟨rfl, hin⟩ | ⟨-, hold⟩
    · exact hi.entry _ j hin
    · exact hi.held d j hold
  · intro u j hj
    exact hi.entry u j (hsubs u j hj).2
  · intro d e j hd he
    rcases hcase d j hd with ⟨rfl, hin⟩ | ⟨-, hold⟩
    · rcases hcase e j he with ⟨rfl, -⟩ | ⟨-, hold'⟩
      · rfl
      · exact absurd hin (hi.apart e _ j hold')
    · rcases hcase e j he with ⟨rfl, hin⟩ | ⟨-, hold'⟩
      · exact absurd hin (hi.apart d _ j hold)
      · exact hi.heldOnce d e j hold hold'
  · intro d u j hd hj
    obtain ⟨hu, hin⟩ := hsubs u j hj
    rcases hcase d j hd with ⟨rfl, hin'⟩ | ⟨-, hold⟩
    · exact hu ((hi.entry u j hin).2.1.symm.trans (hi.entry _ j hin').2.1)
    · exact hi.apart d u j hold hin
  · intro u j hj
    rcases hi.all u j hj with hin | ⟨d, hd, hs⟩
    · by_cases hu : u = s.hub.userOf c
      · refine Or.inr ⟨c, hu.symm, ?_⟩
        rw [setPhase_self, ← hu]
        exact hin
      · exact Or.inl ((unfile_subs_ne s.router hu).trans hin)
    · have hdc : d ≠ c := by
        rintro rfl
        rw [hp] at hs
        cases hs
      exact Or.inr ⟨d, hd, by rw [setPhase_ne _ _ hdc]; exact hs⟩

/-- A subscription that was taken out may be closed. -/
theorem SubInv.close {s : State β} {c : ClientId} {sub : SubId} (hi : SubInv s)
    (hp : s.phase c = .unfiled (some sub)) :
    SubInv ({ s with router := s.router.close sub }.setPhase c .ended) := by
  have hcsub : (s.phase c).sub = some sub := by rw [hp]; rfl
  have hcase : ∀ d j, ((({ s with router := s.router.close sub } :
      State β).setPhase c .ended).phase d).sub = some j → (s.phase d).sub = some j ∧ j ≠ sub := by
    intro d j hd
    rcases setPhase_cases Phase.sub hd with ⟨-, hj⟩ | ⟨hdc, hold⟩
    · cases hj
    · refine ⟨hold, ?_⟩
      rintro rfl
      exact hdc (hi.heldOnce d c _ hold hcsub)
  refine ⟨?_, ?_, ?_, ?_, ?_⟩
  · intro d j hd
    obtain ⟨hs, hne⟩ := hcase d j hd
    exact openFor_close.mpr ⟨hi.held d j hs, hne⟩
  · intro u j hj
    refine openFor_close.mpr ⟨hi.entry u j hj, ?_⟩
    rintro rfl
    exact hi.apart c u _ hcsub hj
  · intro d e j hd he
    exact hi.heldOnce d e j (hcase d j hd).1 (hcase e j he).1
  · intro d u j hd
    exact hi.apart d u j (hcase d j hd).1
  · intro u j hj
    obtain ⟨hold, hne⟩ := openFor_close.mp hj
    rcases hi.all u j hold with hin | ⟨d, hd, hs⟩
    · exact Or.inl hin
    · have hdc : d ≠ c := by
        rintro rfl
        exact hne (Option.some.inj (hs.symm.trans hcsub))
      exact Or.inr ⟨d, hd, by rw [setPhase_ne _ _ hdc]; exact hs⟩

/-- Every step keeps the invariant of the subscriptions. -/
theorem subInv_step {s t : State β} {a : Act} (hi : SubInv s) (hG : OneAtATime s a)
    (h : Stepped s a t) : SubInv t := by
  cases h with
  | register c hp =>
      exact subInv_of_phase (c := c) hi (fun _ => rfl) rfl rfl (by rw [hp]; rfl)
  | openSub c hp => exact hi.openSub hp
  | file c sub hp => exact hi.file hp hG
  | activate sub => exact hi.activate sub
  | unregister c hp =>
      exact subInv_of_phase (c := c) hi (unregister_userOf s.hub c) rfl rfl
        (by rw [hp]; rfl)
  | unfile c hp => exact hi.unfile hp
  | close c sub hp => exact hi.close hp
  | closeNone c hp =>
      exact subInv_of_phase (c := c) hi (fun _ => rfl) rfl rfl (by rw [hp]; rfl)

/-! ## Counting -/

/-- All three invariants hold all along a run. -/
theorem invs_of_reach {who : ClientId → UUID × String} {s : State β}
    (h : Reach step OneAtATime (start who) s) : HubInv s ∧ FiledInv s ∧ SubInv s := by
  refine Reach.invariant (I := fun s => HubInv s ∧ FiledInv s ∧ SubInv s) ?_ h
    ⟨start_hubInv who, start_filedInv who, start_subInv who⟩
  rintro s a t ⟨hhub, hfiled, hsub⟩ hG ht
  have hst := step_cases ht
  exact ⟨hubInv_step hhub hG hst, filedInv_step hfiled hG hst, subInv_step hsub hG hst⟩

/-- A phase that is quiet holds no subscription outside the map. -/
theorem sub_of_quiet {p : Phase} (h : p.quiet = true) : p.sub = none := by
  cases p with
  | opened _ => cases h
  | unfiled _ => cases h
  | _ => rfl

/-- A connection at rest that is up or subscribed is live. -/
theorem live_of_quiet {p : Phase} (h : p.quiet = true)
    (hs : p.up = true ∨ p.subscribed = true) : p = .live := by
  cases p with
  | live => rfl
  | fresh => rcases hs with hs | hs <;> cases hs
  | ended => rcases hs with hs | hs <;> cases hs
  | _ => cases h

/-- Of a quiet user, the open subscriptions are what the map holds. -/
theorem openFor_of_quiet {s : State β} (hh : HubInv s) (hs : SubInv s) {u : UUID}
    (hq : Quiet s u) : s.router.openFor u = (s.router.subs u).toList := by
  have hin : ∀ j, j ∈ s.router.openFor u ↔ s.router.subs u = some j := by
    intro j
    rw [mem_openFor]
    constructor
    · intro hj
      rcases hs.all u j hj with hin | ⟨c, hc, hcs⟩
      · exact hin
      · have hconn : c ∈ s.conns := hh.known c (by
          intro hf
          rw [hf] at hcs
          cases hcs)
        rw [sub_of_quiet (hq c hconn hc)] at hcs
        cases hcs
    · exact hs.entry u j
  cases hsub : s.router.subs u with
  | none =>
      refine List.eq_nil_iff_forall_not_mem.mpr ?_
      intro j hj
      rw [hin, hsub] at hj
      cases hj
  | some j =>
      refine List.perm_singleton.mp ?_
      refine (List.perm_ext_iff_of_nodup (openFor_nodup s.router u)
        (List.nodup_singleton j)).mpr ?_
      intro k
      rw [hin, hsub, List.mem_singleton, Option.some.injEq]
      exact eq_comm

/-- Of a quiet user, the hub holds a client exactly when the map holds a
    subscription. -/
theorem online_iff_filed {s : State β} (hh : HubInv s) (hf : FiledInv s) {u : UUID}
    (hq : Quiet s u) : s.hub.isOnline u = (s.router.subs u).isSome := by
  have hconn : ∀ c, s.phase c = .live → c ∈ s.conns :=
    fun c hc => hh.known c (by rw [hc]; exact fun h => by cases h)
  cases hsub : s.router.subs u with
  | some j =>
      obtain ⟨c, hc, hcs⟩ := hf.owner u (by rw [hsub]; exact fun h => by cases h)
      have hstarted : c ∈ s.conns := hh.known c (by
        intro hfr
        rw [hfr] at hcs
        cases hcs)
      have hlive := live_of_quiet (hq c hstarted hc) (Or.inr hcs)
      obtain ⟨d, hd⟩ := hh.holds c (by rw [hlive]; rfl)
      rw [hc] at hd
      rw [Hub.isOnline]
      rw [hd]
      rfl
  | none =>
      rw [Hub.isOnline]
      cases hcl : s.hub.clients u with
      | none => rfl
      | some c =>
          have hup := hh.held u c hcl
          have hc : s.hub.userOf c = u := s.hub.owned u c hcl
          have hstarted : c ∈ s.conns := hh.known c (by
            intro hfr
            rw [hfr] at hup
            cases hup)
          have hlive := live_of_quiet (hq c hstarted hc) (Or.inl hup)
          have hfiled := hf.filed c (by rw [hlive]; rfl)
          rw [hc] at hfiled
          exact absurd hsub hfiled

/-- **EXACTLY ONE SUBSCRIPTION FOR A USER THE HUB HOLDS, NONE FOR THE OTHERS**,
    in every run whose subscriptions are filed one at a time and whose last
    connection up takes the hub's entry down. -/
theorem one_subscription {who : ClientId → UUID × String} {s : State β}
    (h : Reach step OneAtATime (start who) s) {u : UUID} (hq : Quiet s u) :
    OneSubscription s u := by
  obtain ⟨hh, hf, hs⟩ := invs_of_reach h
  have hopen := openFor_of_quiet hh hs hq
  have honline := online_iff_filed hh hf hq
  refine ⟨?_, ?_⟩
  · rw [hopen, honline]
    cases s.router.subs u <;> rfl
  · intro hact data
    rw [forwarded]
    rw [hearing_of_active hact, hopen]
    cases hcl : s.hub.clients u with
    | none =>
        have hoff : s.hub.isOnline u = false := by
          rw [Hub.isOnline]
          rw [hcl]
          rfl
        rw [hoff] at honline
        cases hsub : s.router.subs u with
        | none => simp
        | some j =>
            rw [hsub] at honline
            cases honline
    | some c =>
        have hon : s.hub.isOnline u = true := by
          rw [Hub.isOnline]
          rw [hcl]
          rfl
        rw [hon] at honline
        cases hsub : s.router.subs u with
        | none =>
            rw [hsub] at honline
            cases honline
        | some j =>
            have hchan := hh.unused c (Or.inr (hh.held u c hcl))
            have hoffer : (s.hub.chan c).offer data = .sent _ := offer_of_room data
              (by rw [hchan]; rfl) (by rw [hchan]; show 0 < 256; omega)
            simp [Hub.send, hcl, hoffer]

/-- A second connection of one user: the router opens a second subscription and
    forgets the first, which nobody will ever close. -/
theorem second_subscription_leaks : ¬ ∀ s : State (List UInt8),
    Reach step anyStep (start oneUser) s → ∀ u, Quiet s u → OneSubscription s u := by
  obtain ⟨s, hs, hq, honline, htwo⟩ := exists_reach_of_replayGuarded step (fun _ _ => True)
    (start oneUser : State (List UInt8))
    [.register 0, .openSub 0, .file 0, .register 1, .openSub 1, .file 1]
    (fun s => Quiet s ⟨1⟩ ∧ s.hub.isOnline ⟨1⟩ = true ∧
      (s.router.openFor ⟨1⟩).length = 2) (by decide)
  intro hall
  have hone := (hall s hs ⟨1⟩ hq).1
  rw [honline, htwo] at hone
  cases hone

/-- A disconnect and a reconnect, one after the other. -/
theorem one_subscription_after_reconnect : ∃ s : State (List UInt8),
    Reach step OneAtATime (start oneUser) s ∧ s.conns = [1, 0] ∧
      s.hub.isOnline ⟨1⟩ = true ∧ OneSubscription s ⟨1⟩ := by
  obtain ⟨s, hs, hconns, honline, hq⟩ := exists_reach_of_replayGuarded step OneAtATime
    (start oneUser : State (List UInt8))
    [.register 0, .openSub 0, .file 0, .activate 0, .unregister 0, .unfile 0, .close 0,
      .register 1, .openSub 1, .file 1, .activate 1]
    (fun s => s.conns = [1, 0] ∧ s.hub.isOnline ⟨1⟩ = true ∧ Quiet s ⟨1⟩) (by decide)
  exact ⟨s, hs, hconns, honline, one_subscription hs hq⟩

end Subscription
