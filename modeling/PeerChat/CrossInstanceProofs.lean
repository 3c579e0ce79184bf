import PeerChat.RoamingProofs

/-! # At least once, across instances

    The receiver connects to instance `j` while others write from any instance.  A
    message that no hub takes is published, and Redis copies it to the subscriptions
    that are active then: before the snapshot of the pending messages has been taken
    that does not matter, after it the message is lost unless the receiver's own
    subscription is active.  `router.Subscribe` does not wait for that.

    `GetsThrough` is the condition on what is published; under it every message is in
    one of six places until it is enqueued. -/

namespace PeerCluster

open PeerEnv KeyedTable BufferedChan PeerHub PeerRouter PeerStore PeerFrame PeerWorld PeerHandler
open PeerServer Transition ThreadPool

variable {ι : Type}

/-- The goroutines of a run's beginning: connections of others, forwarders. -/
def Rests (u : UUID) (w : World) : Thread → Prop
  | .live e => w.hub.userOf e ≠ u
  | .forward k => k < w.router.opened
  | .done => True
  | _ => False

/-- The user of the client `c` of instance `j` is connected nowhere, and no handler is
    running. -/
structure Away (j : ι) (c : ClientId) (d : Deployment ι) : Prop where
  rests : ∀ i, ∀ t ∈ d.threads i, Rests ((d.hub j).userOf c) (d.world i) t
  fresh : c ∉ d.conns j
  offline : ∀ i, (d.hub i).clients ((d.hub j).userOf c) = none
  opened : ((d.hub j).chan c).closed = false
  closed : ∀ k, (d.pubsub k).userID = (d.hub j).userOf c → (d.pubsub k).closed = true
  unopened : ∀ k, d.opened ≤ k → (d.pubsub k).closed = true
  filed : ∀ i v k, d.subs i v = some k → k < d.opened ∧ (d.pubsub k).userID = v
  ledger : ∀ i, Ledger (d.server i)

/-- What `HandleDM` is about to publish for the user of `c` gets through: an active
    subscription hears it; or the snapshot is still to be taken; or it has been taken
    with the message in it, which the drain has or has had. -/
def GetsThrough (j : ι) (c : ClientId) (d : Deployment ι) (env : Env) : Thread → Prop
  | .dmPublish call stored => call.receiverID = (d.hub j).userOf c →
      (env.ok .publish = true ∧ (d.world j).router.hearing call.receiverID ≠ []) ∨
      Ahead c (d.conns j) (d.threads j) ∨ (∃ t ∈ d.threads j, stored.id ∈ t.pots) ∨
      Enqueued (d.world j) c stored.id
  | _ => True

/-- `HandleDM` calls of anybody on any instance, and the one connection `c` on `j`. -/
def OneConnect (j : ι) (c : ClientId) (d : Deployment ι) : ι × Action → Prop
  | (i, .connect e) => i = j ∧ e = c
  | (_, .ack _ _) => False
  | (i, .run n env) => ∀ t ∈ (d.threads i)[n]?, i = j → smooth c (d.world j) env t = true
  | _ => True

/-- What another instance publishes gets through. -/
def Through (j : ι) (c : ClientId) (d : Deployment ι) : ι × Action → Prop
  | (i, .run n env) => ∀ t ∈ (d.threads i)[n]?, i ≠ j → GetsThrough j c d env t
  | _ => True

/-- Redis takes what is published. -/
def RedisUp : Action → Prop
  | .run _ env => env.ok .publish = true
  | _ => True

/-- Is the handler in the middle of nothing? -/
def resting : Thread → Bool
  | .live _ => true
  | .connOffline _ => true
  | .connUnfile _ => true
  | .connClose _ => true
  | .forward _ => true
  | .done => true
  | _ => false

/-- All handlers have returned and nothing is in flight. -/
structure Quiescent (d : Deployment ι) : Prop where
  resting : ∀ i, ∀ t ∈ d.threads i, resting t = true
  inboxes : ∀ k < d.opened, (d.pubsub k).closed = false → (d.pubsub k).inbox = []

variable {j i : ι} {c : ClientId} {u : UUID} {d d' : Cluster ι} {t : Thread}

/-! ## Where a message is -/

/-- Is it the handler that is to enqueue or publish the message? -/
def sends (id : UUID) : Thread → Prop
  | .send (.dmLive _ stored) _ => stored.id = id
  | .dmPublish _ stored => stored.id = id
  | _ => False

/-- Is it a forwarder with the message in hand, for `u`? -/
def relays (u id : UUID) : Thread → Prop
  | .send (.forward _ v f) pc => v = u ∧ f.carries id = true ∧ ∀ e, pc ≠ .evict e
  | _ => False

/-- **THE SIX PLACES.** -/
inductive Whereabouts (j : ι) (c : ClientId) (u : UUID) (d : Deployment ι) (id : UUID) : Prop
  | enqueued (h : Enqueued (d.world j) c id)
  | ahead (h : Ahead c (d.conns j) (d.threads j))
  | drained (t : Thread) (ht : t ∈ d.threads j) (hid : id ∈ t.pots)
  | handled (i : ι) (t : Thread) (hi : i ≠ j) (ht : t ∈ d.threads i) (hid : sends id t)
  | published (k : SubId) (f : Frame) (howner : (d.pubsub k).userID = u)
      (hopen : (d.pubsub k).closed = false) (hf : f ∈ (d.pubsub k).inbox)
      (hid : f.carries id = true)
  | relayed (t : Thread) (hcl : (d.hub j).clients u = some c) (ht : t ∈ d.threads j)
      (hid : relays u id t)

/-- **THE INVARIANT OF A RUN** that started from the tables `db`. -/
structure Traced (db : Db) (j : ι) (c : ClientId) (u : UUID) (d : Deployment ι) : Prop where
  user : (d.hub j).userOf c = u
  slot : ∀ e, (d.hub j).clients u = some e → e = c
  away : ∀ i, i ≠ j → (d.hub i).clients u = none
  opened : ((d.hub j).chan c).closed = false
  here : (d.hub j).clients u = some c ∨ c ∉ d.conns j ∨ .connRegister c ∈ d.threads j
  knows : ∀ t ∈ d.threads j, Knows c u (d.world j) t
  roams : ∀ i, i ≠ j → ∀ t ∈ d.threads i, Roams u d.toCluster t
  routes : ∀ i, ∀ t ∈ d.threads i, Routes j c u d.toCluster i t
  filed : ∀ i v k, d.subs i v = some k → k < d.opened ∧ (d.pubsub k).userID = v
  unopened : ∀ k, d.opened ≤ k → (d.pubsub k).closed = true
  heard : ∀ k, (d.pubsub k).userID = u → (d.pubsub k).closed = false →
    (d.hub j).clients u = some c
  marked : ∀ m ∈ d.db.messages.rows, Awaits db (d.world j) u m → m.status ≠ .sent →
    Enqueued (d.world j) c m.id
  placed : ∀ m ∈ d.db.messages.rows, Awaits db (d.world j) u m → Whereabouts j c u d m.id

section Runs

variable {d : Deployment ι} {db : Db} {n : Nat} {env : Env} {w' : World} {t' : Thread}
  {new : List Thread}

/-- A step of thread `n` of instance `i` that the condition lets through. -/
structure Moves (j : ι) (c : ClientId) (d : Deployment ι) (i : ι) (n : Nat) (env : Env)
    (t : Thread) (w' : World) (t' : Thread) (new : List Thread) : Prop where
  thread : (d.threads i)[n]? = some t
  step : stepThread (d.world i) env t = some (w', t', new)
  smooth : i = j → smooth c (d.world j) env t = true
  through : i ≠ j → GetsThrough j c d env t

theorem Moves.mem (hmove : Moves j c d i n env t w' t' new) : t ∈ d.threads i :=
  List.mem_of_getElem? hmove.thread

/-- A goroutine that moves takes one of its steps. -/
theorem Moves.threadStep (hmove : Moves j c d i n env t w' t' new) :
    ThreadStep (d.world i) env t w' t' new :=
  threadStep_of_stepThread hmove.step

/-- Only `c` is being connected, and only on `j`. -/
theorem Moves.connects (hmove : Moves j c d i n env t w' t' new) (hi : Traced db j c u d)
    {e : ClientId} (he : t.connects = some e) : i = j ∧ e = c := by
  by_cases hij : i = j
  · subst hij
    exact ⟨rfl, (hi.knows t hmove.mem).connects he⟩
  · rw [(hi.roams i hij t hmove.mem).connects] at he
    cases he

variable [DecidableEq ι]

/-- The deployment after it. -/
def after (d : Deployment ι) (i : ι) (n : Nat) (w' : World) (t' : Thread) (new : List Thread) :
    Deployment ι :=
  d.put i ⟨w', moved (d.threads i) n t' new, startPump (d.sockets i) t', d.conns i⟩

@[simp] theorem after_threads : (after d i n w' t' new).threads i
    = moved (d.threads i) n t' new := put_threads ..

theorem after_threads_ne {k : ι} (hk : k ≠ i) :
    (after d i n w' t' new).threads k = d.threads k := put_threads_ne d hk _

@[simp] theorem after_conns (k : ι) : (after d i n w' t' new).conns k = d.conns k := by
  by_cases hk : k = i
  · subst hk
    exact Function.update_self ..
  · exact put_conns_ne d hk _

@[simp] theorem after_hub : (after d i n w' t' new).hub i = w'.hub :=
  Function.update_self ..

theorem after_hub_ne {k : ι} (hk : k ≠ i) :
    (after d i n w' t' new).hub k = d.hub k := Function.update_of_ne hk ..

@[simp] theorem after_subs : (after d i n w' t' new).subs i = w'.router.subs :=
  Function.update_self ..

theorem after_subs_ne {k : ι} (hk : k ≠ i) :
    (after d i n w' t' new).subs k = d.subs k := Function.update_of_ne hk ..

@[simp] theorem after_world : (after d i n w' t' new).world i = w' :=
  put_world d.toCluster i w'

namespace Moves

variable (hmove : Moves j c d i n env t w' t' new)

include hmove

theorem self_mem : t' ∈ (after d i n w' t' new).threads i := by
  rw [after_threads]
  exact self_mem_moved hmove.thread

/-- Every other thread stays where it is. -/
theorem stays {k : ι} {v : Thread} (hv : v ∈ d.threads k) :
    (k = i ∧ v = t) ∨ v ∈ (after d i n w' t' new).threads k := by
  by_cases hk : k = i
  · subst hk
    rw [after_threads]
    exact (mem_moved_of_mem hmove.thread hv).imp (fun h => ⟨rfl, h⟩) fun h => h
  · rw [after_threads_ne hk]
    exact Or.inr hv

/-- A thread was there before, or is the one that moved, or was started by it. -/
theorem origin {k : ι} {v : Thread} (hv : v ∈ (after d i n w' t' new).threads k) :
    v ∈ d.threads k ∨ (k = i ∧ (v = t' ∨ v ∈ new)) := by
  by_cases hk : k = i
  · subst hk
    rw [after_threads] at hv
    rcases mem_moved hv with hold | hself | hnew
    · exact Or.inl hold
    · exact Or.inr ⟨rfl, Or.inl hself⟩
    · exact Or.inr ⟨rfl, Or.inr hnew⟩
  · rw [after_threads_ne hk] at hv
    exact Or.inl hv

/-- No instance's view of the store loses anything. -/
theorem grows (k : ι) : Grows (d.world k) ((after d i n w' t' new).world k) :=
  grows_put hmove.threadStep.grows k

/-! ### What the invariant makes of it -/

variable (hi : Traced db j c u d)

include hi

/-- The step is steady for the user. -/
theorem steady : Steady u d.toCluster (after d i n w' t' new).toCluster :=
  steady_of_step hmove.step (hi.routes i t hmove.mem)

/-- The client stays registered, alone and open. -/
theorem held : Held c u (d.world j) ((after d i n w' t' new).world j) := by
  by_cases hij : i = j
  · subst hij
    rw [after_world]
    exact held_of_step hmove.threadStep hi.user hi.slot hi.opened (hi.knows t hmove.mem)
      (hmove.smooth rfl)
  · have hhub : (after d i n w' t' new).hub j = d.hub j := after_hub_ne (Ne.symm hij)
    exact Held.of_hub (congrArg Hub.clients hhub)
      (congrArg (fun h : Hub Frame => h.chan c) hhub) hi.slot hi.opened

/-- The user's subscriptions stay open, and keep what they have not handed on. -/
theorem kept_inbox {k : SubId} (hopen : (d.pubsub k).closed = false) {f : Frame}
    (hf : f ∈ (d.pubsub k).inbox) :
    f ∈ ((after d i n w' t' new).pubsub k).inbox ∨
      (t = .forward k ∧ ∃ rest, (d.pubsub k).inbox = f :: rest) := by
  have hk : k < d.opened := by
    by_contra hge
    rw [hi.unopened k (Nat.le_of_not_lt hge)] at hopen
    cases hopen
  exact (kept_of_step hmove.step).inbox k hk f hf

/-- The connection's subscription stays open. -/
theorem stays_open {k : SubId} (howner : (d.pubsub k).userID = u)
    (hopen : (d.pubsub k).closed = false) :
    ((after d i n w' t' new).pubsub k).userID = u ∧
      ((after d i n w' t' new).pubsub k).closed = false := by
  have hk : k < d.opened := by
    by_contra hge
    rw [hi.unopened k (Nat.le_of_not_lt hge)] at hopen
    cases hopen
  have hs := hmove.steady hi
  exact ⟨(hs.owner k hk).trans howner, (hs.closed k hk howner).trans hopen⟩

/-- No other instance gets a client of the user. -/
theorem away {k : ι} (hk : k ≠ j) : ((after d i n w' t' new).hub k).clients u = none := by
  by_cases hki : k = i
  · subst hki
    rw [after_hub]
    refine clients_none_of_step hmove.threadStep (hi.away k hk) ?_
    rintro e rfl
    exact hk (hmove.connects hi rfl).1
  · rw [after_hub_ne hki]
    exact hi.away k hk

/-- The user's client is there from its `Register` on. -/
theorem here : ((after d i n w' t' new).hub j).clients u = some c ∨
    c ∉ (after d i n w' t' new).conns j ∨
    .connRegister c ∈ (after d i n w' t' new).threads j := by
  rcases hi.here with hcl | hfresh | hreg
  · exact Or.inl ((hmove.held hi).stays hcl)
  · exact Or.inr (Or.inl (by rw [after_conns]; exact hfresh))
  · rcases hmove.stays hreg with ⟨rfl, rfl⟩ | hin
    · left
      have hstep := hmove.threadStep
      rw [after_hub]
      cases hstep with
      | quiet hdb hhub haddr hq => cases hq
      | registered e =>
          rw [← hi.user]
          exact register_clients_self (d.hub _) c
    · exact Or.inr (Or.inr hin)

/-- What a router has filed for a user is a subscription of that user. -/
theorem filed (k : ι) (v : UUID) (sub : SubId)
    (hsub : (after d i n w' t' new).subs k v = some sub) :
    sub < (after d i n w' t' new).opened ∧ ((after d i n w' t' new).pubsub sub).userID = v := by
  have hsteady := hmove.steady hi
  have hold : ∀ w, d.subs k w = some sub → sub < (after d i n w' t' new).opened ∧
      ((after d i n w' t' new).pubsub sub).userID = w := by
    intro w hw
    obtain ⟨hlt, howner⟩ := hi.filed k w sub hw
    exact ⟨Nat.lt_of_lt_of_le hlt hsteady.opened, (hsteady.owner sub hlt).trans howner⟩
  by_cases hki : k = i
  · subst hki
    rw [after_subs] at hsub
    rcases (kept_of_step hmove.step).filed v sub hsub with hw | ⟨e, rfl, rfl⟩
    · exact hold v hw
    · obtain ⟨rfl, rfl⟩ := hmove.connects hi rfl
      obtain ⟨hlt, howner, -⟩ := hi.routes _ _ hmove.mem
      refine ⟨Nat.lt_of_lt_of_le hlt hsteady.opened, (hsteady.owner sub hlt).trans ?_⟩
      rw [howner]
      exact hi.user.symm
  · rw [after_subs_ne hki] at hsub
    exact hold v hsub

/-- What has not been opened is not open. -/
theorem unopened (k : SubId) (hk : (after d i n w' t' new).opened ≤ k) :
    ((after d i n w' t' new).pubsub k).closed = true := by
  cases hcl : ((after d i n w' t' new).pubsub k).closed with
  | true => rfl
  | false =>
      have hle : d.opened ≤ k := Nat.le_trans (hmove.steady hi).opened hk
      rcases (kept_of_step hmove.step).fresh k hle hcl with hold | ⟨-, hlt, -⟩
      · change (d.pubsub k).closed = false at hold
        rw [hi.unopened k hle] at hold
        cases hold
      · exact absurd hlt (Nat.not_lt.mpr hk)

/-- Only the user's own connection opens a subscription of the user. -/
theorem heard (k : SubId) (howner : ((after d i n w' t' new).pubsub k).userID = u)
    (hopen : ((after d i n w' t' new).pubsub k).closed = false) :
    ((after d i n w' t' new).hub j).clients u = some c := by
  have hsteady := hmove.steady hi
  have hheld := hmove.held hi
  by_cases hk : k < d.opened
  · rw [hsteady.owner k hk] at howner
    rw [hsteady.closed k hk howner] at hopen
    exact hheld.stays (hi.heard k howner hopen)
  · have hle := Nat.le_of_not_lt hk
    rcases (kept_of_step hmove.step).fresh k hle hopen with hold | ⟨-, -, e, rfl, -⟩
    · change (d.pubsub k).closed = false at hold
      rw [hi.unopened k hle] at hold
      cases hold
    · obtain ⟨rfl, rfl⟩ := hmove.connects hi rfl
      exact hheld.stays (hi.knows _ hmove.mem).2

variable {m : Message} (ha : Awaits db (d.world j) u m)

include ha

/-- A message of the drain. -/
theorem of_drained {v : Thread} (hv : v ∈ d.threads j) (hid : m.id ∈ v.pots) :
    Whereabouts j c u (after d i n w' t' new) m.id := by
  rcases hmove.stays hv with ⟨rfl, rfl⟩ | hin
  · rcases pot_of_step hmove.threadStep hi.opened (hi.knows v hmove.mem) (hmove.smooth rfl)
      hid ha.addressed with hpot | henq | ⟨hnone, -⟩
    · exact .drained t' hmove.self_mem hpot
    · exact .enqueued (by rw [after_world]; exact henq)
    · -- no client was there to be found, so the snapshot is still to come
      rcases hi.here with hcl | hnew | hreg
      · rw [show (d.hub _).clients u = none from hnone] at hcl
        cases hcl
      · exact .ahead (Or.inl (by rw [after_conns]; exact hnew))
      · rcases hmove.stays hreg with ⟨-, rfl⟩ | hin
        · cases hid
        · exact .ahead (Or.inr ⟨_, hin, rfl⟩)
  · exact .drained v hin hid

/-- A payload in an inbox. -/
theorem of_published {k : SubId} {f : Frame} (howner : (d.pubsub k).userID = u)
    (hopen : (d.pubsub k).closed = false) (hf : f ∈ (d.pubsub k).inbox)
    (hid : f.carries m.id = true) :
    Whereabouts j c u (after d i n w' t' new) m.id := by
  obtain ⟨howner', hopen'⟩ := hmove.stays_open hi howner hopen
  rcases hmove.kept_inbox hi hopen hf with hkeep | ⟨rfl, rest, hin⟩
  · exact .published k f howner' hopen' hkeep hid
  · -- only instance `j` forwards it
    obtain rfl := (hi.routes i _ hmove.mem).2 howner hopen
    have hstep := hmove.step
    have hin' : ((d.world i).router.pubsub k).inbox = f :: rest := hin
    simp only [stepThread, hin'] at hstep
    cases hstep
    refine .relayed _ ?_ hmove.self_mem ⟨howner, hid, fun e h => (by cases h)⟩
    rw [after_hub]
    exact hi.heard k howner hopen

/-- A payload in a forwarder's hand. -/
theorem of_relayed {v : Thread} (hcl : (d.hub j).clients u = some c) (hv : v ∈ d.threads j)
    (hid : relays u m.id v) : Whereabouts j c u (after d i n w' t' new) m.id := by
  have hcl' : ((after d i n w' t' new).hub j).clients u = some c :=
    (hmove.held hi).stays hcl
  rcases hmove.stays hv with ⟨rfl, rfl⟩ | hin
  · have hsmooth := hmove.smooth rfl
    have hknows := hi.knows v hmove.mem
    have hstep := hmove.threadStep
    cases v with
    | send k pc =>
        cases k with
        | forward sub v f =>
            obtain ⟨rfl, hf, hpc⟩ := hid
            -- a client it has found is `c`
            have hat : SendAt c v (.forward sub v f) pc := hknows
            cases hstep with
            | sendGoto k pc pc' hub hs =>
                cases hs with
                | found e he =>
                    exact .relayed _ hcl' hmove.self_mem ⟨rfl, hf, fun x h => (by cases h)⟩
                | full e hopen hfull =>
                    have he : e = c := hat rfl
                    have hroom := of_decide_eq_true hsmooth he
                    rw [he] at hfull
                    omega
            | sendReturned k pc hub ok hs =>
                cases hs with
                | offline hno =>
                    change (d.hub _).clients v = none at hno
                    rw [hcl] at hno
                    cases hno
                | sent e ch hch =>
                    have he : e = c := hat rfl
                    refine .enqueued ⟨(c, f), ?_, rfl, hf⟩
                    rw [after_world, he]
                    exact List.mem_concat_self
                | panic e hclosed =>
                    have he : e = c := hat rfl
                    change ((d.hub _).chan e).closed = true at hclosed
                    rw [he, hi.opened] at hclosed
                    cases hclosed
                | evict e => exact absurd rfl (hpc e)
            | quiet hdb hhub haddr hq => cases hq
        | _ => exact False.elim hid
    | _ => exact False.elim hid
  · exact .relayed v hcl' hin hid

variable (hm : m ∈ d.db.messages.rows)

include hm

/-- A snapshot still to be taken, or just taken. -/
theorem of_ahead (hl : Ledger (d.server j)) (h : Ahead c (d.conns j) (d.threads j)) :
    Whereabouts j c u (after d i n w' t' new) m.id := by
  rcases h with hfresh | ⟨v, hv, hahead⟩
  · exact .ahead (Or.inl (by rw [after_conns]; exact hfresh))
  · rcases hmove.stays hv with ⟨rfl, rfl⟩ | hin
    · rcases ahead_of_step hmove.threadStep (hmove.smooth rfl) hahead with hahead' |
        ⟨rows, rfl, hw, hle, hr⟩
      · exact .ahead (Or.inr ⟨t', hmove.self_mem, hahead'⟩)
      · by_cases hst : m.status = .sent
        · have huser : (d.world j).hub.userOf c = u := hi.user
          rw [huser] at hr hle
          exact .drained _ hmove.self_mem
            (pot_of_snapshot hr hle hm (hl.members m hm u ha.addressed) ha.other hst)
        · exact .enqueued ((hi.marked m hm ha hst).mono (hmove.grows j))
    · exact .ahead (Or.inr ⟨v, hin, hahead⟩)

/-- A message that `HandleDM` publishes. -/
theorem of_publish (hl : Ledger (d.server j)) (hij : i ≠ j) {call : DmCall} {stored : Message}
    (ht : t = .dmPublish call stored) (hid : stored.id = m.id) :
    Whereabouts j c u (after d i n w' t' new) m.id := by
  subst ht
  have hto : call.receiverID = u := by
    refine (hi.routes i _ hmove.mem).2 ?_
    rw [hid]
    exact ha.addressed
  have hthrough := hmove.through hij
  simp only [GetsThrough, hi.user] at hthrough
  rcases hthrough hto with ⟨hok, hhearing⟩ | hahead | ⟨v, hv, hpot⟩ | henq
  · obtain ⟨k, hk⟩ := List.exists_mem_of_ne_nil _ hhearing
    have hhears : (d.pubsub k).hears call.receiverID = true := (List.mem_filter.mp hk).2
    have hsub := hhears
    simp only [PubSub.hears, Bool.and_eq_true, decide_eq_true_eq, Bool.not_eq_true'] at hsub
    obtain ⟨⟨howner, -⟩, hopen⟩ := hsub
    have hkeep := hmove.stays_open hi (howner.trans hto) hopen
    refine .published k (call.outbound stored) hkeep.1 hkeep.2 ?_ ?_
    · have hrouter := router_of_step hmove.step
      rw [routerAfter, if_pos hok] at hrouter
      show _ ∈ (w'.router.pubsub k).inbox
      rw [hrouter, publish_inbox]
      refine List.mem_append_right _ ?_
      show _ ∈ if (d.pubsub k).hears call.receiverID then [_] else []
      rw [if_pos hhears]
      exact List.mem_singleton.mpr rfl
    · exact decide_eq_true hid
  · exact hmove.of_ahead hi ha hm hl hahead
  · rw [hid] at hpot
    exact hmove.of_drained hi ha hv hpot
  · rw [hid] at henq
    exact .enqueued (henq.mono (hmove.grows j))

/-- A message whose handler has not found a client yet, or has found none. -/
theorem of_handled (hl : Ledger (d.server j)) {k : ι} {v : Thread} (hkj : k ≠ j)
    (hv : v ∈ d.threads k) (hid : sends m.id v) :
    Whereabouts j c u (after d i n w' t' new) m.id := by
  rcases hmove.stays hv with ⟨rfl, rfl⟩ | hin
  · have hstep := hmove.threadStep
    have hroutes := hi.routes k v hmove.mem
    cases v with
    | dmPublish call stored => exact hmove.of_publish hi ha hm hl hkj rfl hid
    | send kont pc =>
        cases kont with
        | dmLive call stored =>
            have hto : call.receiverID = u := by
              refine hroutes.2 ?_
              rw [show stored.id = m.id from hid]
              exact ha.addressed
            cases hstep with
            | sendGoto kont pc pc' hub hs => exact .handled k _ hkj hmove.self_mem hid
            | sendReturned kont pc hub ok hs =>
                cases ok with
                | false => exact .handled k _ hkj hmove.self_mem hid
                | true =>
                    cases hs with
                    | sent e ch hch => cases hi.roams k hkj _ hmove.mem hto
            | quiet hdb hhub haddr hq => cases hq
        | _ => exact False.elim hid
    | _ => exact False.elim hid
  · exact .handled k v hkj hin hid

/-- **WHERE A MESSAGE IS AFTER A STEP.** -/
theorem whereabouts (hl : Ledger (d.server j)) :
    Whereabouts j c u (after d i n w' t' new) m.id := by
  cases hi.placed m hm ha with
  | enqueued h => exact .enqueued (h.mono (hmove.grows j))
  | ahead h => exact hmove.of_ahead hi ha hm hl h
  | drained v hv hid => exact hmove.of_drained hi ha hv hid
  | handled k v hkj hv hid => exact hmove.of_handled hi ha hm hl hkj hv hid
  | published k f howner hopen hf hid => exact hmove.of_published hi ha howner hopen hf hid
  | relayed v hcl hv hid => exact hmove.of_relayed hi ha hcl hv hid

end Moves

/-- Every instance's ledger survives a step of one. -/
theorem ledgers_run (hl : ∀ k, Ledger (d.server k)) (hmove : Moves j c d i n env t w' t' new)
    (k : ι) : Ledger ((after d i n w' t' new).server k) := by
  have hi : Ledger ((after d i n w' t' new).server i) := by
    rw [after, put_server]
    exact ledger_step (hl i) (Stepped.run n env t w' t' new hmove.thread hmove.threadStep)
  by_cases hk : k = i
  · rw [hk]
    exact hi
  · refine ⟨hi.known, hi.members, ?_⟩
    intro call chatID hin
    change _ ∈ (after d i n w' t' new).threads k at hin
    rw [after_threads_ne hk] at hin
    obtain ⟨hs, hr⟩ := (hl k).inserting call chatID hin
    exact ⟨hmove.threadStep.grows.members _ _ hs, hmove.threadStep.grows.members _ _ hr⟩

/-- **A STEP OF A GOROUTINE KEEPS THE TRACE**, on whatever instance. -/
theorem traced_run (hl : ∀ k, Ledger (d.server k)) (hi : Traced db j c u d)
    (hmove : Moves j c d i n env t w' t' new) :
    Traced db j c u (after d i n w' t' new) where
  user := ((hmove.grows j).users c).trans hi.user
  slot := (hmove.held hi).slot
  away := fun _ hk => hmove.away hi hk
  opened := (hmove.held hi).opened
  here := hmove.here hi
  knows := by
    intro v hv
    rcases hmove.origin hv with hold | ⟨rfl, hnew⟩
    · exact (hi.knows v hold).mono (hmove.grows j) (hmove.held hi).stays
    · rw [after_world]
      obtain ⟨hself, hstarted⟩ := knows_of_step hmove.threadStep hi.user hi.slot hi.opened
        (hl j).known (hi.knows t hmove.mem) (hmove.smooth rfl)
      rcases hnew with rfl | hin
      · exact hself
      · exact hstarted v hin
  roams := by
    intro k hk v hv
    rcases hmove.origin hv with hold | ⟨rfl, hnew⟩
    · exact (hi.roams k hk v hold).mono (hmove.steady hi)
    · obtain ⟨hself, hstarted⟩ := roams_of_step hmove.step (hi.routes k t hmove.mem)
        (hi.roams k hk t hmove.mem) (hi.away k hk)
      rcases hnew with rfl | hin
      · exact hself
      · exact hstarted v hin
  routes := by
    intro k v hv
    rcases hmove.origin hv with hold | ⟨rfl, hnew⟩
    · exact (hi.routes k v hold).mono (hmove.steady hi)
    · have hstay : k = j → t ≠ .live c := by
        rintro rfl rfl
        exact absurd rfl (of_decide_eq_true (hmove.smooth rfl))
      obtain ⟨hself, hstarted⟩ := routes_of_step hmove.step (hi.routes k t hmove.mem) hi.user
        (fun _ he => hmove.connects hi he) hstay (hi.filed k) (hl k).known
      rcases hnew with rfl | hin
      · exact hself
      · exact hstarted v hin
  filed := hmove.filed hi
  unopened := hmove.unopened hi
  heard := hmove.heard hi
  marked := by
    intro m' hm' ha hst
    have hg := hmove.grows j
    rcases row_of_step hmove.threadStep hm' with ⟨m, hm, hid, -, hsender, hkeep | hsets⟩ |
      ⟨call, -, -, -, hsent, -⟩
    · rw [← hid]
      refine (hi.marked m hm (ha.back hg hm hid hsender) ?_).mono hg
      rw [← hkeep]
      exact hst
    · -- the mark of a thread that has enqueued the message
      have haddressed := (ha.back hg hm hid hsender).addressed
      rw [hid] at haddressed
      by_cases hij : i = j
      · subst hij
        exact ((hi.knows t hmove.mem).enqueued_of_sets hsets haddressed).mono hg
      · exact absurd haddressed ((hi.roams i hij t hmove.mem).not_addressed hsets)
    · exact absurd hsent hst
  placed := by
    intro m' hm' ha
    rcases row_of_step hmove.threadStep hm' with ⟨m, hm, hid, -, hsender, -⟩ | ⟨call, -, rfl, -⟩
    · rw [← hid]
      exact hmove.whereabouts hi (ha.back (hmove.grows j) hm hid hsender) hm (hl j)
    · by_cases hij : i = j
      · subst hij
        exact .drained _ hmove.self_mem (List.mem_singleton.mpr rfl)
      · exact .handled i _ hij hmove.self_mem rfl

end Runs

/-! ## What the pumps and Redis do, and handlers that start -/

section Spawns

variable {d d' : Deployment ι} {db : Db}

/-- The threads an action starts. -/
def starting (j : ι) (c : ClientId) (i : ι) (v : Thread) : Prop :=
  (i = j ∧ v = .connRegister c) ∨ ∃ call, v = .dmFind call

/-- Nothing but the threads, the queues and what is active differs. -/
structure Alike (j : ι) (c : ClientId) (d d' : Deployment ι) : Prop where
  db : d'.db = d.db
  addressed : d'.addressed = d.addressed
  opened : d'.opened = d.opened
  subs : d'.subs = d.subs
  clients : ∀ i, (d'.hub i).clients = (d.hub i).clients
  users : ∀ i e, (d'.hub i).userOf e = (d.hub i).userOf e
  log : ∀ i, (d'.hub i).log = (d.hub i).log
  chan : ((d'.hub j).chan c).closed = ((d.hub j).chan c).closed
  owner : ∀ k, (d'.pubsub k).userID = (d.pubsub k).userID
  closed : ∀ k, (d'.pubsub k).closed = (d.pubsub k).closed
  inbox : ∀ k, (d'.pubsub k).inbox = (d.pubsub k).inbox
  stays : ∀ i, ∀ v ∈ d.threads i, v ∈ d'.threads i
  origin : ∀ i, ∀ v ∈ d'.threads i, v ∈ d.threads i ∨ starting j c i v
  fresh : c ∉ d.conns j → c ∉ d'.conns j ∨ .connRegister c ∈ d'.threads j

namespace Alike

variable (h : Alike j c d d')

include h

theorem grows (i : ι) : Grows (d.world i) (d'.world i) := by
  refine Grows.of_same ?_ ?_ (h.users i) ?_ h.addressed
  · exact congrArg (fun db : Db => db.messages.keys) h.db
  · exact congrArg Db.chatMembers h.db
  · intro e he
    show e ∈ (d'.hub i).log
    rw [h.log]
    exact he

theorem steady : Steady u d.toCluster d'.toCluster := by
  refine ⟨h.users, (h.grows j).keys, ?_, ?_, fun k _ => h.owner k, fun k _ _ => h.closed k⟩
  · intro id _ v hv
    rw [h.addressed] at hv
    exact hv
  · rw [h.opened]

theorem ahead (ha : Ahead c (d.conns j) (d.threads j)) : Ahead c (d'.conns j) (d'.threads j) := by
  rcases ha with hfresh | ⟨v, hv, hahead⟩
  · exact (h.fresh hfresh).imp (fun hc => hc) fun hreg => ⟨.connRegister c, hreg, rfl⟩
  · exact Or.inr ⟨v, h.stays j v hv, hahead⟩

/-- A message is where it was. -/
theorem whereabouts {id : UUID} (hp : Whereabouts j c u d id) : Whereabouts j c u d' id := by
  cases hp with
  | enqueued henq => exact .enqueued (henq.mono (h.grows j))
  | ahead ha => exact .ahead (h.ahead ha)
  | drained v hv hid => exact .drained v (h.stays j v hv) hid
  | handled i v hij hv hid => exact .handled i v hij (h.stays i v hv) hid
  | published k f howner hopen hf hid =>
      refine .published k f ((h.owner k).trans howner) ((h.closed k).trans hopen) ?_ hid
      rw [h.inbox]
      exact hf
  | relayed v hcl hv hid =>
      refine .relayed v ?_ (h.stays j v hv) hid
      rw [h.clients]
      exact hcl

theorem awaits {m : Message} (ha : Awaits db (d'.world j) u m) : Awaits db (d.world j) u m := by
  have haddressed : (m.id, u) ∈ d'.addressed := ha.addressed
  rw [h.addressed] at haddressed
  exact ⟨haddressed, ha.other, ha.unsent⟩

/-- The ledger of an instance is kept. -/
theorem ledger {i : ι} (hl : Ledger (d.server i)) : Ledger (d'.server i) := by
  refine hl.keep h.db h.addressed ?_
  intro call chatID hin
  rcases h.origin i _ hin with hold | ⟨-, hreg⟩ | ⟨call', hfind⟩
  · exact hold
  · cases hreg
  · cases hfind

/-- Deployments that are alike keep the trace alike. -/
theorem traced (hi : Traced db j c u d) : Traced db j c u d' := by
  have hsteady := h.steady (u := u)
  refine ⟨(h.users j c).trans hi.user, ?_, ?_, h.chan.trans hi.opened, ?_, ?_, ?_, ?_, ?_, ?_, ?_,
    ?_, ?_⟩
  · rw [h.clients]
    exact hi.slot
  · intro i hij
    rw [h.clients]
    exact hi.away i hij
  · rcases hi.here with hcl | hfresh | hreg
    · left
      rw [h.clients]
      exact hcl
    · exact Or.inr (h.fresh hfresh)
    · exact Or.inr (Or.inr (h.stays j _ hreg))
  · intro v hv
    rcases h.origin j v hv with hold | ⟨-, rfl⟩ | ⟨call, rfl⟩
    · refine (hi.knows v hold).mono (h.grows j) ?_
      intro hcl
      show (d'.hub j).clients u = some c
      rw [h.clients]
      exact hcl
    · exact rfl
    · trivial
  · intro i hij v hv
    rcases h.origin i v hv with hold | ⟨rfl, -⟩ | ⟨call, rfl⟩
    · exact (hi.roams i hij v hold).mono hsteady
    · exact absurd rfl hij
    · trivial
  · intro i v hv
    rcases h.origin i v hv with hold | ⟨-, rfl⟩ | ⟨call, rfl⟩
    · exact (hi.routes i v hold).mono hsteady
    · trivial
    · trivial
  · intro i v k hk
    rw [h.subs] at hk
    rw [h.opened, h.owner]
    exact hi.filed i v k hk
  · intro k hk
    rw [h.opened] at hk
    rw [h.closed]
    exact hi.unopened k hk
  · intro k howner hopen
    rw [h.owner] at howner
    rw [h.closed] at hopen
    rw [h.clients]
    exact hi.heard k howner hopen
  · rw [h.db]
    exact fun m hm ha hst => (hi.marked m hm (h.awaits ha) hst).mono (h.grows j)
  · rw [h.db]
    exact fun m hm ha => h.whereabouts (hi.placed m hm (h.awaits ha))

end Alike

variable [DecidableEq ι]

/-- A server that becomes another one with the same tables and map. -/
theorem alike_put {s : Server} (hdb : s.world.db = d.db) (haddr : s.world.addressed = d.addressed)
    (hopened : s.world.router.opened = d.opened) (hsubs : s.world.router.subs = d.subs i)
    (hclients : s.world.hub.clients = (d.hub i).clients)
    (husers : ∀ e, s.world.hub.userOf e = (d.hub i).userOf e)
    (hlog : s.world.hub.log = (d.hub i).log)
    (hchan : i = j → (s.world.hub.chan c).closed = ((d.hub i).chan c).closed)
    (howner : ∀ k, (s.world.router.pubsub k).userID = (d.pubsub k).userID)
    (hclosed : ∀ k, (s.world.router.pubsub k).closed = (d.pubsub k).closed)
    (hinbox : ∀ k, (s.world.router.pubsub k).inbox = (d.pubsub k).inbox)
    (hstays : ∀ v ∈ d.threads i, v ∈ s.threads)
    (horigin : ∀ v ∈ s.threads, v ∈ d.threads i ∨ starting j c i v)
    (hfresh : i = j → c ∉ d.conns j → c ∉ s.conns ∨ .connRegister c ∈ s.threads) :
    Alike j c d (d.put i s) := by
  -- what holds of the two hubs holds of all
  have hhub : ∀ {β : Type} (f : Hub Frame → β), f s.world.hub = f (d.hub i) →
      ∀ k, f ((d.put i s).hub k) = f (d.hub k) := by
    intro β f hf k
    by_cases hk : k = i
    · subst hk
      show f (Function.update d.hub k s.world.hub k) = _
      rw [Function.update_self]
      exact hf
    · show f (Function.update d.hub i s.world.hub k) = _
      rw [Function.update_of_ne hk]
  have hthreads : ∀ k, k ≠ i → (d.put i s).threads k = d.threads k :=
    fun k hk => put_threads_ne d hk s
  refine ⟨hdb, haddr, hopened, ?_, hhub _ hclients, fun k e => hhub (fun h => h.userOf e) (husers e) k,
    hhub _ hlog, ?_,
    howner, hclosed, hinbox, ?_, ?_, ?_⟩
  · show Function.update d.subs i s.world.router.subs = d.subs
    rw [hsubs, Function.update_eq_self]
  · by_cases hij : j = i
    · subst hij
      exact hhub (fun h => (h.chan c).closed) (hchan rfl) j
    · show ((Function.update d.hub i s.world.hub j).chan c).closed = _
      rw [Function.update_of_ne hij]
  · intro k v hv
    by_cases hk : k = i
    · subst hk
      rw [put_threads]
      exact hstays v hv
    · rw [hthreads k hk]
      exact hv
  · intro k v hv
    by_cases hk : k = i
    · subst hk
      rw [put_threads] at hv
      exact horigin v hv
    · rw [hthreads k hk] at hv
      exact Or.inl hv
  · intro hc
    by_cases hij : j = i
    · subst hij
      rw [put_threads]
      show c ∉ Function.update d.conns j s.conns j ∨ _
      rw [Function.update_self]
      exact hfresh rfl hc
    · rw [put_conns_ne d hij]
      exact Or.inl hc

end Spawns

/-! ## Every run -/

section Deployments

variable {d d' d₀ : Deployment ι} {db : Db}

/-- The trace begins when the user connects. -/
theorem traced_start (h : Away j c d) (hu : (d.hub j).userOf c = u) : Traced d.db j c u d := by
  subst hu
  have hsent : ∀ m ∈ d.db.messages.rows,
      Awaits d.db (d.world j) ((d.hub j).userOf c) m → m.status = .sent :=
    fun m hm ha => ha.unsent m hm rfl
  refine ⟨rfl, ?_, fun i _ => h.offline i, h.opened, Or.inr (Or.inl h.fresh), ?_, ?_, ?_, h.filed,
    h.unopened, ?_, ?_, ?_⟩
  · intro e he
    rw [h.offline] at he
    cases he
  · intro t ht
    have hrests := h.rests j t ht
    cases t with
    | live e => trivial
    | forward k => trivial
    | done => trivial
    | _ => exact False.elim hrests
  · intro i _ t ht
    have hrests := h.rests i t ht
    cases t with
    | live e => trivial
    | forward k => trivial
    | done => trivial
    | _ => exact False.elim hrests
  · intro i t ht
    have hrests := h.rests i t ht
    cases t with
    | live e => exact Or.inr hrests
    | forward k =>
        refine ⟨hrests, fun howner hopen => ?_⟩
        rw [h.closed k howner] at hopen
        cases hopen
    | done => trivial
    | _ => exact False.elim hrests
  · intro k howner hopen
    rw [h.closed k howner] at hopen
    cases hopen
  · exact fun m hm ha hst => absurd (hsent m hm ha) hst
  · exact fun m hm ha => .ahead (Or.inl h.fresh)

/-- A handler in the middle of nothing holds nothing. -/
theorem resting_holds_nothing {t : Thread} (h : resting t = true) (u id : UUID) :
    ¬ t.ahead c ∧ t.pots = [] ∧ ¬ sends id t ∧ ¬ relays u id t := by
  cases t with
  | live e => exact ⟨fun hn => hn, rfl, fun hn => hn, fun hn => hn⟩
  | connOffline e => exact ⟨fun hn => hn, rfl, fun hn => hn, fun hn => hn⟩
  | connUnfile e => exact ⟨fun hn => hn, rfl, fun hn => hn, fun hn => hn⟩
  | connClose sub => exact ⟨fun hn => hn, rfl, fun hn => hn, fun hn => hn⟩
  | forward k => exact ⟨fun hn => hn, rfl, fun hn => hn, fun hn => hn⟩
  | done => exact ⟨fun hn => hn, rfl, fun hn => hn, fun hn => hn⟩
  | _ => cases h

/-- When all is quiet there is one place left. -/
theorem enqueued_of_quiescent (hi : Traced db j c u d) (hconn : c ∈ d.conns j)
    (hq : Quiescent d) {id : UUID} (h : Whereabouts j c u d id) : Enqueued (d.world j) c id := by
  cases h with
  | enqueued henq => exact henq
  | ahead ha =>
      rcases ha with hfresh | ⟨t, ht, hahead⟩
      · exact absurd hconn hfresh
      · exact absurd hahead (resting_holds_nothing (hq.resting j t ht) u id).1
  | drained t ht hid =>
      rw [(resting_holds_nothing (c := c) (hq.resting j t ht) u id).2.1] at hid
      cases hid
  | handled i t _ ht hid =>
      exact absurd hid (resting_holds_nothing (c := c) (hq.resting i t ht) u id).2.2.1
  | published k f howner hopen hf hid =>
      have hk : k < d.opened := by
        by_contra hge
        rw [hi.unopened k (Nat.le_of_not_lt hge)] at hopen
        cases hopen
      rw [hq.inboxes k hk hopen] at hf
      cases hf
  | relayed t _ ht hid =>
      exact absurd hid (resting_holds_nothing (c := c) (hq.resting j t ht) u id).2.2.2

variable [DecidableEq ι]

/-- A step is one of a thread, or changes nothing of the invariant. -/
theorem alike_or_moves {a : ι × Action} (hG : OneConnect j c d a ∧ Through j c d a)
    (h : step d a = some d') : Alike j c d d' ∨ ∃ i n env t w' t' new,
      Moves j c d i n env t w' t' new ∧ d' = after d i n w' t' new := by
  obtain ⟨i, a⟩ := a
  obtain ⟨s', hs, rfl⟩ := step_cases h
  -- a thread that starts
  have hspawn : ∀ v, starting j c i v →
      ∀ x ∈ d.threads i ++ [v], x ∈ d.threads i ∨ starting j c i x := by
    intro v hv x hx
    refine (List.mem_append.mp hx).imp (fun hold => hold) fun hnew => ?_
    rw [List.mem_singleton.mp hnew]
    exact hv
  cases a with
  | run n env =>
      obtain ⟨t, w', t', new, hn, ht, rfl⟩ := run_cases hs
      exact Or.inr ⟨i, n, env, t, w', t', new, ⟨hn, ht, hG.1 t hn, hG.2 t hn⟩, rfl⟩
  | dm call =>
      left
      cases PeerServer.step_cases hs with
      | dm =>
          exact alike_put rfl rfl rfl rfl rfl (fun _ => rfl) rfl (fun _ => rfl) (fun _ => rfl)
            (fun _ => rfl) (fun _ => rfl) (fun v hv => List.mem_append_left _ hv)
            (hspawn _ (Or.inr ⟨call, rfl⟩)) fun hij hc => Or.inl (by rw [← hij] at hc; exact hc)
  | connect e =>
      left
      obtain ⟨rfl, rfl⟩ := hG.1
      cases PeerServer.step_cases hs with
      | connect _ hc =>
          exact alike_put rfl rfl rfl rfl rfl (fun _ => rfl) rfl (fun _ => rfl) (fun _ => rfl)
            (fun _ => rfl) (fun _ => rfl) (fun v hv => List.mem_append_left _ hv)
            (hspawn _ (Or.inl ⟨rfl, rfl⟩))
            fun _ _ => Or.inr List.mem_concat_self
  | ack readerID call => exact False.elim hG.1
  | activate k =>
      left
      cases PeerServer.step_cases hs with
      | activate =>
          refine alike_put rfl rfl rfl rfl rfl (fun _ => rfl) rfl (fun _ => rfl)
            (activate_userID _ k) (activate_closed _ k) (activate_inbox _ k) (fun v hv => hv)
            (fun v hv => Or.inl hv) fun hij hc => Or.inl (by rw [← hij] at hc; exact hc)
  | pumpWrite e ok =>
      left
      cases PeerServer.step_cases hs with
      | pumpWrite _ _ f rest _ _ =>
          exact alike_put rfl rfl rfl rfl rfl (popHub_userOf (d.hub i) e) rfl
            (fun _ => popHub_closed (d.hub i) e c) (fun _ => rfl) (fun _ => rfl) (fun _ => rfl)
            (fun v hv => hv) (fun v hv => Or.inl hv)
            fun hij hc => Or.inl (by rw [← hij] at hc; exact hc)
  | pumpStop e =>
      left
      cases PeerServer.step_cases hs with
      | pumpStop _ _ =>
          exact alike_put rfl rfl rfl rfl rfl (fun _ => rfl) rfl (fun _ => rfl) (fun _ => rfl)
            (fun _ => rfl) (fun _ => rfl) (fun v hv => hv) (fun v hv => Or.inl hv)
            fun hij hc => Or.inl (by rw [← hij] at hc; exact hc)

/-- **THE INVARIANT IN EVERY RUN.** -/
theorem traced_of_reach (h₀ : Away j c d₀)
    (h : Reach step (fun d a => OneConnect j c d a ∧ Through j c d a) d₀ d) :
    Traced d₀.db j c ((d₀.hub j).userOf c) d := by
  let I : Deployment ι → Prop := fun d =>
    Traced d₀.db j c ((d₀.hub j).userOf c) d ∧ ∀ i, Ledger (d.server i)
  have hkeep : ∀ d a d', I d → OneConnect j c d a ∧ Through j c d a → step d a = some d' → I d' := by
    rintro d a d' ⟨hi, hl⟩ hG hstep
    rcases alike_or_moves hG hstep with halike | ⟨i, n, env, t, w', t', new, hmove, rfl⟩
    · exact ⟨halike.traced hi, fun i => halike.ledger (hl i)⟩
    · exact ⟨traced_run hl hi hmove, ledgers_run hl hmove⟩
  exact (Reach.invariant hkeep h (show I d₀ from ⟨traced_start h₀ rfl, h₀.ledger⟩)).1

/-- **NO DM IS STRANDED ACROSS INSTANCES**: when a user who was connected nowhere has
    connected, once, all handlers have returned and nothing is in flight, every message
    addressed to the user by another one, left 'sent' from before or stored meanwhile on
    whatever instance, has been enqueued on the connection, provided that whatever other
    instances published for the user got through. -/
theorem no_stranded_across (h₀ : Away j c d₀)
    (h : Reach step (fun d a => OneConnect j c d a ∧ Through j c d a) d₀ d)
    (hconn : c ∈ d.conns j) (hq : Quiescent d) :
    ∀ m ∈ d.db.messages.rows, Awaits d₀.db (d.world j) ((d₀.hub j).userOf c) m →
      Enqueued (d.world j) c m.id := by
  have hi := traced_of_reach h₀ h
  exact fun m hm ha => enqueued_of_quiescent hi hconn hq (hi.placed m hm ha)

end Deployments

/-! ## Alice's connect and bob's message -/

section Alice

variable [DecidableEq ι]

instance (j : ι) (c : ClientId) (d : Deployment ι) (env : Env) (t : Thread) :
    Decidable (GetsThrough j c d env t) :=
  match t with
  | .dmPublish call stored => inferInstanceAs (Decidable
      (call.receiverID = (d.hub j).userOf c →
        (env.ok .publish = true ∧ (d.world j).router.hearing call.receiverID ≠ []) ∨
        (c ∉ d.conns j ∨ ∃ t ∈ d.threads j, t.ahead c) ∨
        (∃ t ∈ d.threads j, stored.id ∈ t.pots) ∨
        ∃ e ∈ (d.world j).hub.log, e.1 = c ∧ e.2.carries stored.id = true))
  | .dmFind _ | .dmCreate _ | .dmInsert _ _ | .dmMark _ _ | .connRegister _ | .connOnline _
  | .connOpen _ | .connFile _ _ | .connPending _ | .drain _ _ | .drainMark _ _ _ | .live _
  | .connOffline _ | .connUnfile _ | .connClose _ | .forward _ | .ackUpdate _ _
  | .ackPublish _ _ | .send _ _ | .done => isTrue trivial

instance (j : ι) (c : ClientId) (d : Deployment ι) (a : ι × Action) :
    Decidable (OneConnect j c d a) :=
  match a with
  | (i, .connect e) => inferInstanceAs (Decidable (i = j ∧ e = c))
  | (_, .ack _ _) => isFalse id
  | (i, .run n _) => inferInstanceAs (Decidable (∀ t ∈ (d.threads i)[n]?, i = j → _))
  | (_, .dm _) | (_, .activate _) | (_, .pumpWrite _ _) | (_, .pumpStop _) => isTrue trivial

instance (j : ι) (c : ClientId) (d : Deployment ι) (a : ι × Action) :
    Decidable (Through j c d a) :=
  match a with
  | (i, .run n _) => inferInstanceAs (Decidable (∀ t ∈ (d.threads i)[n]?, i ≠ j → _))
  | (_, .connect _) | (_, .ack _ _) | (_, .dm _) | (_, .activate _) | (_, .pumpWrite _ _)
  | (_, .pumpStop _) => isTrue trivial

instance (a : Action) : Decidable (RedisUp a) :=
  match a with
  | .run _ env => inferInstanceAs (Decidable (env.ok .publish = true))
  | .dm _ | .connect _ | .ack _ _ | .activate _ | .pumpWrite _ _ | .pumpStop _ => isTrue trivial

end Alice

/-- Alice and bob, connected nowhere. -/
def nobodyOn : Deployment (Fin 2) := start threeUsers fun _ => oneUser

theorem nobodyOn_away : Away 1 0 nobodyOn where
  rests := fun _ _ ht => by cases ht
  fresh := by decide
  offline := fun _ => rfl
  opened := rfl
  closed := fun _ _ => rfl
  unopened := fun _ _ => rfl
  filed := fun _ _ _ hk => by cases hk
  ledger := fun _ => ledger_of_reach (Reach.refl (PeerServer.start threeUsers oneUser))

/-- Alice's subscription hears bob's message. -/
theorem no_stranded_across_heard : ∃ d : Deployment (Fin 2),
    Reach step (fun d a => OneConnect 1 0 d a ∧ Through 1 0 d a) nobodyOn d ∧
      ∃ m ∈ d.db.messages.rows, Awaits threeUsers (d.world 1) ⟨1⟩ m ∧
        Enqueued (d.world 1) 0 m.id := by
  obtain ⟨d, hd, hconn, hresting, hinboxes, m, hm, haddr, hother⟩ :=
    exists_reach_of_replayGuarded step (fun d a => OneConnect 1 0 d a ∧ Through 1 0 d a) nobodyOn
      ((1, .connect 0) :: List.replicate 4 (1, .run 0 fineEnv) ++
        (1, .activate 0) :: List.replicate 2 (1, .run 0 fineEnv) ++
        (0, .dm bobsCall) :: List.replicate 6 (0, .run 0 fineEnv) ++
        List.replicate 3 (1, .run 1 fineEnv))
      (fun d => 0 ∈ d.conns 1 ∧ (∀ i, ∀ t ∈ d.threads i, resting t = true) ∧
        (∀ k < d.opened, (d.pubsub k).closed = false → (d.pubsub k).inbox = []) ∧
        ∃ m ∈ d.db.messages.rows, (m.id, ⟨1⟩) ∈ d.addressed ∧ m.senderID ≠ ⟨1⟩)
      (by decide +kernel)
  have hawaits : Awaits threeUsers (d.world 1) ⟨1⟩ m :=
    ⟨haddr, hother, fun _ hm₀ => by cases hm₀⟩
  exact ⟨d, hd, m, hm, hawaits,
    no_stranded_across nobodyOn_away hd hconn ⟨hresting, hinboxes⟩ m hm hawaits⟩

/-- **NOBODY HEARS IT**: alice's snapshot is taken before Redis has processed her
    SUBSCRIBE, and bob's message is published in between. -/
theorem published_before_active : ¬ ∀ d : Deployment (Fin 2),
    Reach step (fun d a => OneConnect 1 0 d a ∧ DbUp a.2 ∧ RedisUp a.2) nobodyOn d →
    0 ∈ d.conns 1 → Quiescent d →
    ∀ m ∈ d.db.messages.rows, Awaits threeUsers (d.world 1) ⟨1⟩ m →
      Enqueued (d.world 1) 0 m.id := by
  intro hall
  obtain ⟨d, hd, hconn, hresting, hinboxes, m, hm, haddr, hother, hlost⟩ :=
    exists_reach_of_replayGuarded step
      (fun d a => OneConnect 1 0 d a ∧ DbUp a.2 ∧ RedisUp a.2) nobodyOn
      ((1, .connect 0) :: List.replicate 6 (1, .run 0 fineEnv) ++
        (0, .dm bobsCall) :: List.replicate 6 (0, .run 0 fineEnv) ++ [(1, .activate 0)])
      (fun d => 0 ∈ d.conns 1 ∧ (∀ i, ∀ t ∈ d.threads i, resting t = true) ∧
        (∀ k < d.opened, (d.pubsub k).closed = false → (d.pubsub k).inbox = []) ∧
        ∃ m ∈ d.db.messages.rows, (m.id, ⟨1⟩) ∈ d.addressed ∧ m.senderID ≠ ⟨1⟩ ∧
          ¬ ∃ e ∈ (d.world 1).hub.log, e.1 = 0 ∧ e.2.carries m.id = true)
      (by decide +kernel)
  exact hlost (hall d hd hconn ⟨hresting, hinboxes⟩ m hm
    ⟨haddr, hother, fun _ hm₀ => by cases hm₀⟩)

end PeerCluster
