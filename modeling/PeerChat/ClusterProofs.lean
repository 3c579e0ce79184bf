import PeerChat.ServerProofs

/-! # Several instances

    The instances share the database and Redis; everything else each has for
    itself: its hub, its router's map, its handlers, its connections.

    `Cluster.world i` is the world a handler on instance `i` runs in, so the
    handlers and the threads of one server are those of every instance: a step of
    a `Deployment` is a step of one of its servers. -/

namespace PeerCluster

open PeerEnv PeerHub PeerRouter PeerStore PeerFrame PeerRedis PeerWorld PeerHandler PeerServer
open Transition

/-- The shared stores and, instance by instance, the hubs and the routers' maps. -/
structure Cluster (ι : Type) where
  db : Db
  redis : Redis
  /-- The subscriptions Redis knows, of whatever instance. -/
  pubsub : SubId → PubSub Frame
  opened : Nat
  published : List (UUID × Frame)
  addressed : List (UUID × UUID)
  hub : ι → Hub Frame
  subs : ι → UUID → Option SubId

/-- The instances with the threads and the sockets they run. -/
structure Deployment (ι : Type) extends Cluster ι where
  threads : ι → List Thread
  sockets : ι → ClientId → Socket
  conns : ι → List ClientId

variable {ι : Type}

/-- What a handler on instance `i` sees. -/
def Cluster.world (d : Cluster ι) (i : ι) : World :=
  ⟨d.db, d.hub i, ⟨d.subs i, d.pubsub, d.opened⟩, d.redis, d.published, d.addressed⟩

/-- Instance `i`, as the server it is. -/
def Deployment.server (d : Deployment ι) (i : ι) : Server :=
  ⟨d.world i, d.threads i, d.sockets i, d.conns i⟩

/-- Instances that have just started; `who` says whose every `*Client` will be. -/
def start (db : Db) (who : ι → ClientId → UUID × String) : Deployment ι where
  db := db
  redis := Redis.empty
  pubsub := (newRouter : Router Frame).pubsub
  opened := 0
  published := []
  addressed := []
  hub := fun i => newHub fun c => newRealClient (who i c).1 (who i c).2
  subs := fun _ => (newRouter : Router Frame).subs
  threads := fun _ => []
  sockets := fun _ _ => ⟨.notStarted, [], []⟩
  conns := fun _ => []

section Steps

variable [DecidableEq ι]

/-- The cluster after a handler on instance `i` has left the world `w`. -/
def Cluster.put (d : Cluster ι) (i : ι) (w : World) : Cluster ι where
  db := w.db
  redis := w.redis
  pubsub := w.router.pubsub
  opened := w.router.opened
  published := w.published
  addressed := w.addressed
  hub := Function.update d.hub i w.hub
  subs := Function.update d.subs i w.router.subs

/-- The deployment after instance `i` has become the server `s`. -/
def Deployment.put (d : Deployment ι) (i : ι) (s : Server) : Deployment ι where
  toCluster := d.toCluster.put i s.world
  threads := Function.update d.threads i s.threads
  sockets := Function.update d.sockets i s.sockets
  conns := Function.update d.conns i s.conns

/-- An action on instance `i` is a step of its server. -/
def step (d : Deployment ι) (a : ι × Action) : Option (Deployment ι) :=
  (PeerServer.step (d.server a.1) a.2).map (d.put a.1)

/-! ## One handler at a time -/

/-- `HandleDM` runs on instance `i`. -/
def Cluster.handleDM (d : Cluster ι) (i : ι) (env : Env) (call : DmCall) : Cluster ι :=
  d.put i (runDM (d.world i) env call).1

/-- The goroutine of the subscription that instance `a.1` has filed for the user `a.2`
    hands its oldest payload to the hub; `none` while there is none. -/
def Cluster.forward (d : Cluster ι) (a : ι × UUID) : Option (Cluster ι) :=
  match d.subs a.1 a.2 with
  | none => none
  | some sub =>
      match (d.pubsub sub).inbox with
      | [] => none
      | payload :: _ =>
          let w := { d.world a.1 with router := (d.world a.1).router.take sub }
          some (d.put a.1 (w.send (d.pubsub sub).userID payload).1)

/-- The forwarding goes on, in some order, until nobody has anything to forward. -/
def Finishes (d d' : Cluster ι) : Prop :=
  Reach Cluster.forward anyStep d d' ∧ ∀ a, d'.forward a = none

/-! ## What an instance sees of a step -/

@[simp] theorem put_world (d : Cluster ι) (i : ι) (w : World) : (d.put i w).world i = w := by
  simp [Cluster.put, Cluster.world]

/-- Another instance keeps its hub and its map, and sees the rest. -/
theorem put_world_ne (d : Cluster ι) {i j : ι} (hj : j ≠ i) (w : World) :
    (d.put i w).world j = { w with
      hub := d.hub j, router := { w.router with subs := d.subs j } } := by
  simp [Cluster.put, Cluster.world, Function.update_of_ne hj]

@[simp] theorem put_server (d : Deployment ι) (i : ι) (s : Server) :
    (d.put i s).server i = s := by
  simp [Deployment.put, Deployment.server]

/-- A step on one instance runs no goroutine of another. -/
theorem put_threads_ne (d : Deployment ι) {i j : ι} (hj : j ≠ i) (s : Server) :
    (d.put i s).threads j = d.threads j := by
  simp [Deployment.put, Function.update_of_ne hj]

/-- A step on one instance opens no connection of another. -/
theorem put_conns_ne (d : Deployment ι) {i j : ι} (hj : j ≠ i) (s : Server) :
    (d.put i s).conns j = d.conns j := by
  simp [Deployment.put, Function.update_of_ne hj]

@[simp] theorem put_threads (d : Deployment ι) (i : ι) (s : Server) :
    (d.put i s).threads i = s.threads := by
  simp [Deployment.put]

/-- A step of the deployment is a step of one server. -/
theorem step_cases {d d' : Deployment ι} {i : ι} {a : Action} (h : step d (i, a) = some d') :
    ∃ s', PeerServer.step (d.server i) a = some s' ∧ d' = d.put i s' := by
  obtain ⟨s', hs, hput⟩ := Option.map_eq_some_iff.mp h
  exact ⟨s', hs, hput.symm⟩

/-- Where nothing is waiting nothing is forwarded. -/
theorem forward_none {d : Cluster ι} {a : ι × UUID}
    (h : ∀ sub, d.subs a.1 a.2 = some sub → (d.pubsub sub).inbox = []) :
    d.forward a = none := by
  rw [Cluster.forward]
  cases hsub : d.subs a.1 a.2 with
  | none => rfl
  | some sub =>
      simp only
      rw [h sub hsub]

/-- With nothing to forward the forwarding is over. -/
theorem finishes_settled {d d' : Cluster ι} (hd : ∀ a, d.forward a = none) :
    Finishes d d' ↔ d' = d := by
  constructor
  · intro h
    rcases Relation.ReflTransGen.cases_head h.1 with heq | ⟨e, ⟨a, -, ha⟩, -⟩
    · exact heq.symm
    · rw [hd a] at ha
      cases ha
  · rintro rfl
    exact ⟨Reach.refl _, hd⟩

/-- There is one payload to forward: `f`, in the inbox of the subscription `s` that
    instance `i` has filed for `u`. -/
structure OnePayload (d : Cluster ι) (i : ι) (u : UUID) (s : SubId) (f : Frame) : Prop where
  filed : ∀ j v, d.subs j v = some s ↔ j = i ∧ v = u
  owner : (d.pubsub s).userID = u
  inbox : ∀ k, (d.pubsub k).inbox = if k = s then [f] else []

/-- Its goroutine forwards it, and that was all. -/
theorem finishes_one {d d' : Cluster ι} {i : ι} {u : UUID} {s : SubId} {f : Frame}
    (h : OnePayload d i u s f) : Finishes d d' ↔
      d' = d.put i ({ d.world i with router := (d.world i).router.take s }.send u f).1 := by
  have hfiled : d.subs i u = some s := (h.filed i u).mpr ⟨rfl, rfl⟩
  have hinbox : (d.pubsub s).inbox = [f] := by rw [h.inbox, if_pos rfl]
  have hfirst : d.forward (i, u) = some
      (d.put i ({ d.world i with router := (d.world i).router.take s }.send u f).1) := by
    simp only [Cluster.forward, hfiled, hinbox, h.owner]
  -- the inbox is empty then
  have hthen : ∀ a, (d.put i
      ({ d.world i with router := (d.world i).router.take s }.send u f).1).forward a = none := by
    refine fun a => forward_none fun k _ => ?_
    show ((((d.world i).router.take s).pubsub k)).inbox = []
    by_cases hk : k = s
    · rw [hk]
      simp [Router.take, Cluster.world, hinbox]
    · simp only [Router.take, Function.update_of_ne hk]
      exact (h.inbox k).trans (if_neg hk)
  constructor
  · intro hd'
    rcases Relation.ReflTransGen.cases_head hd'.1 with rfl | ⟨e, ⟨⟨j, v⟩, -, ha⟩, hrest⟩
    · rw [hd'.2 (i, u)] at hfirst
      cases hfirst
    · have hself : j = i ∧ v = u := by
        by_contra hne
        rw [forward_none] at ha
        · cases ha
        · intro k hk
          rw [h.inbox, if_neg]
          intro hks
          exact hne ((h.filed j v).mp (hks ▸ hk))
      obtain ⟨rfl, rfl⟩ := hself
      rw [hfirst] at ha
      cases ha
      exact (finishes_settled hthen).mp ⟨hrest, hd'.2⟩
  · rintro rfl
    exact ⟨Reach.head trivial hfirst (Reach.refl _), hthen⟩

end Steps

end PeerCluster
