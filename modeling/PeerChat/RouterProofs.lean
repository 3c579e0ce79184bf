import PeerChat.EnvProofs

/-! # The Redis router of `pubsub/router.go`

    `Subscribe` opens a subscription and then, under the lock, files it in a map
    from user to subscription; `Unsubscribe` takes the map's entry out under the
    lock and then closes it.  Neither is one critical section, so both halves
    are kept apart here.

    A subscription is asynchronous: Redis delivers to it from the moment it has
    processed the command (`activate`), which `Subscribe` does not wait for.
    A published payload is copied to every subscription that is active then;
    each of them has a goroutine of its own that forwards to the hub. -/

namespace PeerRouter

open PeerEnv

/-- A `*redis.PubSub`. -/
abbrev SubId := Nat

/-- A subscription to the channel `chat:user:<userID>`. -/
structure PubSub (β : Type) where
  userID : UUID
  active : Bool
  closed : Bool
  /-- Delivered by Redis and not yet taken by the forwarding goroutine. -/
  inbox : List β

/-- `Router`, with the subscriptions opened so far. -/
structure Router (β : Type) where
  subs : UUID → Option SubId
  pubsub : SubId → PubSub β
  opened : Nat

variable {β : Type}

/-- `NewRouter`. -/
def newRouter : Router β :=
  ⟨fun _ => none, fun _ => ⟨⟨0⟩, false, true, []⟩, 0⟩

/-- `sub := r.rdb.Subscribe(ctx, channelName(userID))`: the new subscription is
    number `r.opened`. -/
def Router.openSub (r : Router β) (userID : UUID) : Router β :=
  { r with
    pubsub := Function.update r.pubsub r.opened ⟨userID, false, false, []⟩
    opened := r.opened + 1 }

/-- `r.subs[userID] = sub`. -/
def Router.file (r : Router β) (userID : UUID) (sub : SubId) : Router β :=
  { r with subs := Function.update r.subs userID (some sub) }

/-- `delete(r.subs, userID)`, if there is an entry. -/
def Router.unfile (r : Router β) (userID : UUID) : Router β :=
  { r with subs := Function.update r.subs userID none }

/-- `sub.Close()`. -/
def Router.close (r : Router β) (sub : SubId) : Router β :=
  { r with pubsub := Function.update r.pubsub sub { r.pubsub sub with closed := true } }

/-- Redis has processed the SUBSCRIBE command. -/
def Router.activate (r : Router β) (sub : SubId) : Router β :=
  { r with pubsub := Function.update r.pubsub sub { r.pubsub sub with active := true } }

/-- Does Redis hand a payload for `userID` to this subscription? -/
def PubSub.hears (p : PubSub β) (userID : UUID) : Bool :=
  p.userID = userID && p.active && !p.closed

/-- `Publish`: a copy to every subscription that hears the channel. -/
def Router.publish (r : Router β) (userID : UUID) (data : β) : Router β :=
  { r with pubsub := fun j =>
      if (r.pubsub j).hears userID then
        { r.pubsub j with inbox := (r.pubsub j).inbox ++ [data] }
      else r.pubsub j }

/-- The forwarding goroutine takes the oldest payload. -/
def Router.take (r : Router β) (sub : SubId) : Router β :=
  { r with
    pubsub := Function.update r.pubsub sub
      { r.pubsub sub with inbox := (r.pubsub sub).inbox.tail } }

/-- The open subscriptions to the channel of `userID`. -/
def Router.openFor (r : Router β) (userID : UUID) : List SubId :=
  (List.range r.opened).filter fun j =>
    (r.pubsub j).userID = userID && !(r.pubsub j).closed

/-- The subscriptions that get a copy of a payload published for `userID`. -/
def Router.hearing (r : Router β) (userID : UUID) : List SubId :=
  (List.range r.opened).filter fun j => (r.pubsub j).hears userID

/-! ## What the operations change -/

/-- The subscriptions of a user that are still open. -/
theorem mem_openFor {r : Router β} {u : UUID} {j : SubId} :
    j ∈ r.openFor u ↔
      j < r.opened ∧ (r.pubsub j).userID = u ∧ (r.pubsub j).closed = false := by
  simp [Router.openFor]

/-- An open subscription is listed once. -/
theorem openFor_nodup (r : Router β) (u : UUID) : (r.openFor u).Nodup :=
  List.filter_sublist.nodup List.nodup_range

/-- When the open subscriptions of a user are active, they are the ones that
    get a copy of what is published. -/
theorem hearing_of_active {r : Router β} {u : UUID}
    (ha : ∀ j ∈ r.openFor u, (r.pubsub j).active = true) : r.hearing u = r.openFor u := by
  rw [Router.hearing, Router.openFor]
  refine List.filter_congr ?_
  intro j hj
  rw [PubSub.hears]
  by_cases hu : (r.pubsub j).userID = u ∧ (r.pubsub j).closed = false
  · have hact := ha j (mem_openFor.mpr ⟨List.mem_range.mp hj, hu.1, hu.2⟩)
    simp [hu.1, hu.2, hact]
  · rcases not_and_or.mp hu with hne | hcl
    · simp [hne]
    · simp [hcl]

/-- Publishing grows exactly the inboxes of the subscriptions that hear. -/
theorem publish_inbox (r : Router β) (u : UUID) (data : β) (j : SubId) :
    ((r.publish u data).pubsub j).inbox =
      (r.pubsub j).inbox ++ if (r.pubsub j).hears u then [data] else [] := by
  rw [Router.publish]
  by_cases h : (r.pubsub j).hears u = true
  · simp [h]
  · simp [h]

/-- A publish moves no subscription to another user. -/
theorem publish_userID (r : Router β) (u : UUID) (data : β) (k : SubId) :
    ((r.publish u data).pubsub k).userID = (r.pubsub k).userID := by
  simp only [Router.publish]
  split <;> rfl

@[simp] theorem openSub_subs (r : Router β) (u : UUID) :
    (r.openSub u).subs = r.subs := rfl

@[simp] theorem openSub_opened (r : Router β) (u : UUID) :
    (r.openSub u).opened = r.opened + 1 := rfl

/-- A new subscription is its user's, not yet active, and empty. -/
@[simp] theorem openSub_self (r : Router β) (u : UUID) :
    (r.openSub u).pubsub r.opened = ⟨u, false, false, []⟩ := by
  simp [Router.openSub]

/-- Opening a subscription leaves the ones before it as they are. -/
theorem openSub_old (r : Router β) (u : UUID) {j : SubId} (hj : j < r.opened) :
    (r.openSub u).pubsub j = r.pubsub j := by
  simp [Router.openSub, Function.update_of_ne (Nat.ne_of_lt hj)]

/-- `r.subs[userID] = sub` is what the map holds for the user. -/
@[simp] theorem file_subs_self (r : Router β) (u : UUID) (j : SubId) :
    (r.file u j).subs u = some j := by
  simp [Router.file]

/-- `r.subs[userID] = sub` is no other user's entry. -/
theorem file_subs_ne (r : Router β) {u v : UUID} (j : SubId) (hv : v ≠ u) :
    (r.file u j).subs v = r.subs v := by
  simp [Router.file, Function.update_of_ne hv]

/-- `delete(r.subs, userID)` takes out the user's entry. -/
@[simp] theorem unfile_subs_self (r : Router β) (u : UUID) :
    (r.unfile u).subs u = none := by
  simp [Router.unfile]

/-- `delete(r.subs, userID)` takes out no other entry. -/
theorem unfile_subs_ne (r : Router β) {u v : UUID} (hv : v ≠ u) :
    (r.unfile u).subs v = r.subs v := by
  simp [Router.unfile, Function.update_of_ne hv]

@[simp] theorem close_subs (r : Router β) (j : SubId) : (r.close j).subs = r.subs := rfl

/-- A subscription that is closed is closed. -/
@[simp] theorem close_self (r : Router β) (j : SubId) :
    ((r.close j).pubsub j).closed = true := by
  simp [Router.close]

/-- Closing a subscription leaves the others as they are. -/
theorem close_ne (r : Router β) {j k : SubId} (hk : k ≠ j) :
    (r.close j).pubsub k = r.pubsub k := by
  simp [Router.close, Function.update_of_ne hk]

@[simp] theorem close_userID (r : Router β) (j k : SubId) :
    ((r.close j).pubsub k).userID = (r.pubsub k).userID := by
  by_cases hk : k = j
  · simp [Router.close, hk]
  · rw [close_ne r hk]

@[simp] theorem activate_userID (r : Router β) (j k : SubId) :
    ((r.activate j).pubsub k).userID = (r.pubsub k).userID := by
  rw [Router.activate]
  by_cases hk : k = j
  · simp [hk]
  · simp [Function.update_of_ne hk]

/-- Activation opens nothing that was closed. -/
@[simp] theorem activate_closed (r : Router β) (j k : SubId) :
    ((r.activate j).pubsub k).closed = (r.pubsub k).closed := by
  rw [Router.activate]
  by_cases hk : k = j
  · simp [hk]
  · simp [Function.update_of_ne hk]

/-- Activation brings nothing that was published before it. -/
@[simp] theorem activate_inbox (r : Router β) (j k : SubId) :
    ((r.activate j).pubsub k).inbox = (r.pubsub k).inbox := by
  rw [Router.activate]
  by_cases hk : k = j
  · simp [hk]
  · simp [Function.update_of_ne hk]

end PeerRouter
