import PeerChat.RoutingProofs
import PeerChat.StoreGrowthProofs
import PeerChat.SystemProofs

/-! # What the system tells its users

    Four ways lead into a client's queue (the live send, the pub/sub forward, the
    drain of the backlog, the group fan-out), and `GET /messages` is a fifth way to
    a stored message.  A frame's `from` is put together differently on each: from
    the token of the sender's connection, or from a join with `users`.

    `Told` is what holds of a frame on its way to a user, whichever way it takes:
    the sender has the name it says, the row it shows is stored, and the user is a
    member of the row's chat, or has been in the row's group. -/

namespace PeerSystem

open PeerEnv KeyedTable PeerHub PeerRouter PeerStore PeerFrame PeerRedis PeerWorld PeerHandler
open PeerDispatch PeerAuth PeerCluster SignedToken JsonDecode Transition ThreadPool

variable {σ ι : Type}

/-! ## Frames -/

/-- The user of the id has this name. -/
def Named (db : Db) (id : UUID) (name : String) : Prop :=
  ∃ u ∈ db.users.rows, u.id = id ∧ u.username = name

/-- **ATTRIBUTED**: the frame names its sender, and the row it shows is stored; a relayed
    map is a payload of the sender, who is told as in `relayMap_from`. -/
def Attributed (fmt : Formats) (db : Db) : Frame → Prop
  | .message sender fromID body messageID timestamp =>
      Named db fromID sender ∧ ∃ m ∈ db.messages.rows, m.id = messageID ∧
        m.senderID = fromID ∧ m.body = body ∧ m.createdAt = timestamp
  | .groupMessage groupID sender fromID body messageID timestamp =>
      Named db fromID sender ∧ ∃ m ∈ db.groupMessages.rows, m.id = messageID ∧
        m.groupID = groupID ∧ m.senderID = fromID ∧ m.body = body ∧ m.createdAt = timestamp
  | .typing sender fromID _ => Named db fromID sender
  | .relay raw => ∃ id name payload es, Named db id name ∧ structEntries payload = some es ∧
      raw = relayMap fmt id name es
  | _ => True

/-- **CONFIDED**: a direct message is for the members of its chat. -/
def Confided (db : Db) (u : UUID) : Frame → Prop
  | .message _ _ _ messageID _ => ∃ m ∈ db.messages.rows, m.id = messageID ∧ db.Member m.chatID u
  | _ => True

/-- **GROUPED**: a group message is for whoever has been in its group. -/
def Grouped (ever : UUID → UUID → Prop) (u : UUID) : Frame → Prop
  | .groupMessage groupID _ _ _ _ _ => ever groupID u
  | _ => True

/-- What holds of a frame on its way to `u`; `ever` says who has been in which group. -/
structure Told (fmt : Formats) (ever : UUID → UUID → Prop) (db : Db) (u : UUID) (f : Frame) :
    Prop where
  attributed : Attributed fmt db f
  confided : Confided db u f
  grouped : Grouped ever u f

/-- A frame that names nobody and shows nothing. -/
def silent : Frame → Bool
  | .message .. => false
  | .groupMessage .. => false
  | .typing .. => false
  | .relay _ => false
  | _ => true

variable {fmt : Formats} {ever ever' : UUID → UUID → Prop} {db db' : Db} {u : UUID} {f : Frame}

/-- A frame that shows no message tells nothing of one. -/
theorem told_of_silent (h : silent f = true) : Told fmt ever db u f := by
  cases f with
  | message _ _ _ _ _ => cases h
  | groupMessage _ _ _ _ _ _ => cases h
  | typing _ _ _ => cases h
  | relay _ => cases h
  | _ => exact ⟨trivial, trivial, trivial⟩

/-- A name stays its user's as the store grows. -/
theorem Named.mono {id : UUID} {name : String} (h : Named db id name) (hg : Grows db db') :
    Named db' id name := by
  obtain ⟨x, hx, hid⟩ := h
  exact ⟨x, hg.users x hx, hid⟩

/-- A frame stays attributed as the store grows. -/
theorem Attributed.mono (h : Attributed fmt db f) (hg : Grows db db') : Attributed fmt db' f := by
  cases f with
  | message sender fromID body messageID timestamp =>
      obtain ⟨hname, m, hm, hfields⟩ := h
      obtain ⟨st, hst⟩ := hg.messages m hm
      exact ⟨hname.mono hg, _, hst, hfields⟩
  | groupMessage groupID sender fromID body messageID timestamp =>
      obtain ⟨hname, m, hm, hfields⟩ := h
      exact ⟨hname.mono hg, m, hg.groupMessages m hm, hfields⟩
  | typing sender fromID chatID => exact Named.mono h hg
  | relay raw =>
      obtain ⟨id, name, payload, es, hname, hpayload⟩ := h
      exact ⟨id, name, payload, es, hname.mono hg, hpayload⟩
  | _ => trivial

/-- A direct message is for the same two as the store grows. -/
theorem Confided.mono (h : Confided db u f) (hg : Grows db db') : Confided db' u f := by
  cases f with
  | message sender fromID body messageID timestamp =>
      obtain ⟨m, hm, hid, hmember⟩ := h
      obtain ⟨st, hst⟩ := hg.messages m hm
      exact ⟨_, hst, hid, hg.members _ _ hmember⟩
  | _ => trivial

/-- Whoever has been in a group has been in it ever after. -/
theorem Grouped.mono (h : Grouped ever u f) (hever : ∀ g v, ever g v → ever' g v) :
    Grouped ever' u f := by
  cases f with
  | groupMessage groupID sender fromID body messageID timestamp => exact hever _ _ h
  | _ => trivial

/-- What was true when it was said stays true. -/
theorem Told.mono (h : Told fmt ever db u f) (hg : Grows db db')
    (hever : ∀ g v, ever g v → ever' g v) : Told fmt ever' db' u f :=
  ⟨h.attributed.mono hg, h.confided.mono hg, h.grouped.mono hever⟩

/-- A joined row, shown to a member of its chat. -/
theorem told_of_row {p : PendingMessage} (hm : p.message ∈ db.messages.rows)
    (hmember : db.Member p.message.chatID u)
    (hsender : ∃ x ∈ db.users.rows, x.id = p.message.senderID ∧ x.username = p.senderUsername) :
    Told fmt ever db u (PeerServer.drainFrame p) :=
  ⟨⟨hsender, p.message, hm, rfl, rfl, rfl, rfl⟩, ⟨p.message, hm, rfl, hmember⟩, trivial⟩

/-! ## Everything on its way -/

/-- Everything Redis has handed to a subscription is `P` for its user. -/
def Heard (P : UUID → Frame → Prop) (r : Router Frame) : Prop :=
  ∀ k, ∀ f ∈ (r.pubsub k).inbox, P (r.pubsub k).userID f

/-- Everything enqueued, published or handed over is `P` for the user it is for. -/
structure Airs (P : UUID → Frame → Prop) (w : World) : Prop where
  log : ∀ e ∈ w.hub.log, P (w.hub.userOf e.1) e.2
  heard : Heard P w.router
  published : ∀ e ∈ w.published, P e.1 e.2

variable {P Q : UUID → Frame → Prop} {w w' : World} {r : Router Frame}

/-- What holds of every frame in a router holds if less is asked. -/
theorem Heard.mono (h : Heard P r) (hPQ : ∀ u f, P u f → Q u f) : Heard Q r :=
  fun k f hf => hPQ _ _ (h k f hf)

/-- What holds of every frame of a world holds if less is asked. -/
theorem Airs.mono (h : Airs P w) (hPQ : ∀ u f, P u f → Q u f) : Airs Q w :=
  ⟨fun e he => hPQ _ _ (h.log e he), h.heard.mono hPQ, fun e he => hPQ _ _ (h.published e he)⟩

/-- A copy goes to the subscriptions of its user. -/
theorem Heard.publish (h : Heard P r) {v : UUID} {g : Frame} (hp : P v g) :
    Heard P (r.publish v g) := by
  intro k f hf
  rw [publish_userID]
  rw [publish_inbox] at hf
  rcases List.mem_append.mp hf with hold | hnew
  · exact h k f hold
  · by_cases hears : (r.pubsub k).hears v = true
    · rw [if_pos hears, List.mem_singleton] at hnew
      have huser : (r.pubsub k).userID = v := by
        simp only [PubSub.hears, Bool.and_eq_true, decide_eq_true_eq] at hears
        exact hears.1.1
      rw [huser, hnew]
      exact hp
    · rw [if_neg hears] at hnew
      cases hnew

/-- One subscription changes, and hears nothing new. -/
theorem Heard.update (h : Heard P r) (j : SubId) (p : PubSub Frame)
    (hp : ∀ f ∈ p.inbox, P p.userID f) :
    Heard P { r with pubsub := Function.update r.pubsub j p } := by
  intro k f hf
  by_cases hk : k = j
  · subst hk
    simp only [Function.update_self] at hf ⊢
    exact hp f hf
  · simp only [Function.update_of_ne hk] at hf ⊢
    exact h k f hf

/-- No frame comes in with a new subscription. -/
theorem Heard.openSub (h : Heard P r) (v : UUID) : Heard P (r.openSub v) :=
  h.update r.opened ⟨v, false, false, []⟩ fun _ hf => by cases hf

/-- No frame comes in when a subscription is closed. -/
theorem Heard.close (h : Heard P r) (j : SubId) : Heard P (r.close j) :=
  h.update j _ fun f hf => h j f hf

/-- No frame comes in when a subscription is activated. -/
theorem Heard.activate (h : Heard P r) (j : SubId) : Heard P (r.activate j) :=
  h.update j _ fun f hf => h j f hf

/-- Reading a frame off a subscription leaves the others. -/
theorem Heard.take (h : Heard P r) (j : SubId) : Heard P (r.take j) :=
  h.update j _ fun f hf => h j f (List.mem_of_mem_tail hf)

/-- What a world airs after a step was aired before it, or by it. -/
theorem Airs.emits (h : Airs P w) (he : Emits P w w') (hr : Heard P w'.router) : Airs P w' := by
  obtain ⟨sent, hlog, hsent⟩ := he.log
  obtain ⟨sent', hpub, hsent'⟩ := he.published
  refine ⟨?_, hr, ?_⟩
  · intro e hmem
    rw [he.users]
    rw [hlog] at hmem
    rcases List.mem_append.mp hmem with hold | hnew
    · exact h.log e hold
    · exact hsent e hnew
  · intro e hmem
    rw [hpub] at hmem
    rcases List.mem_append.mp hmem with hold | hnew
    · exact h.published e hold
    · exact hsent' e hnew

end PeerSystem
