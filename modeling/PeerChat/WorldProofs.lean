import PeerChat.GroupStoreProofs
import PeerChat.FrameProofs
import PeerChat.RedisProofs
import PeerChat.HubProofs
import PeerChat.RouterProofs

/-! # The world a handler runs in

    One server instance with its database and its Redis, and the two ways a
    handler reaches a user: `hub.Send` and `router.Publish`.

    `Emits Q` is the frame rule of this layer: everything a handler enqueues or
    publishes is for a user `u` and a frame `f` with `Q u f`. -/

namespace PeerWorld

open PeerEnv BufferedChan PeerHub PeerRouter PeerStore PeerFrame PeerRedis

/-- The shared state, with two histories: what has been published and for whom,
    and which user each stored direct message was addressed to. -/
structure World where
  db : Db
  hub : Hub Frame
  router : Router Frame
  redis : Redis
  published : List (UUID × Frame)
  addressed : List (UUID × UUID)

/-- A server that has just started, over the store `db`; `who` says whose client
    every `*Client` will be. -/
def World.start (db : Db) (who : ClientId → UUID × String) : World :=
  ⟨db, newHub (fun c => newRealClient (who c).1 (who c).2), newRouter, Redis.empty,
    [], []⟩

/-- What went wrong in a call a handler made. -/
inductive Cause where
  | json
  | uuid
  | db (e : DbError)
  | redis
  deriving DecidableEq

/-- A returned error: the text it is wrapped in and its cause. -/
structure HandlerError where
  text : String
  cause : Cause
  deriving DecidableEq

/-- `hub.Send(toID, data)`. -/
def World.send (w : World) (toID : UUID) (data : Frame) : World × Bool :=
  let (hub, ok) := w.hub.send toID data
  ({ w with hub := hub }, ok)

/-- `router.Publish(ctx, userID, data)`; `none` when Redis fails. -/
def World.publish (w : World) (env : Env) (userID : UUID) (data : Frame) :
    Option World :=
  if env.ok .publish then
    some { w with
      router := w.router.publish userID data
      published := w.published ++ [(userID, data)] }
  else none

/-! ## The frame rule -/

/-- From `w` to `w'` only frames `f` for users `u` with `Q u f` were enqueued or
    published. -/
structure Emits (Q : UUID → Frame → Prop) (w w' : World) : Prop where
  users : ∀ c, w'.hub.userOf c = w.hub.userOf c
  log : ∃ sent, w'.hub.log = w.hub.log ++ sent ∧ ∀ e ∈ sent, Q (w.hub.userOf e.1) e.2
  published : ∃ sent, w'.published = w.published ++ sent ∧ ∀ e ∈ sent, Q e.1 e.2

variable {Q R : UUID → Frame → Prop} {w w' w'' : World}

/-- The frames enqueued and published between two states, with their users. -/
def newFrames (w w' : World) : List (UUID × Frame) :=
  (w'.hub.log.drop w.hub.log.length).map (fun e => (w.hub.userOf e.1, e.2)) ++
    w'.published.drop w.published.length

/-- What is new on the air was emitted. -/
theorem Emits.newFrames (h : Emits Q w w') : ∀ e ∈ newFrames w w', Q e.1 e.2 := by
  obtain ⟨l, hl, hlQ⟩ := h.log
  obtain ⟨p, hp, hpQ⟩ := h.published
  intro e he
  rw [PeerWorld.newFrames] at he
  rw [hl, hp, List.drop_left, List.drop_left] at he
  rcases List.mem_append.mp he with hin | hin
  · obtain ⟨e', he', rfl⟩ := List.mem_map.mp hin
    exact hlQ e' he'
  · exact hpQ e hin

/-- A step that leaves the hub's log and the published list alone emits nothing. -/
theorem Emits.of_quiet (hhub : w'.hub = w.hub) (hpub : w'.published = w.published) :
    Emits Q w w' where
  users := by intro c; rw [hhub]
  log := ⟨[], by rw [hhub, List.append_nil], by intro e he; cases he⟩
  published := ⟨[], by rw [hpub, List.append_nil], by intro e he; cases he⟩

theorem Emits.refl (w : World) : Emits Q w w := Emits.of_quiet rfl rfl

/-- What the tables or the Redis keys were before does not matter. -/
theorem Emits.ofDb {db : Db} (h : Emits Q { w with db := db } w') : Emits Q w w' :=
  ⟨h.users, h.log, h.published⟩

theorem Emits.ofRedis {redis : Redis} (h : Emits Q { w with redis := redis } w') :
    Emits Q w w' :=
  ⟨h.users, h.log, h.published⟩

/-- What two steps emit one after the other is emitted by both. -/
theorem Emits.trans (h : Emits Q w w') (h' : Emits Q w' w'') : Emits Q w w'' := by
  obtain ⟨l, hl, hlQ⟩ := h.log
  obtain ⟨l', hl', hlQ'⟩ := h'.log
  obtain ⟨p, hp, hpQ⟩ := h.published
  obtain ⟨p', hp', hpQ'⟩ := h'.published
  refine ⟨?_, ⟨l ++ l', ?_, ?_⟩, ⟨p ++ p', ?_, ?_⟩⟩
  · intro c
    rw [h'.users, h.users]
  · rw [hl', hl, List.append_assoc]
  · intro e he
    rcases List.mem_append.mp he with hin | hin
    · exact hlQ e hin
    · rw [← h.users]
      exact hlQ' e hin
  · rw [hp', hp, List.append_assoc]
  · intro e he
    rcases List.mem_append.mp he with hin | hin
    · exact hpQ e hin
    · exact hpQ' e hin

/-- What `hub.Send` can do to the hub, in one go. -/
theorem send_cases (h : Hub Frame) (toID : UUID) (f : Frame) :
    (h.clients toID = none ∧ h.send toID f = (h, false)) ∨
    (∃ c ch, h.clients toID = some c ∧ (h.chan c).offer f = .sent ch ∧
      h.send toID f = (h.push c ch f, true)) ∨
    (∃ c, h.clients toID = some c ∧ (h.chan c).offer f = .full ∧
      h.send toID f = (h.unregister c, false)) ∨
    (∃ c, h.clients toID = some c ∧ (h.chan c).closed = true ∧
      h.send toID f = ({ h with panic := some .sendOnClosed }, false)) := by
  rw [Hub.send]
  cases hc : h.clients toID with
  | none => exact Or.inl ⟨rfl, rfl⟩
  | some c =>
      cases ho : (h.chan c).offer f with
      | sent ch => exact Or.inr (Or.inl ⟨c, ch, rfl, ho, by simp [ho]⟩)
      | full => exact Or.inr (Or.inr (Or.inl ⟨c, rfl, ho, by simp [ho]⟩))
      | panic =>
          exact Or.inr (Or.inr (Or.inr ⟨c, rfl, offer_panic.mp ho, by simp [ho]⟩))

/-- A `Send` logs at most its own frame, for its addressee. -/
theorem mem_send_log {h : Hub Frame} {toID : UUID} {f : Frame} {e : ClientId × Frame}
    (he : e ∈ (h.send toID f).1.log) : e ∈ h.log ∨ (h.userOf e.1 = toID ∧ e.2 = f) := by
  rcases send_cases h toID f with ⟨-, hs⟩ | ⟨c, ch, hc, -, hs⟩ | ⟨c, -, -, hs⟩ | ⟨c, -, -, hs⟩
  · rw [hs] at he
    exact Or.inl he
  · rw [hs, push_log] at he
    rcases List.mem_append.mp he with hold | hnew
    · exact Or.inl hold
    · rw [List.mem_singleton.mp hnew]
      exact Or.inr ⟨h.owned toID c hc, rfl⟩
  · rw [hs, unregister_log] at he
    exact Or.inl he
  · rw [hs] at he
    exact Or.inl he

theorem send_userOf (h : Hub Frame) (toID : UUID) (f : Frame) (c : ClientId) :
    (h.send toID f).1.userOf c = h.userOf c := by
  rcases send_cases h toID f with ⟨-, hs⟩ | ⟨d, ch, -, -, hs⟩ | ⟨d, -, -, hs⟩ | ⟨d, -, -, hs⟩
  · rw [hs]
  · rw [hs, push_userOf]
  · rw [hs, unregister_userOf]
  · rw [hs]
    rfl

/-- A `Send` leaves the clients of other users alone: their entries … -/
theorem send_clients_ne (h : Hub Frame) {toID u : UUID} (f : Frame) (hu : u ≠ toID) :
    (h.send toID f).1.clients u = h.clients u := by
  rcases send_cases h toID f with ⟨-, hs⟩ | ⟨c, ch, -, -, hs⟩ | ⟨c, hc, -, hs⟩ | ⟨c, -, -, hs⟩
  · rw [hs]
  · rw [hs, push_clients]
  · rw [hs]
    refine unregister_clients_ne h ?_
    rw [Hub.userOf, h.owned toID c hc]
    exact hu
  · rw [hs]

/-- … and their channels. -/
theorem send_chan_ne (h : Hub Frame) {toID : UUID} {d : ClientId} (f : Frame)
    (hd : h.userOf d ≠ toID) : (h.send toID f).1.chan d = h.chan d := by
  have hne : ∀ c, h.clients toID = some c → d ≠ c := by
    intro c hc hdc
    exact hd (hdc ▸ h.owned toID c hc)
  rcases send_cases h toID f with ⟨-, hs⟩ | ⟨c, ch, hc, -, hs⟩ | ⟨c, hc, -, hs⟩ | ⟨c, -, -, hs⟩
  · rw [hs]
  · rw [hs, push_chan_ne h ch f (hne c hc)]
  · rw [hs, unregister_chan_ne h (hne c hc)]
  · rw [hs]
    rfl

/-- Can the hub take a frame for `u`?  Its client's channel is open and has room. -/
def Enqueues (h : Hub Frame) (u : UUID) : Prop :=
  ∃ c ∈ h.clients u, (h.chan c).closed = false ∧
    (h.chan c).buf.length < (h.chan c).cap

instance (h : Hub Frame) (u : UUID) : Decidable (Enqueues h u) :=
  inferInstanceAs (Decidable (∃ c ∈ _, _))

/-- `Send` returns true exactly when the hub can take the frame, and then it is
    the one frame enqueued. -/
theorem send_enqueues (h : Hub Frame) (s : UUID) (f : Frame) :
    (Enqueues h s → (h.send s f).2 = true ∧ ∃ c, h.clients s = some c ∧
      (h.send s f).1.log = h.log ++ [(c, f)]) ∧
    (¬ Enqueues h s → (h.send s f).2 = false ∧ (h.send s f).1.log = h.log) := by
  rcases send_cases h s f with ⟨hno, hs⟩ | ⟨c, ch, hc, hoff, hs⟩ | ⟨c, hc, hoff, hs⟩ |
    ⟨c, hc, hcl, hs⟩
  · refine ⟨?_, fun _ => by rw [hs]; exact ⟨rfl, rfl⟩⟩
    rintro ⟨c, hc, -⟩
    rw [hno] at hc
    cases hc
  · refine ⟨fun _ => by rw [hs]; exact ⟨rfl, c, hc, rfl⟩, ?_⟩
    intro hn
    exact absurd ⟨c, hc, (offer_sent hoff).1, (offer_sent hoff).2.1⟩ hn
  · refine ⟨?_, fun _ => by rw [hs]; exact ⟨rfl, unregister_log h c⟩⟩
    rintro ⟨d, hd, -, hroom⟩
    rw [hc] at hd
    rw [← Option.some.inj hd] at hroom
    exact absurd (offer_full hoff).2 (Nat.not_le.mpr hroom)
  · refine ⟨?_, fun _ => by rw [hs]; exact ⟨rfl, rfl⟩⟩
    rintro ⟨d, hd, hopen, -⟩
    rw [hc] at hd
    rw [← Option.some.inj hd, hcl] at hopen
    cases hopen

/-- What the addressee's own queue and entry are after a `Send`. -/
theorem send_self {h : Hub Frame} {toID : UUID} {c : ClientId} (f : Frame)
    (hc : h.clients toID = some c) (hopen : (h.chan c).closed = false) :
    (Enqueues h toID → (h.send toID f).2 = true ∧
      ((h.send toID f).1.chan c).buf = (h.chan c).buf ++ [f]) ∧
    (¬ Enqueues h toID → (h.send toID f).2 = false ∧
      (h.send toID f).1.clients toID = none ∧
      ((h.send toID f).1.chan c).buf = (h.chan c).buf) := by
  obtain ⟨hyes, hno⟩ := send_enqueues h toID f
  rcases send_cases h toID f with ⟨hnone, -⟩ | ⟨d, ch, hd, hoff, hs⟩ | ⟨d, hd, hoff, hs⟩ |
    ⟨d, hd, hcl, -⟩
  · rw [hc] at hnone
    cases hnone
  · rw [hc] at hd
    cases hd
    refine ⟨fun he => ⟨(hyes he).1, ?_⟩, fun he => ?_⟩
    · rw [hs, push_chan_self, (offer_sent hoff).2.2]
    · exact absurd ⟨c, hc, (offer_sent hoff).1, (offer_sent hoff).2.1⟩ he
  · rw [hc] at hd
    cases hd
    refine ⟨fun he => ?_, fun he => ⟨(hno he).1, ?_, ?_⟩⟩
    · obtain ⟨d, hd, -, hroom⟩ := he
      rw [hc] at hd
      cases hd
      exact absurd (offer_full hoff).2 (Nat.not_le.mpr hroom)
    · rw [hs]
      have huser : h.userOf c = toID := h.owned toID c hc
      rw [← huser]
      exact unregister_clients_self (holds_of_clients hc)
    · rw [hs]
      exact unregister_buf h c c
  · rw [hc] at hd
    cases hd
    rw [hopen] at hcl
    cases hcl

/-- `hub.Send` enqueues for its addressee only. -/
theorem emits_send (w : World) {toID : UUID} {f : Frame} (hQ : Q toID f) :
    Emits Q w (w.send toID f).1 := by
  rw [World.send]
  rcases send_cases w.hub toID f with ⟨-, hs⟩ | ⟨c, ch, hc, -, hs⟩ | ⟨c, -, -, hs⟩ |
    ⟨c, -, -, hs⟩
  · rw [hs]
    exact Emits.of_quiet rfl rfl
  · rw [hs]
    refine ⟨fun d => push_userOf w.hub c d ch f, ⟨[(c, f)], rfl, ?_⟩, ⟨[], ?_, ?_⟩⟩
    · intro e he
      rw [List.mem_singleton.mp he]
      show Q (w.hub.userOf c) f
      rw [Hub.userOf]
      rw [w.hub.owned toID c hc]
      exact hQ
    · rw [List.append_nil]
    · intro e he
      cases he
  · rw [hs]
    refine ⟨fun d => unregister_userOf w.hub c d, ⟨[], ?_, ?_⟩, ⟨[], ?_, ?_⟩⟩
    · rw [List.append_nil]
      exact unregister_log w.hub c
    · intro e he
      cases he
    · rw [List.append_nil]
    · intro e he
      cases he
  · rw [hs]
    exact ⟨fun _ => rfl, ⟨[], by simp, by intro e he; cases he⟩,
      ⟨[], by simp, by intro e he; cases he⟩⟩

/-- `router.Publish` publishes for its addressee only. -/
theorem emits_publish {env : Env} {userID : UUID} {f : Frame}
    (h : w.publish env userID f = some w') (hQ : Q userID f) : Emits Q w w' := by
  rw [World.publish] at h
  split at h
  · rw [← Option.some.inj h]
    refine ⟨fun _ => rfl, ⟨[], by rw [List.append_nil], by intro e he; cases he⟩,
      ⟨[(userID, f)], rfl, ?_⟩⟩
    intro e he
    rw [List.mem_singleton.mp he]
    exact hQ
  · cases h

/-- `if !hub.Send(userID, data) { router.Publish(ctx, userID, data) }`, the error
    of `Publish` ignored. -/
def World.sendOrPublish (w : World) (env : Env) (userID : UUID) (data : Frame) :
    World :=
  let (w, delivered) := w.send userID data
  if delivered then w else (w.publish env userID data).getD w

@[simp] theorem send_db (w : World) (toID : UUID) (f : Frame) :
    (w.send toID f).1.db = w.db := rfl

@[simp] theorem send_addressed (w : World) (toID : UUID) (f : Frame) :
    (w.send toID f).1.addressed = w.addressed := rfl

@[simp] theorem send_redis (w : World) (toID : UUID) (f : Frame) :
    (w.send toID f).1.redis = w.redis := rfl

@[simp] theorem send_published (w : World) (toID : UUID) (f : Frame) :
    (w.send toID f).1.published = w.published := rfl

/-- Publishing touches neither the tables nor the hub. -/
theorem publish_some {env : Env} {userID : UUID} {f : Frame}
    (h : w.publish env userID f = some w') :
    w'.db = w.db ∧ w'.hub = w.hub ∧ w'.addressed = w.addressed ∧
      w'.published = w.published ++ [(userID, f)] := by
  rw [World.publish] at h
  split at h
  · rw [← Option.some.inj h]
    exact ⟨rfl, rfl, rfl, rfl⟩
  · cases h

/-! ## `Send`, and `Publish` when it fails -/

@[simp] theorem sendOrPublish_db (w : World) (env : Env) (u : UUID) (f : Frame) :
    (w.sendOrPublish env u f).db = w.db := by
  rw [World.sendOrPublish]
  cases hs : w.send u f with
  | mk w₁ delivered =>
      have hdb : w₁.db = w.db := by
        have := send_db w u f
        rw [hs] at this
        exact this
      cases delivered with
      | true => exact hdb
      | false =>
          simp only [Bool.false_eq_true, if_false]
          cases hp : w₁.publish env u f with
          | none => exact hdb
          | some w₂ => exact (publish_some hp).1.trans hdb

/-- Of the hub's operations it makes the one `Send`. -/
theorem sendOrPublish_hub (w : World) (env : Env) (u : UUID) (f : Frame) :
    (w.sendOrPublish env u f).hub = (w.hub.send u f).1 := by
  rw [World.sendOrPublish, World.send]
  cases hs : w.hub.send u f with
  | mk h delivered =>
      cases delivered with
      | true => rfl
      | false =>
          simp only [Bool.false_eq_true, if_false]
          cases hp : World.publish { w with hub := h } env u f with
          | none => rfl
          | some w₂ => exact (publish_some hp).2.1

/-- It publishes when the `Send` returned false and Redis is there. -/
theorem sendOrPublish_published (w : World) (env : Env) (u : UUID) (f : Frame) :
    (w.sendOrPublish env u f).published = w.published ++
      if (w.hub.send u f).2 = false ∧ env.ok .publish = true then [(u, f)] else [] := by
  rw [World.sendOrPublish, World.send]
  cases hs : w.hub.send u f with
  | mk h delivered =>
      cases delivered with
      | true => simp
      | false =>
          simp only [Bool.false_eq_true, if_false, true_and]
          rw [World.publish]
          cases env.ok .publish with
          | true => simp
          | false => simp

/-- The frame reaches somebody when the hub can take it or Redis can. -/
theorem newFrames_sendOrPublish (w : World) (env : Env) (u : UUID) (f : Frame) :
    newFrames w (w.sendOrPublish env u f) =
      if Enqueues w.hub u ∨ env.ok .publish = true then [(u, f)] else [] := by
  rw [newFrames]
  rw [sendOrPublish_hub, sendOrPublish_published, List.drop_left]
  obtain ⟨hyes, hno⟩ := send_enqueues w.hub u f
  by_cases he : Enqueues w.hub u
  · obtain ⟨hret, c, hc, hlog⟩ := hyes he
    have huser : w.hub.userOf c = u := w.hub.owned u c hc
    simp [hlog, hret, he, huser]
  · obtain ⟨hret, hlog⟩ := hno he
    simp [hlog, hret, he]

/-- It enqueues or publishes for its addressee only. -/
theorem emits_sendOrPublish (w : World) {env : Env} {u : UUID} {f : Frame}
    (hQ : Q u f) : Emits Q w (w.sendOrPublish env u f) := by
  have hsend := emits_send w hQ
  rw [World.sendOrPublish]
  cases hs : w.send u f with
  | mk w₁ delivered =>
      rw [hs] at hsend
      cases delivered with
      | true => exact hsend
      | false =>
          simp only [Bool.false_eq_true, if_false]
          cases hp : w₁.publish env u f with
          | none => exact hsend
          | some w₂ => exact hsend.trans (emits_publish hp hQ)

end PeerWorld
