import PeerChat.DeliveryProofs
import PeerChat.ClusterProofs

/-! # What a step does to the subscriptions

    A thread step touches the router in seven places.  `Kept` says once what any of
    them leaves of the subscriptions: owners and unread payloads stay, only the
    closing thread closes, and only a forwarding goroutine takes a payload. -/

namespace PeerServer

open PeerEnv PeerHub PeerRouter PeerStore PeerFrame PeerWorld PeerHandler
open Transition ThreadPool

/-- The router after the next step of a thread. -/
def routerAfter (w : World) (env : Env) : Thread → Router Frame
  | .dmPublish call stored =>
      if env.ok .publish then w.router.publish call.receiverID (call.outbound stored)
      else w.router
  | .ackPublish senderID messageID =>
      if env.ok .publish then w.router.publish senderID (.read messageID) else w.router
  | .connOpen c => w.router.openSub (w.hub.userOf c)
  | .connFile c sub => w.router.file (w.hub.userOf c) sub
  | .connUnfile c => w.router.unfile (w.hub.userOf c)
  | .connClose (some sub) => w.router.close sub
  | .forward sub =>
      if (w.router.pubsub sub).inbox.isEmpty then w.router else w.router.take sub
  | _ => w.router

/-- The router after a step is decided by the goroutine and its environment. -/
theorem router_of_step {w w' : World} {env : Env} {t t' : Thread} {new : List Thread}
    (h : stepThread w env t = some (w', t', new)) : w'.router = routerAfter w env t := by
  have hmark : ∀ id, (markDelivered w env id).router = w.router := by
    intro id
    rw [markDelivered]
    split <;> rfl
  cases t with
  | dmFind call =>
      simp only [stepThread] at h
      split at h <;> cases h <;> rfl
  | dmCreate call =>
      simp only [stepThread] at h
      split at h <;> cases h <;> rfl
  | dmInsert call chatID =>
      simp only [stepThread] at h
      split at h <;> cases h <;> rfl
  | dmPublish call stored =>
      simp only [stepThread, World.publish] at h
      rw [routerAfter]
      cases hok : env.ok .publish with
      | true =>
          simp only [hok, if_true] at h
          cases h
          rfl
      | false =>
          simp only [hok, Bool.false_eq_true, if_false] at h
          cases h
          rfl
  | dmMark call stored =>
      cases h
      exact hmark stored.id
  | drainMark c row rest =>
      cases h
      exact hmark row.message.id
  | connPending c =>
      simp only [stepThread] at h
      split at h <;> cases h <;> rfl
  | drain c rows =>
      cases rows with
      | nil =>
          cases h
          rfl
      | cons row rest =>
          cases h
          rfl
  | connClose sub =>
      cases sub with
      | some sub =>
          cases h
          rfl
      | none =>
          cases h
          rfl
  | forward sub =>
      simp only [stepThread] at h
      rw [routerAfter]
      cases hin : (w.router.pubsub sub).inbox with
      | nil =>
          rw [hin] at h
          simp only at h
          split at h
          · cases h
            rfl
          · cases h
      | cons payload rest =>
          rw [hin] at h
          cases h
          rfl
  | ackUpdate readerID call =>
      simp only [stepThread] at h
      split at h
      · split at h <;> cases h <;> rfl
      · cases h
        rfl
  | ackPublish senderID messageID =>
      cases h
      simp only [World.publish, routerAfter]
      cases env.ok .publish with
      | true => rfl
      | false => rfl
  | send k pc =>
      simp only [stepThread] at h
      cases hn : stepSend w.hub k.toID k.data pc with
      | mk hub next =>
          rw [hn] at h
          cases next with
          | goto pc' =>
              cases h
              rfl
          | returned ok =>
              cases h
              rfl
  | done => cases h
  | _ =>
      cases h
      rfl

/-- **WHAT A STEP LEAVES OF THE SUBSCRIPTIONS.** -/
structure Kept (w : World) (t : Thread) (r : Router Frame) : Prop where
  opened : w.router.opened ≤ r.opened
  owner : ∀ k, k < w.router.opened → (r.pubsub k).userID = (w.router.pubsub k).userID
  closed : ∀ k, k < w.router.opened → t ≠ .connClose (some k) →
    (r.pubsub k).closed = (w.router.pubsub k).closed
  inbox : ∀ k, k < w.router.opened → ∀ f ∈ (w.router.pubsub k).inbox,
    f ∈ (r.pubsub k).inbox ∨ (t = .forward k ∧ ∃ rest, (w.router.pubsub k).inbox = f :: rest)
  fresh : ∀ k, w.router.opened ≤ k → (r.pubsub k).closed = false →
    (w.router.pubsub k).closed = false ∨
      (k = w.router.opened ∧ k < r.opened ∧
        ∃ c, t = .connOpen c ∧ (r.pubsub k).userID = w.hub.userOf c)
  filed : ∀ v k, r.subs v = some k →
    w.router.subs v = some k ∨ ∃ c, t = .connFile c k ∧ v = w.hub.userOf c

/-- A router that is left alone is kept. -/
theorem Kept.same (w : World) (t : Thread) : Kept w t w.router :=
  ⟨Nat.le_refl _, fun _ _ => rfl, fun _ _ _ => rfl, fun _ _ _ hf => Or.inl hf,
    fun _ _ hcl => Or.inl hcl, fun _ _ hk => Or.inl hk⟩

/-- A publish only lengthens inboxes. -/
theorem Kept.publish (w : World) (t : Thread) (u : UUID) (f : Frame) :
    Kept w t (w.router.publish u f) := by
  have hclosed : ∀ k, ((w.router.publish u f).pubsub k).closed = (w.router.pubsub k).closed := by
    intro k
    simp only [Router.publish]
    split <;> rfl
  refine ⟨Nat.le_refl _, fun k _ => publish_userID w.router u f k, fun k _ _ => hclosed k, ?_,
    fun k _ hcl => Or.inl ((hclosed k).symm.trans hcl), fun _ _ hk => Or.inl hk⟩
  intro k _ g hg
  rw [publish_inbox]
  exact Or.inl (List.mem_append_left _ hg)

/-- `Subscribe` opens the next subscription, and leaves the others. -/
theorem Kept.openSub (w : World) (c : ClientId) :
    Kept w (.connOpen c) (w.router.openSub (w.hub.userOf c)) := by
  have hold := fun k => openSub_old w.router (w.hub.userOf c) (j := k)
  refine ⟨Nat.le_succ _, ?_, ?_, ?_, ?_, fun _ _ hk => Or.inl hk⟩
  · intro k hk
    rw [hold k hk]
  · intro k hk _
    rw [hold k hk]
  · intro k hk f hf
    rw [hold k hk]
    exact Or.inl hf
  · intro k hk hcl
    rcases Nat.eq_or_lt_of_le hk with heq | hlt
    · subst heq
      exact Or.inr ⟨rfl, Nat.lt_succ_self _, c, rfl, by rw [openSub_self]⟩
    · rw [Router.openSub] at hcl
      simp only [Function.update_of_ne (Nat.ne_of_gt hlt)] at hcl
      exact Or.inl hcl

/-- Filing and unfiling only touch the user's own entry. -/
theorem Kept.of_subs {w : World} {t : Thread} {r : Router Frame}
    (hopened : r.opened = w.router.opened) (hpubsub : r.pubsub = w.router.pubsub)
    (hsubs : ∀ v k, r.subs v = some k →
      w.router.subs v = some k ∨ ∃ c, t = .connFile c k ∧ v = w.hub.userOf c) : Kept w t r := by
  refine ⟨Nat.le_of_eq hopened.symm, ?_, ?_, ?_, ?_, hsubs⟩
  · intro k _
    rw [hpubsub]
  · intro k _ _
    rw [hpubsub]
  · intro k _ f hf
    rw [hpubsub]
    exact Or.inl hf
  · intro k _ hcl
    rw [hpubsub] at hcl
    exact Or.inl hcl

/-- Filing a subscription leaves the subscriptions as they are. -/
theorem Kept.file (w : World) (c : ClientId) (sub : SubId) :
    Kept w (.connFile c sub) (w.router.file (w.hub.userOf c) sub) := by
  refine Kept.of_subs rfl rfl ?_
  intro v k hk
  by_cases hv : v = w.hub.userOf c
  · rw [hv, file_subs_self] at hk
    cases hk
    exact Or.inr ⟨c, rfl, hv⟩
  · rw [file_subs_ne _ _ hv] at hk
    exact Or.inl hk

/-- Taking an entry out leaves the subscriptions as they are. -/
theorem Kept.unfile (w : World) (t : Thread) (u : UUID) : Kept w t (w.router.unfile u) := by
  refine Kept.of_subs rfl rfl ?_
  intro v k hk
  by_cases hv : v = u
  · rw [hv, unfile_subs_self] at hk
    cases hk
  · rw [unfile_subs_ne _ hv] at hk
    exact Or.inl hk

/-- `Close` closes the one subscription; what is in its inbox stays. -/
theorem Kept.close (w : World) (sub : SubId) :
    Kept w (.connClose (some sub)) (w.router.close sub) := by
  refine ⟨Nat.le_refl _, fun k _ => close_userID w.router sub k, ?_, ?_, ?_,
    fun _ _ hk => Or.inl hk⟩
  · intro k _ hne
    have hk : k ≠ sub := fun hks => hne (by rw [hks])
    rw [close_ne _ hk]
  · intro k _ f hf
    left
    rw [Router.close]
    by_cases hk : k = sub
    · rw [hk] at hf ⊢
      simp only [Function.update_self]
      exact hf
    · simp only [Function.update_of_ne hk]
      exact hf
  · intro k _ hcl
    by_cases hk : k = sub
    · rw [hk, close_self] at hcl
      cases hcl
    · rw [close_ne _ hk] at hcl
      exact Or.inl hcl

/-- The forwarder takes the first payload of its own inbox. -/
theorem Kept.take (w : World) (sub : SubId) :
    Kept w (.forward sub) (w.router.take sub) := by
  have hfields : ∀ k, ((w.router.take sub).pubsub k).userID = (w.router.pubsub k).userID ∧
      ((w.router.take sub).pubsub k).closed = (w.router.pubsub k).closed := by
    intro k
    by_cases hk : k = sub
    · rw [hk]
      simp [Router.take]
    · simp [Router.take, Function.update_of_ne hk]
  refine ⟨Nat.le_refl _, fun k _ => (hfields k).1, fun k _ _ => (hfields k).2, ?_,
    fun k _ hcl => Or.inl ((hfields k).2.symm.trans hcl), fun _ _ hk => Or.inl hk⟩
  intro k _ f hf
  by_cases hk : k = sub
  · subst hk
    cases hin : (w.router.pubsub k).inbox with
    | nil =>
        rw [hin] at hf
        cases hf
    | cons payload rest =>
        rw [hin] at hf
        rcases List.mem_cons.mp hf with rfl | hrest
        · exact Or.inr ⟨rfl, rest, rfl⟩
        · left
          simp only [Router.take, Function.update_self, hin]
          exact hrest
  · left
    simp only [Router.take, Function.update_of_ne hk]
    exact hf

/-- **EVERY STEP KEEPS THE SUBSCRIPTIONS**, but for the one its goroutine closes or
    reads. -/
theorem kept_of_step {w w' : World} {env : Env} {t t' : Thread} {new : List Thread}
    (h : stepThread w env t = some (w', t', new)) : Kept w t w'.router := by
  rw [router_of_step h]
  cases t with
  | dmPublish call stored =>
      simp only [routerAfter]
      split
      · exact Kept.publish w _ _ _
      · exact Kept.same w _
  | ackPublish senderID messageID =>
      simp only [routerAfter]
      split
      · exact Kept.publish w _ _ _
      · exact Kept.same w _
  | connOpen c => exact Kept.openSub w c
  | connFile c sub => exact Kept.file w c sub
  | connUnfile c => exact Kept.unfile w _ _
  | connClose sub =>
      cases sub with
      | none => exact Kept.same w _
      | some sub => exact Kept.close w sub
  | forward sub =>
      simp only [routerAfter]
      split
      · exact Kept.same w _
      · exact Kept.take w sub
  | _ => exact Kept.same w _

/-- A thread's step, with the equation it comes from. -/
theorem run_cases {s s' : Server} {i : Nat} {env : Env} (h : step s (.run i env) = some s') :
    ∃ t w t' new, s.threads[i]? = some t ∧ stepThread s.world env t = some (w, t', new) ∧
      s' = { s with
        world := w
        threads := moved s.threads i t' new
        sockets := startPump s.sockets t' } := by
  simp only [step] at h
  split at h
  · cases h
  · split at h
    · cases h
    · rename_i t hi
      split at h
      · cases h
      · rename_i w t' new ht
        cases h
        exact ⟨t, w, t', new, hi, ht, rfl⟩

end PeerServer
