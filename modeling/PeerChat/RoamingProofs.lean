import PeerChat.RoutingProofs
import PeerChat.AtLeastOnceProofs

/-! # What the threads of the instances know

    The receiver `u` connects by `c` to instance `j` only.  The threads of all instances
    know of the routing what `Routes` says, and those of the others are as `Roams` says:
    they connect nobody and find no client of `u`.  A step keeps both. -/

namespace PeerCluster

open PeerEnv KeyedTable BufferedChan PeerHub PeerRouter PeerStore PeerFrame PeerWorld PeerHandler
open PeerServer Transition ThreadPool

variable {ι : Type}

/-- What a thread of instance `i` knows of the routing, where `u` is the user who
    connects to `j` by `c`. -/
def Routes (j : ι) (c : ClientId) (u : UUID) (d : Cluster ι) (i : ι) : Thread → Prop
  | .send (.dmLive call stored) _ =>
      stored.id ∈ d.db.messages.keys ∧ ((stored.id, u) ∈ d.addressed → call.receiverID = u)
  | .dmPublish call stored =>
      stored.id ∈ d.db.messages.keys ∧ ((stored.id, u) ∈ d.addressed → call.receiverID = u)
  | .connFile _ k => k < d.opened ∧ (d.pubsub k).userID = u ∧ (d.pubsub k).closed = false
  | .live e => (i = j ∧ e = c) ∨ (d.hub i).userOf e ≠ u
  | .connOffline e => (d.hub i).userOf e ≠ u
  | .connUnfile e => (d.hub i).userOf e ≠ u
  | .connClose (some k) => k < d.opened ∧ (d.pubsub k).userID ≠ u
  | .forward k => k < d.opened ∧ ((d.pubsub k).userID = u → (d.pubsub k).closed = false → i = j)
  | .send (.forward k _ _) _ =>
      k < d.opened ∧ ((d.pubsub k).userID = u → (d.pubsub k).closed = false → i = j)
  | _ => True

/-- What the threads of the other instances are: they connect nobody, and find no client
    of `u`. -/
def Roams (u : UUID) (d : Cluster ι) : Thread → Prop
  | .send (.dmLive call _) pc => call.receiverID = u → pc = .lookup
  | .dmMark _ stored => stored.id ∈ d.db.messages.keys ∧ (stored.id, u) ∉ d.addressed
  | .connRegister _ => False
  | .connOnline _ => False
  | .connOpen _ => False
  | .connFile _ _ => False
  | .connPending _ => False
  | .drain _ _ => False
  | .send (.drain _ _ _ _) _ => False
  | .drainMark _ _ _ => False
  | .ackUpdate _ _ => False
  | _ => True

/-- What every step keeps of it. -/
structure Steady (u : UUID) (d d' : Cluster ι) : Prop where
  users : ∀ i e, (d'.hub i).userOf e = (d.hub i).userOf e
  keys : ∀ id ∈ d.db.messages.keys, id ∈ d'.db.messages.keys
  addressed : ∀ id ∈ d.db.messages.keys, ∀ v, (id, v) ∈ d'.addressed → (id, v) ∈ d.addressed
  opened : d.opened ≤ d'.opened
  owner : ∀ k, k < d.opened → (d'.pubsub k).userID = (d.pubsub k).userID
  closed : ∀ k, k < d.opened → (d.pubsub k).userID = u →
    (d'.pubsub k).closed = (d.pubsub k).closed

variable {j i : ι} {c : ClientId} {u : UUID} {d d' : Cluster ι} {t : Thread}

/-- What a thread knows of the routing outlasts a steady step. -/
theorem Routes.mono (h : Routes j c u d i t) (hs : Steady u d d') : Routes j c u d' i t := by
  have hrecv : ∀ (call : DmCall) (stored : Message),
      (stored.id ∈ d.db.messages.keys ∧ ((stored.id, u) ∈ d.addressed → call.receiverID = u)) →
      (stored.id ∈ d'.db.messages.keys ∧ ((stored.id, u) ∈ d'.addressed → call.receiverID = u)) :=
    fun call stored hk => ⟨hs.keys _ hk.1, fun ha => hk.2 (hs.addressed _ hk.1 u ha)⟩
  have hforward : ∀ k,
      (k < d.opened ∧ ((d.pubsub k).userID = u → (d.pubsub k).closed = false → i = j)) →
      (k < d'.opened ∧ ((d'.pubsub k).userID = u → (d'.pubsub k).closed = false → i = j)) := by
    intro k hk
    refine ⟨Nat.lt_of_lt_of_le hk.1 hs.opened, ?_⟩
    intro howner hcl
    rw [hs.owner k hk.1] at howner
    rw [hs.closed k hk.1 howner] at hcl
    exact hk.2 howner hcl
  cases t with
  | dmPublish call stored => exact hrecv call stored h
  | connFile e k =>
      obtain ⟨hk, howner, hcl⟩ := h
      exact ⟨Nat.lt_of_lt_of_le hk hs.opened, (hs.owner k hk).trans howner,
        (hs.closed k hk howner).trans hcl⟩
  | live e =>
      rw [Routes, hs.users]
      exact h
  | connOffline e =>
      rw [Routes, hs.users]
      exact h
  | connUnfile e =>
      rw [Routes, hs.users]
      exact h
  | connClose sub =>
      cases sub with
      | none => trivial
      | some k =>
          refine ⟨Nat.lt_of_lt_of_le h.1 hs.opened, ?_⟩
          rw [hs.owner k h.1]
          exact h.2
  | forward k => exact hforward k h
  | send k pc =>
      cases k with
      | dmLive call stored => exact hrecv call stored h
      | forward k v f => exact hforward k h
      | _ => trivial
  | _ => trivial

/-- A thread of another instance goes on roaming after a steady step. -/
theorem Roams.mono (h : Roams u d t) (hs : Steady u d d') : Roams u d' t := by
  cases t with
  | dmMark call stored =>
      exact ⟨hs.keys _ h.1, fun ha => h.2 (hs.addressed _ h.1 u ha)⟩
  | send k pc =>
      cases k with
      | _ => exact h
  | _ => exact h

/-- They mark nothing of `u`'s. -/
theorem Roams.not_addressed (h : Roams u d t) {id : UUID} {st : Status}
    (hsets : t.sets = some (id, st)) : (id, u) ∉ d.addressed := by
  cases t with
  | dmMark call stored =>
      have heq : stored.id = id := congrArg Prod.fst (Option.some.inj hsets)
      rw [← heq]
      exact h.2
  | drainMark e row rest => exact False.elim h
  | ackUpdate readerID call => exact False.elim h
  | _ => cases hsets

/-- They connect nobody. -/
theorem Roams.connects (h : Roams u d t) : t.connects = none := by
  cases t with
  | connRegister e => exact False.elim h
  | connOnline e => exact False.elim h
  | connOpen e => exact False.elim h
  | connFile e k => exact False.elim h
  | connPending e => exact False.elim h
  | drain e rows => exact False.elim h
  | drainMark e row rest => exact False.elim h
  | send k pc =>
      cases k with
      | drain e v row rest => exact False.elim h
      | _ => rfl
  | _ => rfl

/-! ## One step of a thread -/

section ThreadSteps

variable [DecidableEq ι] {env : Env} {w' : World} {t' : Thread} {new : List Thread}

/-- A step gives no connection to another user. -/
theorem put_users (hg : Grows (d.world i) w') (k : ι) (e : ClientId) :
    ((d.put i w').hub k).userOf e = (d.hub k).userOf e := by
  by_cases hk : k = i
  · subst hk
    show (Function.update d.hub k w'.hub k).userOf e = _
    rw [Function.update_self]
    exact hg.users e
  · show (Function.update d.hub i w'.hub k).userOf e = _
    rw [Function.update_of_ne hk]

/-- A step of a thread that knows its routing is steady. -/
theorem steady_of_step (hstep : stepThread (d.world i) env t = some (w', t', new))
    (hr : Routes j c u d i t) : Steady u d (d.put i w') := by
  have hg := (threadStep_of_stepThread hstep).grows
  have hkept := kept_of_step hstep
  refine ⟨put_users hg, hg.keys, fun id hid v hv => hg.addressed_of hid hv, hkept.opened,
    hkept.owner, ?_⟩
  intro k hk howner
  refine hkept.closed k hk ?_
  rintro rfl
  exact hr.2 howner

/-- What other instances see of a step grows too. -/
theorem grows_put (hg : Grows (d.world i) w') (k : ι) :
    Grows (d.world k) ((d.put i w').world k) := by
  by_cases hk : k = i
  · subst hk
    rw [put_world]
    exact hg
  · rw [put_world_ne d hk]
    exact ⟨fun _ => rfl, hg.keys, hg.members, fun _ he => he, hg.record, hg.addressed⟩

/-- After its step a thread knows its routing, and so does every thread it starts. -/
theorem routes_of_step (hstep : stepThread (d.world i) env t = some (w', t', new))
    (hr : Routes j c u d i t) (huser : (d.hub j).userOf c = u)
    (hconn : ∀ e, t.connects = some e → i = j ∧ e = c) (hstay : i = j → t ≠ .live c)
    (hfiled : ∀ v k, d.subs i v = some k → k < d.opened ∧ (d.pubsub k).userID = v)
    (hknown : ∀ p ∈ d.addressed, p.1 ∈ d.db.messages.keys) :
    Routes j c u (d.put i w') i t' ∧ ∀ v ∈ new, Routes j c u (d.put i w') i v := by
  have hs := steady_of_step hstep hr
  have h := threadStep_of_stepThread hstep
  cases h with
  | quiet hdb hhub haddr hq =>
      cases hq with
      | opened e sub =>
          obtain ⟨rfl, rfl⟩ := hconn e rfl
          cases hstep
          refine ⟨⟨Nat.lt_succ_self _, ?_, ?_⟩, fun v hv => (by cases hv)⟩
          · show (((d.world i).router.openSub _).pubsub d.opened).userID = u
            rw [← huser]
            exact congrArg PubSub.userID (openSub_self (d.world i).router _)
          · exact congrArg PubSub.closed (openSub_self (d.world i).router _)
      | filed e sub =>
          obtain ⟨rfl, rfl⟩ := hconn e rfl
          refine ⟨trivial, ?_⟩
          intro v hv
          rw [List.mem_singleton.mp hv]
          exact Routes.mono (t := .forward sub) ⟨hr.1, fun _ _ => rfl⟩ hs
      | drained e =>
          exact ⟨Or.inl (hconn e rfl), fun v hv => (by cases hv)⟩
      | offline e => exact ⟨Routes.mono (t := .connUnfile e) hr hs, fun v hv => (by cases hv)⟩
      | unfiled e sub =>
          cases hstep
          refine ⟨?_, fun v hv => (by cases hv)⟩
          cases hsub : d.subs i ((d.hub i).userOf e) with
          | none =>
              show Routes j c u _ i (.connClose (d.subs i ((d.hub i).userOf e)))
              rw [hsub]
              trivial
          | some k =>
              obtain ⟨hk, howner⟩ := hfiled _ k hsub
              show Routes j c u _ i (.connClose (d.subs i ((d.hub i).userOf e)))
              rw [hsub]
              refine Routes.mono (t := .connClose (some k)) ⟨hk, ?_⟩ hs
              rw [howner]
              exact hr
      | forwarded sub userID payload =>
          exact ⟨Routes.mono (t := .forward sub) hr hs, fun v hv => (by cases hv)⟩
      | _ => exact ⟨trivial, fun v hv => (by cases hv)⟩
  | stored call chatID db stored hi =>
      obtain ⟨-, hst⟩ := insertMessage_ok hi
      refine ⟨⟨?_, ?_⟩, fun v hv => (by cases hv)⟩
      · refine mem_keys.mpr ⟨stored, ?_, rfl⟩
        show stored ∈ db.messages.rows
        rw [hst.messages]
        exact List.mem_concat_self
      · intro ha
        rcases List.mem_append.mp ha with hold | hnew
        · exact absurd (hknown _ hold) hst.fresh
        · exact (congrArg Prod.snd (List.mem_singleton.mp hnew)).symm
  | sendGoto k pc pc' hub hsend =>
      refine ⟨?_, fun v hv => (by cases hv)⟩
      refine Routes.mono (t := .send k pc') ?_ hs
      cases k <;> exact hr
  | sendReturned k pc hub ok hsend =>
      refine ⟨?_, fun v hv => (by cases hv)⟩
      cases k with
      | dmLive call stored =>
          cases ok with
          | true => trivial
          | false => exact Routes.mono (t := .dmPublish call stored) hr hs
      | forward sub v f => exact Routes.mono (t := .forward sub) hr hs
      | ackNotify senderID messageID => cases ok <;> trivial
      | _ => trivial
  | pendingFailed e hfail => exact ⟨Or.inl (hconn e rfl), fun v hv => (by cases hv)⟩
  | ended e =>
      refine ⟨?_, fun v hv => (by cases hv)⟩
      refine Routes.mono (t := .connOffline e) ?_ hs
      rcases hr with ⟨rfl, rfl⟩ | hne
      · exact absurd rfl (hstay rfl)
      · exact hne
  | acked readerID call hok =>
      refine ⟨?_, fun v hv => (by cases hv)⟩
      rw [ackNext]
      split <;> trivial
  | _ => exact ⟨trivial, fun v hv => (by cases hv)⟩

/-- An instance that connects nobody gets no client of `u`. -/
theorem clients_none_of_step {w : World} (h : ThreadStep w env t w' t' new)
    (hnone : w.hub.clients u = none) (hreg : ∀ e, t ≠ .connRegister e) :
    w'.hub.clients u = none := by
  have hunregister : ∀ e, (w.hub.unregister e).clients u = none := by
    intro e
    cases hc : (w.hub.unregister e).clients u with
    | none => rfl
    | some x =>
        rw [(clients_of_unregister hc).1] at hnone
        cases hnone
  cases h with
  | quiet hdb hhub haddr hq =>
      rw [hhub]
      exact hnone
  | sendGoto k pc pc' hub hs =>
      cases hs with
      | found e he => exact hnone
      | full e hopen hfull => exact hnone
  | sendReturned k pc hub ok hs =>
      cases hs with
      | offline hno => exact hnone
      | sent e ch hch => exact hnone
      | panic e hcl => exact hnone
      | evict e => exact hunregister e
  | marked call stored =>
      rw [markDelivered_hub]
      exact hnone
  | drainMarked e row rest =>
      rw [markDelivered_hub]
      exact hnone
  | registered e => exact absurd rfl (hreg e)
  | ended e => exact hunregister e
  | _ => exact hnone

/-- Where the user has no client a thread goes on roaming after its step. -/
theorem roams_of_step (hstep : stepThread (d.world i) env t = some (w', t', new))
    (hr : Routes j c u d i t) (hroams : Roams u d t)
    (hnone : (d.hub i).clients u = none) :
    Roams u (d.put i w') t' ∧ ∀ v ∈ new, Roams u (d.put i w') v := by
  have hs := steady_of_step hstep hr
  have h := threadStep_of_stepThread hstep
  cases h with
  | quiet hdb hhub haddr hq =>
      cases hq with
      | online e => exact False.elim hroams
      | opened e sub => exact False.elim hroams
      | filed e sub => exact False.elim hroams
      | drained e => exact False.elim hroams
      | drainNext e row rest => exact False.elim hroams
      | _ => exact ⟨trivial, fun v hv => (by cases hv)⟩
  | stored call chatID db stored hi => exact ⟨fun _ => rfl, fun v hv => (by cases hv)⟩
  | sendGoto k pc pc' hub hsend =>
      refine ⟨?_, fun v hv => (by cases hv)⟩
      cases k with
      | dmLive call stored =>
          intro hto
          cases hsend with
          | found e he =>
              change (d.hub i).clients call.receiverID = some e at he
              rw [hto, hnone] at he
              cases he
          | full e hopen hfull => cases hroams hto
      | drain e v row rest => exact hroams
      | _ => trivial
  | sendReturned k pc hub ok hsend =>
      refine ⟨?_, fun v hv => (by cases hv)⟩
      cases k with
      | dmLive call stored =>
          cases hsend with
          | sent e ch hch =>
              refine Roams.mono (t := .dmMark call stored) ⟨hr.1, fun ha => ?_⟩ hs
              cases hroams (hr.2 ha)
          | offline hno => trivial
          | panic e hcl => trivial
          | evict e => trivial
      | drain e v row rest => exact False.elim hroams
      | ackNotify senderID messageID => cases ok <;> trivial
      | _ => trivial
  | drainMarked e row rest => exact False.elim hroams
  | registered e => exact False.elim hroams
  | pending e rows hrows => exact False.elim hroams
  | pendingFailed e hfail => exact False.elim hroams
  | acked readerID call hok => exact False.elim hroams
  | _ => exact ⟨trivial, fun v hv => (by cases hv)⟩

end ThreadSteps

end PeerCluster
