import PeerChat.RateLimitProofs
import PeerChat.SystemSessionProofs

/-! # How much one user can store

    The limiter is asked when a payload arrives, the row is stored later, by a
    handler that runs among all the others.  A handler that has passed the limiter
    may store one row, and nothing else may: rows and handlers together never
    outgrow what the limiter has let through.  So the windows of a user's own
    payloads bound what is stored for the user, whatever the number of connections
    and of instances (`stored_within_limit`). -/

namespace PeerSystem

open PeerEnv KeyedTable PeerHub PeerRouter PeerStore PeerFrame PeerRedis PeerWorld PeerHandler
open PeerDispatch PeerAuth PeerCluster PeerRateLimit FixedWindow ThreadPool

variable {σ ι : Type}

/-! ## Rows, and handlers that may still store one -/

/-- The messages and group messages stored for `u`. -/
def rowsBy (db : Db) (u : UUID) : Nat :=
  db.messages.rows.countP (fun m => m.senderID = u) +
    db.groupMessages.rows.countP fun m => m.senderID = u

/-- How many rows a group handler may still store for `u`. -/
def groupStores (u : UUID) : PeerGroupRun.Thread → Nat
  | .msgCheck senderID _ _ => if senderID = u then 1 else 0
  | .msgInsert senderID _ _ => if senderID = u then 1 else 0
  | .send _ _ next => groupStores u next
  | _ => 0

/-- How many rows a goroutine of a connection may still store for `u`. -/
def socketStores (u : UUID) : PeerServer.Thread → Nat
  | .dmFind call => if call.senderID = u then 1 else 0
  | .dmCreate call => if call.senderID = u then 1 else 0
  | .dmInsert call _ => if call.senderID = u then 1 else 0
  | _ => 0

def mayStore (u : UUID) : Task → Nat
  | .socket t => socketStores u t
  | .group t => groupStores u t
  | .request _ _ => 0

variable {u : UUID} {w w' : World} {env : Env}

/-- A statement about other tables adds no row. -/
theorem rowsBy_same {db db' : Db} (hmessages : db'.messages = db.messages)
    (hgroup : db'.groupMessages = db.groupMessages) : rowsBy db' u = rowsBy db u := by
  rw [rowsBy, rowsBy, hmessages, hgroup]

/-- A status says nothing about the sender. -/
theorem rowsBy_setStatus (db : Db) (id : UUID) (st : Status) :
    rowsBy (db.setStatus id st) u = rowsBy db u := by
  have hrows : (db.setStatus id st).messages.rows
      = db.messages.rows.map fun m => if m.id = id then m.withStatus st else m := rfl
  have hcount : (db.setStatus id st).messages.rows.countP (fun m => m.senderID = u)
      = db.messages.rows.countP fun m => m.senderID = u := by
    rw [hrows, List.countP_map]
    refine List.countP_congr fun m _ => ?_
    simp only [Function.comp]
    split <;> exact Iff.rfl
  rw [rowsBy, rowsBy, hcount]
  rfl

theorem rowsBy_markDelivered (w : World) (env : Env) (id : UUID) :
    rowsBy (markDelivered w env id).db u = rowsBy w.db u :=
  markDelivered_of (P := fun db => rowsBy db u = rowsBy w.db u) env id rfl
    (rowsBy_setStatus w.db id .delivered)

/-- A message that is stored is one row of its sender. -/
theorem rowsBy_insertMessage {db db' : Db} {env : Env} {c s : UUID} {body : String}
    {m : Message} (h : db.insertMessage env c s body = .ok (db', m)) :
    rowsBy db' u = rowsBy db u + if s = u then 1 else 0 := by
  obtain ⟨hrow, hst⟩ := insertMessage_ok h
  have hsender : m.senderID = s := by rw [hrow]; rfl
  rw [rowsBy, rowsBy, hst.messages, insertMessage_groupMessages h, List.countP_append,
    List.countP_singleton, hsender]
  simp only [decide_eq_true_eq]
  omega

/-- So is a group message. -/
theorem rowsBy_insertGroupMessage {db db' : Db} {env : Env} {g s : UUID} {body : String}
    {m : GroupMessage} (h : db.insertGroupMessage env g s body = .ok (db', m)) :
    rowsBy db' u = rowsBy db u + if s = u then 1 else 0 := by
  obtain ⟨hrow, hrows, -, -, -⟩ := insertGroupMessage_ok h
  have hsender : m.senderID = s := by rw [hrow]; rfl
  rw [rowsBy, rowsBy, (insertGroupMessage_tables h).2.2, hrows, List.countP_append,
    List.countP_singleton, hsender]
  simp only [decide_eq_true_eq]
  omega

-- ── A goroutine takes a step ──────────────────────────────────────────────────

theorem socketStores_resume (k : PeerServer.Kont) (ok : Bool) :
    socketStores u (k.resume ok) = 0 := by
  cases k <;> cases ok <;> rfl

/-- A quiet step has no more to store than before. -/
theorem socketStores_quiet {t t' : PeerServer.Thread} {new : List PeerServer.Thread}
    (h : PeerServer.Quiet w t t' new) :
    socketStores u t' + total (socketStores u) new ≤ socketStores u t := by
  cases h with
  | notFound call => exact Nat.le_refl _
  | _ => exact Nat.zero_le _

/-- **A CONNECTION'S GOROUTINE SPENDS WHAT IT STORES.** -/
theorem stores_socket {t t' : PeerServer.Thread} {new : List PeerServer.Thread}
    (h : PeerServer.ThreadStep w env t w' t' new) :
    rowsBy w'.db u + socketStores u t' + total (socketStores u) new
      ≤ rowsBy w.db u + socketStores u t := by
  cases h with
  | quiet hdb hhub haddr hq =>
      rw [hdb, Nat.add_assoc]
      exact Nat.add_le_add_left (socketStores_quiet hq) _
  | found call chatID hf => exact Nat.le_refl _
  | created call db hc =>
      have hrows : rowsBy db u = rowsBy w.db u :=
        rowsBy_same (createChat_ok hc).messages (createChat_groupMessages hc)
      show rowsBy db u + _ + 0 ≤ _
      rw [hrows]
      exact Nat.le_refl _
  | stored call chatID db stored hi =>
      show rowsBy db u + 0 + 0 ≤ _
      rw [rowsBy_insertMessage hi]
      exact Nat.le_refl _
  | sendGoto k pc pc' hub hs => exact Nat.le_refl _
  | sendReturned k pc hub ok hs =>
      rw [socketStores_resume]
      exact Nat.le_refl _
  | marked call stored =>
      rw [rowsBy_markDelivered]
      exact Nat.le_refl _
  | drainMarked c row rest =>
      rw [rowsBy_markDelivered]
      exact Nat.le_refl _
  | acked readerID call hok =>
      have hnext : socketStores u (PeerServer.ackNext call) = 0 := by
        rw [PeerServer.ackNext]
        split <;> rfl
      show rowsBy (w.db.setStatus call.messageID .read) u + _ + 0 ≤ _
      rw [rowsBy_setStatus, hnext]
      exact Nat.le_refl _
  | _ => exact Nat.le_refl _

/-- **A GROUP HANDLER SPENDS WHAT IT STORES.** -/
theorem stores_group {db db' : Db} {hub hub' : Hub Frame} {t t' : PeerGroupRun.Thread}
    (h : PeerGroupRun.ThreadStep db hub env t db' hub' t') :
    rowsBy db' u + groupStores u t' ≤ rowsBy db u + groupStores u t := by
  cases h with
  | quiet hq =>
      refine Nat.add_le_add_left ?_ _
      cases hq <;> exact Nat.zero_le _
  | stored senderID senderName call db' stored hi =>
      rw [rowsBy_insertGroupMessage hi]
      exact Nat.le_refl _
  | created creatorID name db' group hc =>
      rw [rowsBy_same (createGroup_sameRows hc).messages (createGroup_sameRows hc).groupMessages]
      exact Nat.le_refl _
  | added adderID groupID userID db' ha =>
      rw [rowsBy_same (addGroupMember_sameRows ha).messages
        (addGroupMember_sameRows ha).groupMessages]
      exact Nat.le_refl _
  | _ => exact Nat.le_refl _

/-- **A STEP STORES AT MOST WHAT ITS GOROUTINE MAY.** -/
theorem stores_task {t t' : Task} {new : List Task} (h : stepTask w env t = some (w', t', new)) :
    rowsBy w'.db u + mayStore u t' + total (mayStore u) new ≤ rowsBy w.db u + mayStore u t := by
  cases t with
  | socket t =>
      simp only [stepTask] at h
      split at h
      · cases h
      · rename_i w₁ t₁ new₁ hs
        cases h
        have hsum := stores_socket (u := u) (PeerServer.threadStep_of_stepThread hs)
        have htotal : total (mayStore u) (new₁.map .socket) = total (socketStores u) new₁ := by
          rw [total, total, List.map_map]
          rfl
        rw [htotal]
        exact hsum
  | group t =>
      simp only [stepTask] at h
      split at h
      · cases h
      · rename_i db₁ hub₁ t₁ hs
        cases h
        exact stores_group (PeerGroupRun.threadStep_of_stepThread hs)
  | request callerID r =>
      simp only [stepTask] at h
      split at h
      · cases h
      · rename_i db₁ r₁ hs
        cases h
        obtain ⟨-, hmessages, hgroup⟩ := grows_request hs
        exact Nat.le_of_eq (rowsBy_same hmessages hgroup)

/-! ## The limiter is asked by nobody else -/

theorem setOnline_rate {r r' : Redis} {env : Env} {u : UUID} (h : r.setOnline env u = some r') :
    r'.rate = r.rate := by
  rw [Redis.setOnline] at h
  split at h
  · cases h
    rfl
  · cases h

theorem setOffline_rate {r r' : Redis} {env : Env} {u : UUID}
    (h : r.setOffline env u = some r') : r'.rate = r.rate := by
  rw [Redis.setOffline] at h
  split at h
  · cases h
    rfl
  · cases h

theorem setTyping_rate {r r' : Redis} {env : Env} {c u : UUID}
    (h : r.setTyping env c u = some r') : r'.rate = r.rate := by
  rw [Redis.setTyping] at h
  split at h
  · cases h
    rfl
  · cases h

/-- `getD` of a command that may fail. -/
theorem getD_rate {r : Redis} {o : Option Redis} (h : ∀ r', o = some r' → r'.rate = r.rate) :
    (o.getD r).rate = r.rate := by
  cases o with
  | none => rfl
  | some r' => exact h r' rfl

theorem markDelivered_redis (w : World) (env : Env) (id : UUID) :
    (markDelivered w env id).redis = w.redis := by
  rw [markDelivered]
  split <;> rfl

theorem publish_redis {u : UUID} {f : Frame} (h : w.publish env u f = some w') :
    w'.redis = w.redis := by
  rw [World.publish] at h
  split at h
  · cases h
    rfl
  · cases h

theorem sendOrPublish_redis (w : World) (env : Env) (u : UUID) (f : Frame) :
    (w.sendOrPublish env u f).redis = w.redis := by
  rw [World.sendOrPublish]
  cases hs : w.send u f with
  | mk w₁ delivered =>
      have hw₁ : w₁.redis = w.redis := congrArg (fun p => p.1.redis) hs.symm
      cases delivered with
      | true => exact hw₁
      | false =>
          simp only [Bool.false_eq_true, if_false]
          cases hpub : w₁.publish env u f with
          | none => exact hw₁
          | some w₂ => exact (publish_redis hpub).trans hw₁

/-- No goroutine of a connection writes to the limiter. -/
theorem rate_socket {t t' : PeerServer.Thread} {new : List PeerServer.Thread}
    (h : PeerServer.stepThread w env t = some (w', t', new)) : w'.redis.rate = w.redis.rate := by
  cases t with
  | connOnline c =>
      cases h
      exact getD_rate fun r' hr => setOnline_rate hr
  | connOffline c =>
      cases h
      exact getD_rate fun r' hr => setOffline_rate hr
  | dmFind call =>
      simp only [PeerServer.stepThread] at h
      split at h <;> (cases h; rfl)
  | dmCreate call =>
      simp only [PeerServer.stepThread] at h
      split at h <;> (cases h; rfl)
  | dmInsert call chatID =>
      simp only [PeerServer.stepThread] at h
      split at h <;> (cases h; rfl)
  | dmPublish call stored =>
      simp only [PeerServer.stepThread] at h
      split at h
      · rename_i w₁ hpub
        cases h
        rw [publish_redis hpub]
      · cases h
        rfl
  | dmMark call stored =>
      cases h
      rw [markDelivered_redis]
  | connPending c =>
      simp only [PeerServer.stepThread] at h
      split at h <;> (cases h; rfl)
  | drain c rows => cases rows <;> (cases h; rfl)
  | drainMark c row rest =>
      cases h
      rw [markDelivered_redis]
  | connClose sub => cases sub <;> (cases h; rfl)
  | forward sub =>
      simp only [PeerServer.stepThread] at h
      split at h
      · cases h
        rfl
      · split at h
        · cases h
          rfl
        · cases h
  | ackUpdate readerID call =>
      simp only [PeerServer.stepThread] at h
      split at h
      · split at h <;> (cases h; rfl)
      · cases h
        rfl
  | ackPublish senderID messageID =>
      cases h
      cases hpub : w.publish env senderID (.read messageID) with
      | none => rfl
      | some w₁ => exact congrArg Redis.rate (publish_redis hpub)
  | send k pc =>
      simp only [PeerServer.stepThread] at h
      split at h <;> (cases h; rfl)
  | done => cases h
  | _ =>
      cases h
      rfl

/-- No goroutine at all does. -/
theorem rate_task {t t' : Task} {new : List Task} (h : stepTask w env t = some (w', t', new)) :
    w'.redis.rate = w.redis.rate := by
  cases t with
  | socket t =>
      simp only [stepTask] at h
      split at h
      · cases h
      · rename_i w₁ t₁ new₁ hs
        cases h
        exact rate_socket hs
  | group t =>
      simp only [stepTask] at h
      split at h <;> (cases h; try rfl)
  | request callerID r =>
      simp only [stepTask] at h
      split at h <;> (cases h; try rfl)

/-! ## A payload arrives -/

theorem typingFanOut_same (senderID : UUID) (payload : Frame) : ∀ (ids : List UUID) (w : World),
    (typingFanOut w senderID payload ids).redis = w.redis ∧
      (typingFanOut w senderID payload ids).db = w.db := by
  intro ids
  induction ids with
  | nil => exact fun w => ⟨rfl, rfl⟩
  | cons id ids ih =>
      intro w
      rw [typingFanOut]
      obtain ⟨hredis, hdb⟩ := ih (if id ≠ senderID then (w.send id payload).1 else w)
      rw [hredis, hdb]
      split <;> exact ⟨rfl, rfl⟩

theorem presenceLoop_same (fmt : Formats) (env : Env) (senderID : UUID) :
    ∀ (ids : List String) (i : Nat) (w : World),
      (presenceLoop fmt w env senderID i ids).redis = w.redis ∧
        (presenceLoop fmt w env senderID i ids).db = w.db := by
  intro ids
  induction ids with
  | nil => exact fun i w => ⟨rfl, rfl⟩
  | cons id ids ih =>
      intro i w
      rw [presenceLoop]
      split
      · exact ih _ w
      · obtain ⟨hredis, hdb⟩ := ih (i + 1) _
        rw [hredis, hdb]
        exact ⟨rfl, rfl⟩

/-- The branches that work on no table leave the limiter's keys and the tables alone, and the
    others start one goroutine. -/
theorem begins_stores (fmt : Formats) (w : World) (env : Env) (senderID : UUID)
    (senderName : String) (raw : List UInt8) (kind : Kind) :
    let b := begins fmt w env senderID senderName raw kind
    b.1.redis.rate = w.redis.rate ∧ b.1.db = w.db ∧
      total (mayStore u) b.2 ≤ if kind.limited = true ∧ senderID = u then 1 else 0 := by
  cases kind with
  | message =>
      simp only [begins]
      split
      · exact ⟨rfl, rfl, Nat.zero_le _⟩
      · rename_i call hparse
        refine ⟨rfl, rfl, ?_⟩
        have hsender : call.senderID = senderID := (parseDM_ok hparse).1
        simp only [total_cons, total_nil, mayStore, socketStores, hsender, Kind.limited, true_and]
        exact Nat.le_refl _
  | groupMessage =>
      simp only [begins]
      split
      · exact ⟨rfl, rfl, Nat.zero_le _⟩
      · refine ⟨rfl, rfl, ?_⟩
        simp only [total_cons, total_nil, mayStore, groupStores, Kind.limited, true_and]
        exact Nat.le_refl _
  | typing =>
      simp only [begins, handleTyping]
      split
      · exact ⟨rfl, rfl, Nat.zero_le _⟩
      · rename_i redis hset
        obtain ⟨hredis, hdb⟩ := typingFanOut_same senderID _ _ { w with redis := redis }
        rw [hredis, hdb]
        exact ⟨setTyping_rate hset, rfl, Nat.zero_le _⟩
  | presenceCheck =>
      simp only [begins, handlePresenceCheck]
      split
      · exact ⟨rfl, rfl, Nat.zero_le _⟩
      · split
        · obtain ⟨hredis, hdb⟩ := presenceLoop_same fmt env senderID _ 0 w
          rw [hredis, hdb]
          exact ⟨rfl, rfl, Nat.zero_le _⟩
        · exact ⟨rfl, rfl, Nat.zero_le _⟩
  | ping =>
      simp only [begins, handlePing]
      split
      · rename_i redis hset
        exact ⟨setOnline_rate hset, rfl, Nat.zero_le _⟩
      · exact ⟨rfl, rfl, Nat.zero_le _⟩
  | webrtc =>
      simp only [begins, handleRelay]
      split
      · exact ⟨rfl, rfl, Nat.zero_le _⟩
      · split
        · exact ⟨rfl, rfl, Nat.zero_le _⟩
        · rw [sendOrPublish_redis, sendOrPublish_db]
          exact ⟨rfl, rfl, Nat.zero_le _⟩
  | other => exact ⟨rfl, rfl, Nat.zero_le _⟩
  | _ =>
      simp only [begins]
      split <;> exact ⟨rfl, rfl, Nat.zero_le _⟩

/-- Does the payload have to pass the limiter? -/
def limited (raw : List UInt8) : Bool := (baseKind raw).any Kind.limited

/-- **A LIMITED PAYLOAD ASKS THE LIMITER ONCE**, and starts a handler that may store a row
    only if it is let through; any other payload asks nobody and starts none. -/
theorem receives_stores (fmt : Formats) (w : World) (env : Env) (senderID : UUID)
    (senderName : String) (raw : List UInt8) :
    let r := receives fmt w env senderID senderName raw
    let a := w.redis.allow newLimiter env senderID
    r.1.db = w.db ∧ r.1.redis.rate = (if limited raw then a.1.rate else w.redis.rate) ∧
      total (mayStore u) r.2 ≤ if limited raw = true ∧ a.2 = true ∧ senderID = u then 1 else 0 := by
  cases hkind : baseKind raw with
  | none =>
      have hno : limited raw = false := by rw [limited, hkind]; rfl
      simp [receives, hkind, hno]
  | some kind =>
      have hkinds : limited raw = kind.limited := by rw [limited, hkind]; rfl
      simp only [receives, hkind, hkinds]
      cases hlim : kind.limited with
      | false =>
          obtain ⟨hrate, hdb, htotal⟩ := begins_stores (u := u) fmt w env senderID senderName raw kind
          rw [hlim] at htotal
          exact ⟨hdb, hrate, by simpa using htotal⟩
      | true =>
          simp only [if_true]
          cases hallow : w.redis.allow newLimiter env senderID with
          | mk redis allowed =>
              cases allowed with
              | false => exact ⟨rfl, rfl, Nat.zero_le _⟩
              | true =>
                  obtain ⟨hrate, hdb, htotal⟩ := begins_stores (u := u) fmt
                    { w with redis := redis } env senderID senderName raw kind
                  rw [hlim] at htotal
                  exact ⟨hdb, hrate, by simpa using htotal⟩

/-! ## Runs -/

/-- The call of `limiter.Allow` that a step makes. -/
def Act.asks (who : ι → ClientId → UUID × String) : Act ι σ → Option (UUID × Env)
  | .payload i c env raw => if limited raw then some ((who i c).1, env) else none
  | _ => none

/-- The calls of `limiter.Allow` of a run. -/
def calls (who : ι → ClientId → UUID × String) (as : List (Act ι σ)) : List (UUID × Env) :=
  as.filterMap (Act.asks who)

/-- How often the limiter has let `u` through. -/
def passed (u : UUID) (cs : List (UUID × Env)) : Nat :=
  (answersOf u cs (allowAll newLimiter Redis.empty cs).2).count true

/-- The answer of `Allow` depends on the caller's key only, and nothing else of Redis. -/
theorem allow_of_rate {r r' : Redis} (h : r.rate = r'.rate) (l : Limiter) (env : Env) (u : UUID) :
    (r.allow l env u).1.rate = (r'.allow l env u).1.rate ∧
      (r.allow l env u).2 = (r'.allow l env u).2 := by
  rw [Redis.allow, Redis.allow, h]
  split
  · exact ⟨rfl, rfl⟩
  · exact ⟨h, rfl⟩

/-- One more call. -/
theorem allowAll_concat (l : Limiter) (r : Redis) (cs : List (UUID × Env)) (c : UUID × Env) :
    allowAll l r (cs ++ [c]) = (((allowAll l r cs).1.allow l c.2 c.1).1,
      (allowAll l r cs).2 ++ [((allowAll l r cs).1.allow l c.2 c.1).2]) := by
  induction cs generalizing r with
  | nil => rfl
  | cons d cs ih =>
      show ((allowAll l (r.allow l d.2 d.1).1 (cs ++ [c])).1,
        (r.allow l d.2 d.1).2 :: (allowAll l (r.allow l d.2 d.1).1 (cs ++ [c])).2) = _
      rw [ih]
      rfl

/-- Every call of the limiter is answered. -/
theorem allowAll_length (l : Limiter) (r : Redis) (cs : List (UUID × Env)) :
    (allowAll l r cs).2.length = cs.length := by
  induction cs generalizing r with
  | nil => rfl
  | cons c cs ih => exact congrArg Nat.succ (ih _)

/-- One more call is counted for its own user, if it passes. -/
theorem passed_concat (u : UUID) (cs : List (UUID × Env)) (c : UUID × Env) :
    passed u (cs ++ [c]) = passed u cs + if
      ((allowAll newLimiter Redis.empty cs).1.allow newLimiter c.2 c.1).2 = true ∧ c.1 = u
      then 1 else 0 := by
  rw [passed, passed, allowAll_concat]
  simp only [answersOf]
  rw [List.zip_append (allowAll_length _ _ _).symm, List.filter_append, List.map_append,
    List.count_append]
  rw [Nat.add_left_cancel_iff]
  rw [List.zip_cons_cons, List.zip_nil_right, List.filter_singleton]
  by_cases hu : c.1 = u
  · simp [hu, List.count_singleton]
  · simp [hu]

section Steps

variable [DecidableEq ι] [Fintype ι]

/-- The rows that handlers under way may still store for `u`, on all instances. -/
def outstanding (u : UUID) (s : System ι) : Nat := ∑ i, total (mayStore u) (s.tasks i)

/-- One instance's goroutines change. -/
theorem outstanding_set (s : System ι) (i : ι) (w : World) (ts : List Task) :
    outstanding u (s.set i w ts) + total (mayStore u) (s.tasks i)
      = outstanding u s + total (mayStore u) ts := by
  have hothers : ∑ j ∈ Finset.univ.erase i, total (mayStore u) ((s.set i w ts).tasks j)
      = ∑ j ∈ Finset.univ.erase i, total (mayStore u) (s.tasks j) := by
    refine Finset.sum_congr rfl fun j hj => ?_
    simp only [System.set, Function.update_of_ne (Finset.ne_of_mem_erase hj)]
  have hself : total (mayStore u) ((s.set i w ts).tasks i) = total (mayStore u) ts := by
    simp only [System.set, Function.update_self]
  rw [outstanding, outstanding, ← Finset.add_sum_erase _ _ (Finset.mem_univ i),
    ← Finset.add_sum_erase Finset.univ (fun j => total (mayStore u) (s.tasks j))
      (Finset.mem_univ i), hothers, hself]
  omega

/-- What the limiter and the tables have come to after a run over the actions `as`. -/
structure Metered (who : ι → ClientId → UUID × String) (db₀ : Db) (as : List (Act ι σ))
    (s : System ι) : Prop where
  rate : s.redis.rate = (allowAll newLimiter Redis.empty (calls who as)).1.rate
  rows : ∀ u, rowsBy s.db u + outstanding u s ≤ rowsBy db₀ u + passed u (calls who as)

variable {su : Setup σ} {who : ι → ClientId → UUID × String} {db₀ : Db} {s s' : System ι}

omit [DecidableEq ι] in
/-- A step that asks nobody. -/
theorem Metered.unasked {as : List (Act ι σ)} {a : Act ι σ} (h : Metered who db₀ as s)
    (ha : a.asks who = none) (hrate : s'.redis.rate = s.redis.rate)
    (hrows : ∀ u, rowsBy s'.db u + outstanding u s' ≤ rowsBy s.db u + outstanding u s) :
    Metered who db₀ (as ++ [a]) s' := by
  have hcalls : calls who (as ++ [a]) = calls who as := by
    simp only [calls, List.filterMap_append, List.filterMap_cons, ha, List.filterMap_nil,
      List.append_nil]
  refine ⟨?_, fun u => ?_⟩
  · rw [hrate, hcalls, h.rate]
  · rw [hcalls]
    exact (hrows u).trans (h.rows u)

omit [DecidableEq ι] in
/-- A step that asks the limiter. -/
theorem Metered.asked {as : List (Act ι σ)} {a : Act ι σ} (h : Metered who db₀ as s)
    {v : UUID} {env : Env} (ha : a.asks who = some (v, env))
    (hrate : s'.redis.rate = (s.redis.allow newLimiter env v).1.rate)
    (hrows : ∀ u, rowsBy s'.db u + outstanding u s' ≤ rowsBy s.db u + outstanding u s +
      if (s.redis.allow newLimiter env v).2 = true ∧ v = u then 1 else 0) :
    Metered who db₀ (as ++ [a]) s' := by
  have hcalls : calls who (as ++ [a]) = calls who as ++ [(v, env)] := by
    simp only [calls, List.filterMap_append, List.filterMap_cons, ha, List.filterMap_nil]
  obtain ⟨hnext, hanswer⟩ := allow_of_rate h.rate newLimiter env v
  refine ⟨?_, fun u => ?_⟩
  · rw [hrate, hcalls, allowAll_concat, hnext]
  · have hsum := hrows u
    have hbefore := h.rows u
    rw [hanswer] at hsum
    rw [hcalls, passed_concat]
    dsimp only
    omega

/-- One instance moves: what is stored and what may be stored grow together. -/
theorem stores_set {i : ι} {w : World} {l : List Task} {n : Nat}
    (h : rowsBy w.db u + total (mayStore u) l
      ≤ rowsBy s.db u + total (mayStore u) (s.tasks i) + n) :
    rowsBy (s.set i w l).db u + outstanding u (s.set i w l)
      ≤ rowsBy s.db u + outstanding u s + n := by
  have hset := outstanding_set (u := u) s i w l
  show rowsBy w.db u + _ ≤ _
  omega

/-- **THE STEP LEMMA.** -/
theorem metered_step {as : List (Act ι σ)} {a : Act ι σ} (h : Metered who db₀ as s)
    (hs : step su who s a = some s') : Metered who db₀ (as ++ [a]) s' := by
  cases step_cases hs with
  | registered env body =>
      refine h.unasked rfl rfl fun u => Nat.add_le_add_right (Nat.le_of_eq ?_) _
      rcases register_db su.handler s.db env body with hdb | ⟨username, hash, user, hcreate⟩
      · rw [hdb]
      · obtain ⟨-, -, hmessages, hgroup⟩ := createUser_tables hcreate
        exact rowsBy_same hmessages hgroup
  | loggedIn env body => exact h.unasked rfl rfl fun u => Nat.le_refl _
  | refused a ha =>
      refine h.unasked ?_ rfl fun u => Nat.le_refl _
      cases a with
      | payload i c env raw => cases ha
      | _ => rfl
  | asked i now p partnerIDStr myID name partnerID hp =>
      refine h.unasked rfl rfl fun u => stores_set (n := 0) ?_
      rw [total_append]
      exact Nat.le_refl _
  | connected i now p c hp =>
      refine h.unasked rfl rfl fun u => ?_
      refine stores_set (i := i) (w := s.world i)
        (l := s.tasks i ++ [.socket (.connRegister c)]) (n := 0) ?_
      rw [total_append]
      exact Nat.le_refl _
  | received i c env raw hlive hfits =>
      have hstores := fun u => receives_stores (u := u) su.fmt (s.world i) env (who i c).1
        (who i c).2 raw
      cases hlim : limited raw with
      | false =>
          simp only [hlim] at hstores
          refine h.unasked (by simp [Act.asks, hlim]) (hstores ⟨0⟩).2.1 fun u =>
            stores_set (n := 0) ?_
          obtain ⟨hdb, -, htotal⟩ := hstores u
          have hnone := Nat.le_zero.mp (by simpa using htotal)
          rw [hdb, total_append, hnone]
          exact Nat.le_refl _
      | true =>
          simp only [hlim] at hstores
          have hasks : (Act.payload i c env raw : Act ι σ).asks who = some ((who i c).1, env) := by
            simp [Act.asks, hlim]
          refine h.asked hasks (hstores ⟨0⟩).2.1 fun u => stores_set ?_
          · obtain ⟨hdb, -, htotal⟩ := hstores u
            rw [hdb, total_append, ← Nat.add_assoc]
            simp only [true_and] at htotal
            exact Nat.add_le_add_left htotal _
  | ran i k env t w t' new hk ht =>
      refine h.unasked rfl (rate_task ht) fun u => stores_set (n := 0) ?_
      have hstores := stores_task (u := u) ht
      have htotal : total (mayStore u) (moved (s.tasks i) k t' new) + mayStore u t
          = total (mayStore u) (s.tasks i) + mayStore u t' + total (mayStore u) new :=
        total_moved (mayStore u) hk
      have hdb : rowsBy (s.world i).db u = rowsBy s.db u := rfl
      omega
  | activated i sub => exact h.unasked rfl rfl fun u => stores_set (n := 0) (Nat.le_refl _)
  | wrote i c => exact h.unasked rfl rfl fun u => stores_set (n := 0) (Nat.le_refl _)

/-- **THE RUN LEMMA.** -/
theorem metered_run {as : List (Act ι σ)} (h : as.foldlM (step su who) (start db₀ who) = some s) :
    Metered who db₀ as s := by
  induction as using List.reverseRecOn generalizing s with
  | nil =>
      cases h
      refine ⟨rfl, fun u => ?_⟩
      have hnone : outstanding u (start db₀ who) = 0 := Finset.sum_eq_zero fun i _ => rfl
      rw [hnone]
      exact Nat.le_add_right _ _
  | append_singleton as a ih =>
      rw [List.foldlM_append] at h
      obtain ⟨t, ht, hlast⟩ := Option.bind_eq_some_iff.mp h
      have hstep : step su who t a = some s := by simpa using hlast
      exact metered_step (ih ht) hstep

end Steps

/-! ## The bound -/

/-- What the windows let through. -/
theorem count_windowAnswers (l : Limiter) (times : List Nat) :
    (windowAnswers l times).count true
      = ((windows (width l) times).map fun w => min l.max w.length).sum := by
  have hone : ∀ n, ((List.range' 1 n).map fun k => decide (k ≤ l.max)).count true
      = min l.max n := by
    intro n
    induction n with
    | zero => exact (Nat.min_zero _).symm
    | succ n ih =>
        rw [List.range'_concat, List.map_append, List.count_append, ih]
        by_cases hn : n + 1 ≤ l.max
        · have hsucc : 1 + 1 * n ≤ l.max := by omega
          simp only [List.map_cons, List.map_nil, hsucc, decide_true, List.count_singleton_self]
          omega
        · have hsucc : ¬ 1 + 1 * n ≤ l.max := by omega
          simp only [List.map_cons, List.map_nil, hsucc, decide_false]
          rw [List.count_eq_zero.mpr (by simp)]
          omega
  rw [windowAnswers, List.count_flatMap]
  refine congrArg List.sum (List.map_congr_left fun w _ => ?_)
  exact hone w.length

/-- **NOBODY STORES MORE THAN 30 ROWS A WINDOW**: with Redis up, whatever has been stored for a
    user by the end of a run, over all connections and all instances and in whatever order
    the handlers ran, is at most 30 for each window of 60 s that the user's own payloads
    have opened. -/
theorem stored_within_limit [DecidableEq ι] [Fintype ι] {su : Setup σ}
    {who : ι → ClientId → UUID × String} {db₀ : Db} {as : List (Act ι σ)} {s : System ι}
    (hrun : as.foldlM (step su who) (start db₀ who) = some s)
    (hup : ∀ c ∈ calls who as, c.2.ok .allow = true) (u : UUID) :
    rowsBy s.db u ≤ rowsBy db₀ u +
      ((windows (width newLimiter) (timesOf u (calls who as))).map fun w => min 30 w.length).sum := by
  have hrows := (metered_run hrun).rows u
  have hpassed : passed u (calls who as)
      = ((windows (width newLimiter) (timesOf u (calls who as))).map
          fun w => min newLimiter.max w.length).sum := by
    rw [passed, windowed_of_ok hup, count_windowAnswers]
  rw [hpassed] at hrows
  exact (Nat.le_add_right _ _).trans hrows

/-- Dave's one payload, and his one row. -/
theorem stored_within_limit_dave : ∃ s,
    daveWrites.foldlM (step twoSetup daveAndErin) (start threeUsers daveAndErin) = some s ∧
      rowsBy s.db ⟨9⟩ = 1 ∧ rowsBy s.db ⟨9⟩ ≤ rowsBy threeUsers ⟨9⟩ +
        ((windows (width newLimiter) (timesOf ⟨9⟩ (calls daveAndErin daveWrites))).map
          fun w => min 30 w.length).sum := by
  have hrun : (daveWrites.foldlM (step twoSetup daveAndErin) (start threeUsers daveAndErin)).any
      (fun s => rowsBy s.db ⟨9⟩ = 1) = true := by decide +kernel
  cases hfold : daveWrites.foldlM (step twoSetup daveAndErin) (start threeUsers daveAndErin) with
  | none =>
      rw [hfold] at hrun
      cases hrun
  | some s =>
      rw [hfold] at hrun
      exact ⟨s, rfl, of_decide_eq_true hrun, stored_within_limit hfold (by decide +kernel) ⟨9⟩⟩

end PeerSystem
