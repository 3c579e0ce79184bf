import PeerChat.DeliveryProofs

/-! # At most once

    Two paths enqueue the frame of a direct message, `HandleDM` and the drain of
    a connect, and a third one may: the forwarder of what `HandleDM` published.
    They keep out of each other's way through the status alone, which is written
    after the enqueue.

    The account of a message is what has been enqueued of it plus what threads
    may still enqueue.  It never exceeds one, as long as no drain takes over a
    message somebody still owes its mark, and no forwarder finds a client. -/

namespace PeerServer

open PeerEnv KeyedTable PeerHub PeerStore PeerFrame PeerWorld PeerHandler Transition
open ThreadPool

/-- The messages that a thread is enqueueing, or has enqueued and not marked. -/
def Thread.owes : Thread → List UUID
  | .dmMark _ stored => [stored.id]
  | .drainMark _ row rest => row.message.id :: rowIds rest
  | t => t.pots

/-- The condition on a thread's next step: a snapshot takes no message that is
    owed a mark, and a forwarded direct message finds no client. -/
def exclusive (s : Server) (env : Env) : Thread → Bool
  | .connPending c =>
      decide (∀ rows ∈ (s.world.db.getPendingMessages env (s.world.hub.userOf c)).toOption,
        ∀ id ∈ rowIds rows, ∀ u ∈ s.threads, id ∉ u.owes)
  | .send (.forward _ userID payload) .lookup =>
      !isDM payload || (s.world.hub.clients userID).isNone
  | _ => true

/-- The condition on a step, with database statements that succeed. -/
def OneAtATime (s : Server) (a : Action) : Prop :=
  DbUp a ∧ match a with
    | .run i env => ∀ t ∈ s.threads[i]?, exclusive s env t = true
    | _ => True

instance (s : Server) (a : Action) : Decidable (OneAtATime s a) :=
  match a with
  | .run i _ => inferInstanceAs (Decidable (_ ∧ ∀ t ∈ s.threads[i]?, _))
  | .dm _ | .connect _ | .ack _ _ | .activate _ | .pumpWrite _ _ | .pumpStop _ =>
      inferInstanceAs (Decidable (_ ∧ True))

/-- The direct messages among the forwarded payloads never get past the
    lookup. -/
def Thread.stopped : Thread → Prop
  | .send (.forward _ _ payload) pc => pc = .lookup ∨ isDM payload = false
  | _ => True

/-- How often the threads of a pool may still enqueue a message. -/
def potTotal (id : UUID) (ts : List Thread) : Nat := total (fun t => t.pots.count id) ts

/-- **THE ACCOUNT OF EVERY MESSAGE.** -/
structure Accounted (s : Server) : Prop where
  most : ∀ id, logged s.world id + potTotal id s.threads ≤ 1
  known : ∀ id, id ∉ s.world.db.messages.keys →
    logged s.world id + potTotal id s.threads = 0
  idle : ∀ m ∈ s.world.db.messages.rows, m.status = .sent →
    (∀ t ∈ s.threads, m.id ∉ t.owes) → logged s.world m.id = 0
  stopped : ∀ t ∈ s.threads, t.stopped

/-! ## What one step does to the account -/

theorem owes_of_pots {t : Thread} {id : UUID} (h : id ∈ t.pots) : id ∈ t.owes := by
  cases t with
  | dmMark call stored => cases h
  | drainMark c row rest => exact List.mem_cons_of_mem _ h
  | _ => exact h

/-- A quiet step leaves what is owed as it was. -/
theorem owes_quiet {w : World} {t t' : Thread} {new : List Thread}
    (h : Quiet w t t' new) : t'.owes = t.owes ∧ t'.stopped ∧
      ∀ u ∈ new, u.owes = [] ∧ u.stopped := by
  cases h with
  | filed c sub =>
      refine ⟨rfl, trivial, ?_⟩
      intro u hu
      rw [List.mem_singleton.mp hu]
      exact ⟨rfl, trivial⟩
  | forwarded sub userID payload =>
      exact ⟨rfl, Or.inl rfl, fun u hu => (by cases hu)⟩
  | _ => exact ⟨rfl, trivial, fun u hu => (by cases hu)⟩

/-- An enqueue moves its message from the pot to the log. -/
theorem carries_le_pot {k : Kont} {c : ClientId} (hstop : (Thread.send k (.select c)).stopped)
    (id : UUID) : (if k.data.carries id then 1 else 0) ≤ k.pot.count id := by
  cases k with
  | dmLive call stored =>
      simp only [Kont.data, outbound_carries, Kont.pot, List.count_singleton, beq_iff_eq,
        decide_eq_true_eq]
      exact Nat.le_refl _
  | drain d u row rest =>
      simp only [Kont.data, drainFrame_carries, Kont.pot, List.count_singleton, beq_iff_eq,
        decide_eq_true_eq]
      exact Nat.le_refl _
  | forward sub u payload =>
      rcases hstop with hpc | hdm
      · cases hpc
      · simp only [Kont.data, carries_of_not_dm hdm, Bool.false_eq_true, if_false]
        exact Nat.zero_le _
  | dmAck call stored => exact Nat.le_refl _
  | ackNotify s m => exact Nat.le_refl _

/-- **ONE STEP OF THE ACCOUNT**: a step of a thread raises the account of no
    message but the one it stores and those its snapshot takes. -/
theorem account_of_step {w w' : World} {env : Env} {t t' : Thread} {new : List Thread}
    (h : ThreadStep w env t w' t' new) (hstop : t.stopped) (id : UUID) :
    logged w' id + t'.pots.count id ≤ logged w id + t.pots.count id ∨
    (logged w' id = logged w id ∧ t'.pots.count id ≤ 1 ∧
      id ∉ w.db.messages.keys ∧ id ∈ w'.db.messages.keys) ∨
    (logged w' id = logged w id ∧ t'.pots.count id ≤ 1 ∧
      ∃ c rows, t = .connPending c ∧
        w.db.getPendingMessages env (w.hub.userOf c) = .ok rows ∧ id ∈ rowIds rows) := by
  cases h with
  | quiet hdb hhub haddr hq =>
      left
      simp only [logged, hhub, (pots_quiet hq).1]
      exact Nat.le_refl _
  | stored call chatID db stored hi =>
      obtain ⟨-, hst⟩ := insertMessage_ok hi
      by_cases hid : stored.id = id
      · refine Or.inr (Or.inl ⟨rfl, ?_, ?_, ?_⟩)
        · rw [← hid]
          exact Nat.le_of_eq (List.count_singleton_self ..)
        · rw [← hid]
          exact hst.fresh
        · refine mem_keys.mpr ⟨stored, ?_, hid⟩
          show stored ∈ db.messages.rows
          rw [hst.messages]
          exact List.mem_concat_self
      · left
        simp [logged, Thread.pots, sendPot, Kont.pot, Kont.rest, hid]
  | sendGoto k pc pc' hub hs =>
      left
      cases hs with
      -- the pot stays full from the lookup to the select
      | found c hc => exact Nat.le_refl _
      | full c hopen hfull =>
          simp only [logged, Thread.pots, sendPot, List.nil_append, List.count_append]
          omega
  | sendReturned k pc hub ok hs =>
      left
      rw [pots_resume]
      simp only [Thread.pots, List.count_append]
      cases hs with
      | sent c ch hch =>
          have hle := carries_le_pot hstop id
          rw [logged_push]
          simp only [sendPot]
          omega
      | evict c =>
          simp only [logged, unregister_log]
          omega
      | offline hno =>
          simp only [logged]
          omega
      | panic c hcl =>
          simp only [logged]
          omega
  | marked call stored =>
      left
      simp only [logged, markDelivered_hub]
      exact Nat.le_refl _
  | drainMarked c row rest =>
      left
      simp only [logged, markDelivered_hub]
      exact Nat.le_refl _
  | pending c rows hr =>
      by_cases hid : id ∈ rowIds rows
      · refine Or.inr (Or.inr ⟨rfl, ?_, c, rows, rfl, hr, hid⟩)
        exact List.nodup_iff_count_le_one.mp (getPendingMessages_ok hr).2.1 id
      · left
        show logged w id + (rowIds rows).count id ≤ _
        rw [List.count_eq_zero.mpr hid]
        omega
  | ended c =>
      left
      simp only [logged, unregister_log]
      exact Nat.le_refl _
  | acked readerID call hok =>
      left
      have hnone : (ackNext call).pots = [] := by
        simp only [ackNext]
        split <;> rfl
      rw [hnone]
      exact Nat.add_le_add_left (Nat.zero_le _) _
  | _ =>
      left
      exact Nat.le_refl _

/-- The threads a step starts owe nothing. -/
theorem started_of_step {w w' : World} {env : Env} {t t' : Thread} {new : List Thread}
    (h : ThreadStep w env t w' t' new) :
    ∀ u ∈ new, u.pots = [] ∧ u.owes = [] ∧ u.stopped := by
  cases h with
  | quiet hdb hhub haddr hq =>
      exact fun u hu => ⟨(pots_quiet hq).2 u hu, (owes_quiet hq).2.2 u hu⟩
  | _ => exact fun u hu => (by cases hu)

/-- A forwarded direct message does not get past the lookup. -/
theorem stopped_of_step {s : Server} {w' : World} {env : Env} {t t' : Thread}
    {new : List Thread} (h : ThreadStep s.world env t w' t' new)
    (hex : exclusive s env t = true) (hstop : t.stopped) : t'.stopped := by
  cases h with
  | quiet hdb hhub haddr hq => exact (owes_quiet hq).2.1
  | sendGoto k pc pc' hub hs =>
      cases k with
      | forward sub userID payload =>
          right
          cases hs with
          | found c hc =>
              cases hdm : isDM payload with
              | false => rfl
              | true =>
                  change s.world.hub.clients userID = some c at hc
                  simp only [exclusive, hdm, hc] at hex
                  cases hex
          | full c hopen hfull =>
              rcases hstop with hpc | hdm
              · cases hpc
              · exact hdm
      | _ => trivial
  | sendReturned k pc hub ok hs => cases k <;> cases ok <;> trivial
  | acked readerID call hok =>
      rw [ackNext]
      split <;> trivial
  | _ => trivial

/-- After `SET status = 'delivered' WHERE id = …` the message is not 'sent'. -/
theorem not_sent_of_mark {w : World} {env : Env} (hok : env.ok .updateStatus = true)
    {id : UUID} {m' : Message} (hm' : m' ∈ (markDelivered w env id).db.messages.rows)
    (hid : m'.id = id) : m'.status ≠ .sent := by
  simp only [markDelivered, Db.updateMessageStatus, hok, if_true] at hm'
  obtain ⟨m, -, hmid, hcase⟩ := setStatus_row hm'
  rcases hcase with ⟨-, hst⟩ | ⟨hne, -⟩
  · rw [hst]
    exact fun hbad => by cases hbad
  · exact absurd (hmid.trans hid) hne

/-- **WHOEVER STOPS OWING** has marked the message, or did not enqueue it. -/
theorem owes_of_step {w w' : World} {env : Env} {t t' : Thread} {new : List Thread}
    (h : ThreadStep w env t w' t' new) (hok : env.ok .updateStatus = true) {id : UUID}
    (hid : id ∈ t.owes) :
    id ∈ t'.owes ∨ (id ∈ t.pots ∧ logged w' id = logged w id) ∨
      ∀ m' ∈ w'.db.messages.rows, m'.id = id → m'.status ≠ .sent := by
  cases h with
  | quiet hdb hhub haddr hq =>
      left
      rw [(owes_quiet hq).1]
      exact hid
  | sendGoto k pc pc' hub hs =>
      cases hs with
      | found c hc => exact Or.inl hid
      | full c hopen hfull => exact Or.inr (Or.inl ⟨hid, rfl⟩)
  | sendReturned k pc hub ok hs =>
      rcases List.mem_append.mp hid with hpot | hrest
      · cases k with
        | dmLive call stored =>
            cases hs with
            | sent c ch hch => exact Or.inl hpot
            | offline hno => exact Or.inr (Or.inl ⟨hid, rfl⟩)
            | panic c hcl => exact Or.inr (Or.inl ⟨hid, rfl⟩)
            | evict c => cases hpot
        | drain c u row rest =>
            have hrow : id ∈ [row.message.id] := by
              cases pc with
              | evict c => cases hpot
              | _ => exact hpot
            rw [List.mem_singleton.mp hrow]
            exact Or.inl (List.mem_cons_self ..)
        | _ => cases pc <;> cases hpot
      · left
        refine owes_of_pots ?_
        rw [pots_resume]
        exact hrest
  | marked call stored =>
      refine Or.inr (Or.inr ?_)
      rw [List.mem_singleton.mp hid]
      exact fun m' hm' => not_sent_of_mark hok hm'
  | drainMarked c row rest =>
      rcases List.mem_cons.mp hid with heq | hrest
      · refine Or.inr (Or.inr ?_)
        rw [heq]
        exact fun m' hm' => not_sent_of_mark hok hm'
      · exact Or.inl hrest
  | _ => cases hid

/-- What is 'sent' after a step was 'sent' before it, or has just been stored. -/
theorem sent_of_step {w w' : World} {env : Env} {t t' : Thread} {new : List Thread}
    (h : ThreadStep w env t w' t' new) {m' : Message} (hm' : m' ∈ w'.db.messages.rows)
    (hsent : m'.status = .sent) :
    (∃ m ∈ w.db.messages.rows, m.id = m'.id ∧ m.status = .sent) ∨ m'.id ∈ t'.owes := by
  rcases row_of_step h hm' with ⟨m, hm, hid, -, -, hst | hsets⟩ | ⟨call, -, rfl, -⟩
  · exact Or.inl ⟨m, hm, hid, hst.symm.trans hsent⟩
  · -- no thread sets a status back to 'sent'
    rw [hsent] at hsets
    cases t with
    | dmMark call stored => cases congrArg Prod.snd (Option.some.inj hsets)
    | drainMark c row rest => cases congrArg Prod.snd (Option.some.inj hsets)
    | ackUpdate readerID call => cases congrArg Prod.snd (Option.some.inj hsets)
    | _ => cases hsets
  · exact Or.inr (List.mem_singleton.mpr rfl)

/-! ## Every run -/

theorem potTotal_moved (id : UUID) {ts : List Thread} {i : Nat} {t : Thread} (t' : Thread)
    (new : List Thread) (h : ts[i]? = some t) :
    potTotal id (moved ts i t' new) + t.pots.count id
      = potTotal id ts + t'.pots.count id + potTotal id new :=
  total_moved (fun t => t.pots.count id) h

theorem le_potTotal (id : UUID) {ts : List Thread} {t : Thread} (h : t ∈ ts) :
    t.pots.count id ≤ potTotal id ts :=
  le_total (fun t => t.pots.count id) h

theorem accounted_start (db : Db) (who : ClientId → UUID × String) :
    Accounted (start db who) where
  most := fun _ => Nat.zero_le _
  known := fun _ _ => rfl
  idle := fun _ _ _ _ => rfl
  stopped := fun _ ht => by cases ht

/-- A thread that starts with nothing changes no account. -/
theorem accounted_spawn {s : Server} (t : Thread) (hi : Accounted s) (hpots : t.pots = [])
    (hstop : t.stopped) {sockets : ClientId → Socket} {conns : List ClientId} :
    Accounted ⟨s.world, s.threads ++ [t], sockets, conns⟩ := by
  have htotal : ∀ id, potTotal id (s.threads ++ [t]) = potTotal id s.threads := by
    intro id
    simp only [potTotal, total_append, total_cons, total_nil, hpots]
    rfl
  refine ⟨?_, ?_, ?_, ?_⟩
  · intro id
    show logged s.world id + potTotal id (s.threads ++ [t]) ≤ 1
    rw [htotal]
    exact hi.most id
  · intro id hid
    show logged s.world id + potTotal id (s.threads ++ [t]) = 0
    rw [htotal]
    exact hi.known id hid
  · intro m hm hsent hfree
    exact hi.idle m hm hsent fun u hu => hfree u (List.mem_append_left _ hu)
  · intro u hu
    rcases List.mem_append.mp hu with hold | hnew
    · exact hi.stopped u hold
    · rw [List.mem_singleton.mp hnew]
      exact hstop

/-- What the pumps and Redis do changes no account. -/
theorem accounted_of_same {s t : Server} (hi : Accounted s)
    (hdb : t.world.db = s.world.db) (hlog : t.world.hub.log = s.world.hub.log)
    (hthreads : t.threads = s.threads) : Accounted t := by
  have hlogged : ∀ id, logged t.world id = logged s.world id := by
    intro id
    rw [logged, hlog, logged]
  refine ⟨?_, ?_, ?_, ?_⟩
  · intro id
    rw [hlogged, hthreads]
    exact hi.most id
  · intro id hid
    rw [hdb] at hid
    rw [hlogged, hthreads]
    exact hi.known id hid
  · intro m hm hsent hfree
    rw [hdb] at hm
    rw [hthreads] at hfree
    rw [hlogged]
    exact hi.idle m hm hsent hfree
  · rw [hthreads]
    exact hi.stopped

/-- What a snapshot takes is not accounted for yet. -/
theorem account_of_snapshot {s : Server} {env : Env} {c : ClientId}
    {rows : List PendingMessage} (hi : Accounted s)
    (hex : exclusive s env (.connPending c) = true)
    (hr : s.world.db.getPendingMessages env (s.world.hub.userOf c) = .ok rows) {id : UUID}
    (hid : id ∈ rowIds rows) :
    logged s.world id = 0 ∧ potTotal id s.threads = 0 ∧ id ∈ s.world.db.messages.keys := by
  have hfree : ∀ u ∈ s.threads, id ∉ u.owes := by
    refine of_decide_eq_true hex rows ?_ id hid
    rw [hr]
    rfl
  obtain ⟨p, hp, rfl⟩ := List.mem_map.mp hid
  obtain ⟨hm, -, -, hsent, -⟩ := mem_pendingRows.mp ((getPendingMessages_ok hr).1 p hp)
  refine ⟨hi.idle p.message hm hsent hfree, ?_, key_mem_keys hm⟩
  refine total_eq_zero ?_
  intro u hu
  exact List.count_eq_zero.mpr fun hpot => hfree u hu (owes_of_pots hpot)

theorem accounted_step {s t : Server} {a : Action} (hi : Accounted s)
    (hG : OneAtATime s a) (h : Stepped s a t) : Accounted t := by
  cases h with
  | dm call => exact accounted_spawn (.dmFind call) hi rfl trivial
  | connect c _ => exact accounted_spawn (.connRegister c) hi rfl trivial
  | ack readerID call => exact accounted_spawn (.ackUpdate readerID call) hi rfl trivial
  | activate sub => exact accounted_of_same hi rfl rfl rfl
  | pumpWrite c ok f rest _ _ => exact accounted_of_same hi rfl rfl rfl
  | pumpStop c _ => exact accounted_of_same hi rfl rfl rfl
  | run i env th w th' new hth hstep =>
      have hmem : th ∈ s.threads := List.mem_of_getElem? hth
      have hex := hG.2 th hth
      have hok : env.ok .updateStatus = true := hG.1 .updateStatus (by decide)
      have hstop := hi.stopped th hmem
      have hstarted := started_of_step hstep
      have hnew : ∀ id, potTotal id new = 0 := by
        intro id
        refine total_eq_zero ?_
        intro u hu
        rw [(hstarted u hu).1]
        rfl
      -- what moving the one thread does to the pots
      have hmove : ∀ id, potTotal id (moved s.threads i th' new) + th.pots.count id
          = potTotal id s.threads + th'.pots.count id := by
        intro id
        have hmoved := potTotal_moved id th' new hth
        have hzero := hnew id
        omega
      refine ⟨?_, ?_, ?_, ?_⟩
      · intro id
        show logged w id + potTotal id (moved s.threads i th' new) ≤ 1
        have hm := hmove id
        have hmost := hi.most id
        rcases account_of_step hstep hstop id with hle | ⟨hlog, hone, hfresh, -⟩ |
          ⟨hlog, hone, c, rows, rfl, hr, hid⟩
        · omega
        · have hzero := hi.known id hfresh
          omega
        · obtain ⟨hl, hp, -⟩ := account_of_snapshot hi hex hr hid
          omega
      · intro id hid
        show logged w id + potTotal id (moved s.threads i th' new) = 0
        have hold : id ∉ s.world.db.messages.keys := fun hk => hid (hstep.grows.keys id hk)
        have hzero := hi.known id hold
        have hm := hmove id
        rcases account_of_step hstep hstop id with hle | ⟨-, -, -, hin⟩ |
          ⟨-, -, c, rows, rfl, hr, hrow⟩
        · omega
        · exact absurd hin hid
        · exact absurd (account_of_snapshot hi hex hr hrow).2.2 hold
      · intro m hm hsent hfree
        -- nobody but the moved thread owed it before
        have hself : m.id ∉ th'.owes := hfree th' (self_mem_moved hth)
        rcases sent_of_step hstep hm hsent with ⟨m₀, hm₀, hid, hsent₀⟩ | howes
        · rw [← hid] at hself ⊢
          by_cases hth₀ : m₀.id ∈ th.owes
          · rcases owes_of_step hstep hok hth₀ with howes | ⟨hpot, hlog⟩ | hmarked
            · exact absurd howes hself
            · -- it was still in the pot, so it had not been enqueued
              have hmost := hi.most m₀.id
              have hpos := List.count_pos_iff.mpr hpot
              have hle := le_potTotal m₀.id hmem
              show logged w m₀.id = 0
              omega
            · exact absurd hsent (hmarked m hm hid.symm)
          · have hclear : ∀ u ∈ s.threads, m₀.id ∉ u.owes := by
              intro u hu
              rcases mem_moved_of_mem hth hu with rfl | hin
              · exact hth₀
              · rw [hid]
                exact hfree u hin
            have hlog := hi.idle m₀ hm₀ hsent₀ hclear
            have hpot : th.pots.count m₀.id = 0 :=
              List.count_eq_zero.mpr fun hin => hth₀ (owes_of_pots hin)
            show logged w m₀.id = 0
            rcases account_of_step hstep hstop m₀.id with hle | ⟨hkeep, -⟩ | ⟨hkeep, -⟩
            · omega
            · omega
            · omega
        · exact absurd howes hself
      · intro u hu
        rcases mem_moved hu with hold | rfl | hin
        · exact hi.stopped u hold
        · exact stopped_of_step hstep hex hstop
        · exact (hstarted u hin).2.2

/-- **AT MOST ONCE**: in every run in which no snapshot takes a message that is
    owed a mark, and no forwarded direct message finds a client, the frame of a
    stored message is enqueued at most once, on whichever connection. -/
theorem at_most_once {db : Db} {who : ClientId → UUID × String} {s : Server}
    (h : Reach step OneAtATime (start db who) s) :
    ∀ m ∈ s.world.db.messages.rows, logged s.world m.id ≤ 1 := by
  have hi : Accounted s :=
    Reach.invariant (fun _ _ _ hs hG ht => accounted_step hs hG (step_cases ht)) h
      (accounted_start db who)
  intro m _
  have hmost := hi.most m.id
  omega

/-- Alice's connection is registered when Bob's call enqueues his message, and
    takes its snapshot before the call has marked it: the drain enqueues the
    message again. -/
theorem enqueued_twice : ¬ ∀ s : Server,
    Reach step (fun _ a => DbUp a) (start threeUsers oneUser) s →
      ∀ m ∈ s.world.db.messages.rows, logged s.world m.id ≤ 1 := by
  obtain ⟨s, hs, m, hm, htwice⟩ := exists_reach_of_replayGuarded step (fun _ a => DbUp a)
    (start threeUsers oneUser)
    (.connect 0 :: .run 0 fineEnv :: .dm bobsCall :: List.replicate 5 (.run 1 fineEnv) ++
      List.replicate 7 (.run 0 fineEnv))
    (fun s => ∃ m ∈ s.world.db.messages.rows, ¬ logged s.world m.id ≤ 1)
    (by decide +kernel)
  intro hall
  exact htwice (hall s hs m hm)

/-- Bob's call has marked his message before the snapshot. -/
theorem at_most_once_live : ∃ s : Server,
    Reach step OneAtATime (start threeUsers oneUser) s ∧
      (∃ m ∈ s.world.db.messages.rows, logged s.world m.id = 1) ∧
      ∀ m ∈ s.world.db.messages.rows, logged s.world m.id ≤ 1 := by
  obtain ⟨s, hs, honce⟩ := exists_reach_of_replayGuarded step OneAtATime
    (start threeUsers oneUser)
    (.connect 0 :: .run 0 fineEnv :: .dm bobsCall :: List.replicate 6 (.run 1 fineEnv) ++
      List.replicate 5 (.run 0 fineEnv))
    (fun s => ∃ m ∈ s.world.db.messages.rows, logged s.world m.id = 1) (by decide +kernel)
  exact ⟨s, hs, honce, at_most_once hs⟩

end PeerServer
