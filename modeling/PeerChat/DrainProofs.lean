import PeerChat.DeliveryProofs
import PeerChat.HistoryProofs

/-! # The backlog of a connection

    What `onConnect` does to the messages that wait for its user, when no other handler
    runs: it selects them once, with a `LIMIT`, enqueues the selected ones in turn and
    marks each.  There is no second selection, so what the `LIMIT` cuts off waits for
    the next connect. -/

namespace PeerServer

open PeerEnv KeyedTable BufferedChan PeerHub PeerRouter PeerStore PeerFrame PeerWorld
open PeerHandler Transition ThreadPool PeerHistory

/-- The messages that wait for `u`: in one of the user's chats, of somebody else, 'sent'. -/
def pendingMessages (db : Db) (u : UUID) : List Message :=
  db.messages.rows.filter fun m => db.Member m.chatID u ∧ m.senderID ≠ u ∧ m.status = .sent

/-- A connection that was just accepted: its thread, and its new client. -/
structure Accepted (s : Server) (i : Nat) (c : ClientId) (u : UUID) : Prop where
  thread : s.threads[i]? = some (.connRegister c)
  client : ∃ username, s.world.hub.heap c = newRealClient u username
  up : s.world.hub.panic = none

/-- Only this connection's thread runs, until `onConnect` has returned, and the database
    calls succeed. -/
def ConnectAlone (i : Nat) (c : ClientId) (s : Server) (a : Action) : Prop :=
  s.threads[i]? ≠ some (.live c) ∧
    ∃ env, a = .run i env ∧ env.ok .pending = true ∧ env.ok .updateStatus = true

/-- **THE BACKLOG IS DRAINED**: since `s` each message that waited has been enqueued once
    for the connection `c`, and it waits no longer. -/
def BacklogDrained (s t : Server) (c : ClientId) (u : UUID) : Prop :=
  ∀ m ∈ pendingMessages s.world.db u,
    ((t.world.hub.log.drop s.world.hub.log.length).countP fun e =>
      e.1 = c ∧ e.2.carries m.id) = 1 ∧
    ∀ m' ∈ t.world.db.messages.rows, m'.id = m.id → m'.status ≠ .sent

/-! ## The selection -/

/-- What `GetPendingMessages` returns. -/
def snapshot (db : Db) (u : UUID) : List PendingMessage :=
  (orderBy (fun p => p.message.createdAt) (db.pendingRows u)).take pendingLimit

theorem getPendingMessages_eq (db : Db) {env : Env} (u : UUID) (h : env.ok .pending = true) :
    db.getPendingMessages env u = .ok (snapshot db u) := by
  rw [Db.getPendingMessages, if_pos h]
  rfl

theorem mem_pendingMessages {db : Db} {u : UUID} {m : Message} : m ∈ pendingMessages db u ↔
    m ∈ db.messages.rows ∧ db.Member m.chatID u ∧ m.senderID ≠ u ∧ m.status = .sent := by
  rw [pendingMessages, List.mem_filter, decide_eq_true_eq]

/-- One row is selected for each of them, before the `LIMIT`. -/
theorem pendingRows_messages (db : Db) (u : UUID) :
    ((db.pendingRows u).map (·.message)).Perm (pendingMessages db u) := by
  have hids := pendingRows_nodup db u
  rw [← Function.comp_def, ← List.map_map] at hids
  have hnodup : (pendingMessages db u).Nodup := (nodup_rows db.messages).filter _
  refine (List.perm_ext_iff_of_nodup (List.Nodup.of_map _ hids) hnodup).mpr ?_
  intro m
  rw [mem_pendingMessages, List.mem_map]
  constructor
  · rintro ⟨p, hp, rfl⟩
    obtain ⟨hm, hmember, hother, hsent, -⟩ := mem_pendingRows.mp hp
    exact ⟨hm, hmember, hother, hsent⟩
  · rintro ⟨hm, hmember, hother, hsent⟩
    exact exists_pendingRow hm hmember hother hsent

/-- **THE SELECTION IS COMPLETE WHEN IT FITS THE `LIMIT`**, and only then. -/
theorem snapshot_complete_iff (db : Db) (u : UUID) :
    (∀ m ∈ pendingMessages db u, m.id ∈ rowIds (snapshot db u)) ↔
      (pendingMessages db u).length ≤ pendingLimit := by
  have hlength : (db.pendingRows u).length = (pendingMessages db u).length := by
    rw [← (pendingRows_messages db u).length_eq, List.length_map]
  constructor
  · intro hall
    have hnodup : ((pendingMessages db u).map Message.id).Nodup :=
      (List.filter_sublist.map Message.id).nodup db.messages.unique
    have hsub : (pendingMessages db u).map Message.id ⊆ rowIds (snapshot db u) := by
      intro id hid
      obtain ⟨m, hm, rfl⟩ := List.mem_map.mp hid
      exact hall m hm
    -- as many ids as messages, all of them among the ids of at most `pendingLimit` rows
    have hle := (List.subperm_of_subset hnodup hsub).length_le
    rw [List.length_map, rowIds, List.length_map, snapshot, List.length_take] at hle
    exact hle.trans (min_le_left _ _)
  · intro hle m hm
    obtain ⟨hin, hmember, hother, hsent⟩ := mem_pendingMessages.mp hm
    obtain ⟨p, hp, rfl⟩ := exists_pendingRow hin hmember hother hsent
    have hrows := getPendingMessages_eq db u (show fineEnv.ok .pending = true from rfl)
    exact List.mem_map_of_mem ((getPendingMessages_ok hrows).2.2 (hlength ▸ hle) p hp)

/-! ## The marks -/

/-- `UpdateMessageStatus(id, "delivered")` for each id in turn. -/
def markAll (db : Db) (ids : List UUID) : Db :=
  ids.foldl (fun db id => db.setStatus id .delivered) db

theorem markAll_snoc (db : Db) (ids : List UUID) (id : UUID) :
    markAll db (ids ++ [id]) = (markAll db ids).setStatus id .delivered := by
  rw [markAll, List.foldl_append]
  rfl

theorem mem_markAll {db : Db} {ids : List UUID} {m' : Message} :
    m' ∈ (markAll db ids).messages.rows ↔
      ∃ m ∈ db.messages.rows, m' = if m.id ∈ ids then m.withStatus .delivered else m := by
  induction ids using List.reverseRecOn generalizing m' with
  | nil => simp [markAll]
  | append_singleton ids id ih =>
      rw [markAll_snoc, mem_setStatus]
      constructor
      · rintro ⟨m₁, hm₁, rfl⟩
        obtain ⟨m, hm, rfl⟩ := ih.mp hm₁
        refine ⟨m, hm, ?_⟩
        by_cases hin : m.id ∈ ids
        · simp [hin, Message.withStatus]
        · simp [hin, eq_comm]
      · rintro ⟨m, hm, rfl⟩
        refine ⟨_, ih.mpr ⟨m, hm, rfl⟩, ?_⟩
        by_cases hin : m.id ∈ ids
        · simp [hin, Message.withStatus]
        · simp [hin, eq_comm]

/-! ## The thread, from `Register` to the end of `onConnect` -/

/-- The rows `pushed` have been enqueued for `c` since `w₀`, the rows `marked` have been
    marked, and nothing else has happened to the hub and the tables. -/
structure Drained (w₀ w : World) (c : ClientId) (u : UUID)
    (pushed marked : List PendingMessage) : Prop where
  log : w.hub.log = w₀.hub.log ++ pushed.map fun row => (c, drainFrame row)
  db : w.db = markAll w₀.db (rowIds marked)
  client : w.hub.clients u = some c
  user : w.hub.userOf c = u
  chan : w.hub.chan c = ⟨sendBuffer, pushed.map drainFrame, false⟩
  up : w.hub.panic = none

/-- Where the thread is, and what it has done so far. -/
inductive DrainAt (w₀ : World) (c : ClientId) (u : UUID) (w : World) : Thread → Prop where
  | register (h : w = w₀) : DrainAt w₀ c u w (.connRegister c)
  | online (h : Drained w₀ w c u [] []) : DrainAt w₀ c u w (.connOnline c)
  | opened (h : Drained w₀ w c u [] []) : DrainAt w₀ c u w (.connOpen c)
  | filed (h : Drained w₀ w c u [] []) (sub : SubId) : DrainAt w₀ c u w (.connFile c sub)
  | pending (h : Drained w₀ w c u [] []) : DrainAt w₀ c u w (.connPending c)
  | drain (done rest : List PendingMessage) (hrows : snapshot w₀.db u = done ++ rest)
      (h : Drained w₀ w c u done done) : DrainAt w₀ c u w (.drain c rest)
  | sending (done : List PendingMessage) (row : PendingMessage) (rest : List PendingMessage)
      (hrows : snapshot w₀.db u = done ++ row :: rest) (h : Drained w₀ w c u done done)
      (pc : SendPc) (hpc : pc = .lookup ∨ pc = .select c) :
      DrainAt w₀ c u w (.send (.drain c u row rest) pc)
  | marking (done : List PendingMessage) (row : PendingMessage) (rest : List PendingMessage)
      (hrows : snapshot w₀.db u = done ++ row :: rest)
      (h : Drained w₀ w c u (done ++ [row]) done) : DrainAt w₀ c u w (.drainMark c row rest)
  | returned (h : Drained w₀ w c u (snapshot w₀.db u) (snapshot w₀.db u)) :
      DrainAt w₀ c u w (.live c)

variable {w₀ w w' : World} {c : ClientId} {u : UUID} {pushed marked : List PendingMessage}

/-- `Register`, of a new client. -/
theorem drained_register (hclient : ∃ username, w₀.hub.heap c = newRealClient u username)
    (hup : w₀.hub.panic = none) : Drained w₀ { w₀ with hub := w₀.hub.register c } c u [] [] := by
  obtain ⟨username, hc⟩ := hclient
  have huser : w₀.hub.userOf c = u := by
    rw [Hub.userOf, hc]
    rfl
  refine ⟨by simp, rfl, ?_, huser, ?_, hup⟩
  · show (w₀.hub.register c).clients u = some c
    rw [← huser]
    exact register_clients_self w₀.hub c
  · show (w₀.hub.heap c).send = _
    rw [hc]
    rfl

/-- A step that leaves the hub and the tables alone. -/
theorem Drained.same (h : Drained w₀ w c u pushed marked) (hhub : w'.hub = w.hub)
    (hdb : w'.db = w.db) : Drained w₀ w' c u pushed marked := by
  refine ⟨?_, ?_, ?_, ?_, ?_, ?_⟩
  · rw [hhub, h.log]
  · rw [hdb, h.db]
  · rw [hhub, h.client]
  · rw [hhub, h.user]
  · rw [hhub, h.chan]
  · rw [hhub, h.up]

/-- The backlog fits the queue: the `LIMIT` is below its capacity. -/
theorem length_lt_sendBuffer {done rest : List PendingMessage} {row : PendingMessage}
    (hrows : snapshot w₀.db u = done ++ row :: rest) : done.length < sendBuffer := by
  have hlength : (done ++ row :: rest).length ≤ pendingLimit := by
    rw [← hrows, snapshot, List.length_take]
    exact min_le_left _ _
  have hlimit : pendingLimit < sendBuffer := by decide
  rw [List.length_append] at hlength
  omega

theorem drained_push {done : List PendingMessage} {row : PendingMessage}
    (h : Drained w₀ w c u done marked)
    {ch : Chan Frame} (hch : (w.hub.chan c).offer (drainFrame row) = .sent ch) :
    Drained w₀ { w with hub := w.hub.push c ch (drainFrame row) } c u (done ++ [row]) marked := by
  refine ⟨?_, h.db, h.client, ?_, ?_, h.up⟩
  · show (w.hub.push c ch (drainFrame row)).log = _
    rw [push_log, h.log, List.map_append, List.append_assoc]
    rfl
  · show (w.hub.push c ch (drainFrame row)).userOf c = u
    rw [push_userOf, h.user]
  · show (w.hub.push c ch (drainFrame row)).chan c = _
    rw [push_chan_self, (offer_sent hch).2.2, h.chan, List.map_append]
    rfl

/-- **THE `Send` OF THE DRAIN GOES THROUGH**: it finds the connection, which nobody has
    displaced or closed, and the queue has room for the whole selection. -/
theorem drained_send {done rest : List PendingMessage} {row : PendingMessage} {pc : SendPc}
    {hub : Hub Frame} {next : SendNext} (hrows : snapshot w₀.db u = done ++ row :: rest)
    (h : Drained w₀ w c u done marked) (hpc : pc = .lookup ∨ pc = .select c)
    (hs : SendStep w.hub u (drainFrame row) pc hub next) :
    (hub = w.hub ∧ next = .goto (.select c)) ∨
      (next = .returned true ∧ Drained w₀ { w with hub := hub } c u (done ++ [row]) marked) := by
  cases hs with
  | offline hno =>
      rw [h.client] at hno
      cases hno
  | found d hd =>
      rw [h.client] at hd
      cases hd
      exact Or.inl ⟨rfl, rfl⟩
  | sent d ch hch =>
      rcases hpc with hpc | hpc
      · cases hpc
      · cases hpc
        exact Or.inr ⟨rfl, drained_push h hch⟩
  | full d hopen hfull =>
      rcases hpc with hpc | hpc
      · cases hpc
      · cases hpc
        -- on the queue are the rows before this one, fewer than it can hold
        rw [h.chan, List.length_map] at hfull
        exact absurd (length_lt_sendBuffer hrows) (Nat.not_lt.mpr hfull)
  | panic d hclosed =>
      rcases hpc with hpc | hpc
      · cases hpc
      · cases hpc
        rw [h.chan] at hclosed
        cases hclosed
  | evict d => rcases hpc with hpc | hpc <;> cases hpc

theorem drained_mark {done : List PendingMessage} {row : PendingMessage} {env : Env}
    (h : Drained w₀ w c u pushed done) (hok : env.ok .updateStatus = true) :
    Drained w₀ (markDelivered w env row.message.id) c u pushed (done ++ [row]) := by
  have hmark : markDelivered w env row.message.id
      = { w with db := w.db.setStatus row.message.id .delivered } := by
    rw [markDelivered, Db.updateMessageStatus, if_pos hok]
  rw [hmark]
  refine ⟨h.log, ?_, h.client, h.user, h.chan, h.up⟩
  show w.db.setStatus row.message.id .delivered = _
  rw [h.db, rowIds, rowIds, List.map_append]
  exact (markAll_snoc _ _ _).symm

/-- **THE STEP LEMMA**: the thread goes from one place to the next. -/
theorem drainAt_step {env : Env} {t t' : Thread} {new : List Thread}
    (hclient : ∃ username, w₀.hub.heap c = newRealClient u username)
    (hup : w₀.hub.panic = none) (hpending : env.ok .pending = true)
    (hupdate : env.ok .updateStatus = true) (hlive : t ≠ .live c) (h : DrainAt w₀ c u w t)
    (hs : ThreadStep w env t w' t' new) : DrainAt w₀ c u w' t' := by
  cases h with
  | register h =>
      subst h
      cases hs with
      | quiet hdb hhub haddr hq => cases hq
      | registered => exact .online (drained_register hclient hup)
  | online h =>
      cases hs with
      | quiet hdb hhub haddr hq =>
          cases hq
          exact .opened (h.same hhub hdb)
  | opened h =>
      cases hs with
      | quiet hdb hhub haddr hq =>
          cases hq
          exact .filed (h.same hhub hdb) _
  | filed h sub =>
      cases hs with
      | quiet hdb hhub haddr hq =>
          cases hq
          exact .pending (h.same hhub hdb)
  | pending h =>
      cases hs with
      | quiet hdb hhub haddr hq => cases hq
      | pending _ rows hr =>
          rw [h.user, h.db, getPendingMessages_eq _ u hpending] at hr
          cases hr
          exact .drain [] _ rfl h
      | pendingFailed _ hfail =>
          rw [hpending] at hfail
          cases hfail
  | drain done rest hrows h =>
      cases hs with
      | quiet hdb hhub haddr hq =>
          cases hq with
          | drained =>
              rw [List.append_nil] at hrows
              subst hrows
              exact .returned (h.same hhub hdb)
          | drainNext _ row rest =>
              rw [h.user]
              exact .sending done row rest hrows (h.same hhub hdb) .lookup (Or.inl rfl)
  | sending done row rest hrows h pc hpc =>
      cases hs with
      | quiet hdb hhub haddr hq => cases hq
      | sendGoto k pc pc' hub hsend =>
          rcases drained_send hrows h hpc hsend with ⟨rfl, heq⟩ | ⟨heq, -⟩
          · cases heq
            exact .sending done row rest hrows h _ (Or.inr rfl)
          · cases heq
      | sendReturned k pc hub ok hsend =>
          rcases drained_send hrows h hpc hsend with ⟨-, heq⟩ | ⟨-, hpushed⟩
          · cases heq
          · exact .marking done row rest hrows hpushed
  | marking done row rest hrows h =>
      cases hs with
      | quiet hdb hhub haddr hq => cases hq
      | drainMarked =>
          refine .drain (done ++ [row]) rest ?_ (drained_mark h hupdate)
          rw [hrows, List.append_assoc]
          rfl
  | returned h => exact absurd rfl hlive

/-- How many steps are left, at most. -/
def stepsLeft (n : Nat) : Thread → Nat
  | .connRegister _ => 4 * n + 6
  | .connOnline _ => 4 * n + 5
  | .connOpen _ => 4 * n + 4
  | .connFile _ _ => 4 * n + 3
  | .connPending _ => 4 * n + 2
  | .drain _ rest => 4 * rest.length + 1
  | .send (.drain _ _ _ rest) .lookup => 4 * rest.length + 4
  | .send (.drain _ _ _ rest) _ => 4 * rest.length + 3
  | .drainMark _ _ rest => 4 * rest.length + 2
  | _ => 0

/-- **PROGRESS**: until it is through, the thread has a next step. -/
theorem exists_step {env : Env} {t : Thread} (hpending : env.ok .pending = true)
    (hlive : t ≠ .live c) (h : DrainAt w₀ c u w t) : ∃ w' t' new,
      stepThread w env t = some (w', t', new) ∧
        stepsLeft (snapshot w₀.db u).length t' < stepsLeft (snapshot w₀.db u).length t := by
  cases h with
  | register h => exact ⟨_, _, _, rfl, by simp [stepsLeft]⟩
  | online h => exact ⟨_, _, _, rfl, by simp [stepsLeft]⟩
  | opened h => exact ⟨_, _, _, rfl, by simp [stepsLeft]⟩
  | filed h sub => exact ⟨_, _, _, rfl, by simp [stepsLeft]⟩
  | pending h =>
      refine ⟨w, .drain c (snapshot w₀.db u), [], ?_, by simp [stepsLeft]⟩
      have hrows := getPendingMessages_eq w.db (w.hub.userOf c) hpending
      rw [h.user, h.db] at hrows
      simp only [stepThread, h.user, h.db, hrows]
      rfl
  | drain done rest hrows h =>
      cases rest with
      | nil => exact ⟨_, _, _, rfl, by simp [stepsLeft]⟩
      | cons row rest => exact ⟨_, _, _, rfl, by simp [stepsLeft]; omega⟩
  | sending done row rest hrows h pc hpc =>
      rcases hpc with rfl | rfl
      · refine ⟨w, .send (.drain c u row rest) (.select c), [], ?_, by simp [stepsLeft]⟩
        simp only [stepThread, stepSend, Kont.toID, h.client]
      · have hroom : (w.hub.chan c).buf.length < (w.hub.chan c).cap := by
          rw [h.chan, List.length_map]
          exact length_lt_sendBuffer hrows
        have hopen : (w.hub.chan c).closed = false := by rw [h.chan]
        obtain ⟨ch, hoffer⟩ : ∃ ch, (w.hub.chan c).offer (drainFrame row) = .sent ch :=
          ⟨_, offer_of_room _ hopen hroom⟩
        refine ⟨{ w with hub := w.hub.push c ch (drainFrame row) }, .drainMark c row rest, [],
          ?_, by simp [stepsLeft]⟩
        simp only [stepThread, stepSend, Kont.data, hoffer]
        rfl
  | marking done row rest hrows h => exact ⟨_, _, _, rfl, by simp [stepsLeft]⟩
  | returned h => exact absurd rfl hlive

/-! ## The server, with this thread alone -/

variable {s : Server} {i : Nat}

/-- Where the thread is in a state of the server. -/
def DrainsAt (w₀ : World) (i : Nat) (c : ClientId) (u : UUID) (s : Server) : Prop :=
  ∃ t, s.threads[i]? = some t ∧ DrainAt w₀ c u s.world t

theorem drainsAt_of_reach {t : Server} (h : Accepted s i c u)
    (hreach : Reach step (ConnectAlone i c) s t) : DrainsAt s.world i c u t := by
  refine Reach.invariant ?_ hreach ⟨_, h.thread, .register rfl⟩
  rintro v a v' ⟨th, hth, hat⟩ ⟨hlive, env, rfl, hpending, hupdate⟩ hstep
  cases step_cases hstep with
  | run _ _ th' w th'' new hth' hs =>
      rw [hth] at hth'
      cases hth'
      have hne : th ≠ .live c := fun heq => hlive (by rw [hth, heq])
      exact ⟨th'', getElem?_moved_self hth,
        drainAt_step h.client h.up hpending hupdate hne hat hs⟩

/-- The hub does not panic on the way. -/
theorem DrainAt.up (hup : w₀.hub.panic = none) {t : Thread} (h : DrainAt w₀ c u w t) :
    w.hub.panic = none := by
  cases h with
  | register h =>
      rw [h]
      exact hup
  | _ => exact Drained.up ‹_›

/-- **`onConnect` RETURNS.** -/
theorem exists_returned (h : Accepted s i c u) : ∃ t,
    Reach step (ConnectAlone i c) s t ∧ t.threads[i]? = some (.live c) := by
  suffices hfrom : ∀ n v th, v.threads[i]? = some th → DrainAt s.world c u v.world th →
      stepsLeft (snapshot s.world.db u).length th = n →
      ∃ t, Reach step (ConnectAlone i c) v t ∧ t.threads[i]? = some (.live c) from
    hfrom _ s _ h.thread (.register rfl) rfl
  intro n
  -- by induction on the steps that are left
  induction n using Nat.strongRecOn with
  | ind n ih =>
      intro v th hth hat hn
      by_cases hlive : th = .live c
      · exact ⟨v, Reach.refl v, by rw [hth, hlive]⟩
      · obtain ⟨w', th', new, hs, hless⟩ :=
            exists_step (show fineEnv.ok .pending = true from rfl) hlive hat
        let next : Server := { v with
          world := w'
          threads := moved v.threads i th' new
          sockets := startPump v.sockets th' }
        have hstep : step v (.run i fineEnv) = some next := by
          simp only [step, hat.up h.up, Option.isSome_none, Bool.false_eq_true, if_false, hth, hs]
          rfl
        have hguard : ConnectAlone i c v (.run i fineEnv) :=
          ⟨fun heq => hlive (Option.some.inj (hth.symm.trans heq)), fineEnv, rfl, rfl, rfl⟩
        obtain ⟨t, hreach, ht⟩ := ih _ (hn ▸ hless) next th' (getElem?_moved_self hth)
          (drainAt_step h.client h.up rfl rfl hlive hat (threadStep_of_stepThread hs)) rfl
        exact ⟨t, Reach.head hguard hstep hreach, ht⟩

/-- What the rows of the selection are told by: the log and the marks. -/
theorem handed_iff {pushed : List PendingMessage} (h : Drained w₀ w c u pushed pushed)
    (hnodup : (rowIds pushed).Nodup) (m : Message) :
    (((w.hub.log.drop w₀.hub.log.length).countP fun e => e.1 = c ∧ e.2.carries m.id) = 1 ∧
      ∀ m' ∈ w.db.messages.rows, m'.id = m.id → m'.status ≠ .sent) ↔ m.id ∈ rowIds pushed := by
  have hcount : ((w.hub.log.drop w₀.hub.log.length).countP fun e =>
      e.1 = c ∧ e.2.carries m.id) = (rowIds pushed).count m.id := by
    rw [h.log, List.drop_left, List.countP_map, rowIds, List.count, List.countP_map]
    refine List.countP_congr fun row _ => ?_
    simp
  rw [hcount]
  constructor
  · rintro ⟨hone, -⟩
    exact List.count_pos_iff.mp (by rw [hone]; exact Nat.one_pos)
  · intro hin
    refine ⟨List.count_eq_one_of_mem hnodup hin, ?_⟩
    intro m' hm' hid
    rw [h.db, mem_markAll] at hm'
    obtain ⟨m₀, hm₀, rfl⟩ := hm'
    have hin₀ : m₀.id ∈ rowIds pushed := by
      by_contra hnot
      rw [if_neg hnot] at hid
      rw [hid] at hnot
      exact hnot hin
    rw [if_pos hin₀, withStatus_status]
    exact fun hbad => by cases hbad

/-- The drain leaves out exactly what the `LIMIT` cuts off. -/
theorem backlogDrained_iff_of_returned {t : Server}
    (h : Drained s.world t.world c u (snapshot s.world.db u) (snapshot s.world.db u)) :
    BacklogDrained s t c u ↔ (pendingMessages s.world.db u).length ≤ pendingLimit := by
  have hrows := getPendingMessages_eq s.world.db u (show fineEnv.ok .pending = true from rfl)
  rw [← snapshot_complete_iff]
  exact forall₂_congr fun m _ => handed_iff h (getPendingMessages_ok hrows).2.1 m

/-- **THE BACKLOG IS DRAINED IF IT FITS THE `LIMIT`**: `onConnect` returns, and when it has,
    everything that waited is on the connection's queue exactly if there were at most
    `pendingLimit` messages. -/
theorem backlog_drained_iff (h : Accepted s i c u) :
    (∃ t, Reach step (ConnectAlone i c) s t ∧ t.threads[i]? = some (.live c)) ∧
    ∀ t, Reach step (ConnectAlone i c) s t → t.threads[i]? = some (.live c) →
      (BacklogDrained s t c u ↔ (pendingMessages s.world.db u).length ≤ pendingLimit) := by
  refine ⟨exists_returned h, ?_⟩
  intro t hreach hlive
  obtain ⟨th, hth, hat⟩ := drainsAt_of_reach h hreach
  rw [hlive] at hth
  cases hth
  cases hat with
  | returned hdrained => exact backlogDrained_iff_of_returned hdrained

/-! ## Bob comes back -/

/-- Bob's connection has just been accepted, with `n` messages of alice waiting. -/
def bobReturns (n : Nat) (h : n ≤ 2 ^ 128) : Server :=
  { start (chatOf n h) (fun _ => (⟨2⟩, "bob")) with threads := [.connRegister 0], conns := [0] }

theorem bobReturns_accepted (n : Nat) (h : n ≤ 2 ^ 128) : Accepted (bobReturns n h) 0 0 ⟨2⟩ :=
  ⟨rfl, ⟨"bob", rfl⟩, rfl⟩

/-- Of a hundred and one messages one is left behind. -/
theorem long_backlog_left : ¬ ∀ (s t : Server) (i : Nat) (c : ClientId) (u : UUID),
    Accepted s i c u → Reach step (ConnectAlone i c) s t → t.threads[i]? = some (.live c) →
      BacklogDrained s t c u := by
  intro hall
  have haccepted := bobReturns_accepted 101 (by decide)
  obtain ⟨t, hreach, hlive⟩ := exists_returned haccepted
  obtain ⟨th, hth, hat⟩ := drainsAt_of_reach haccepted hreach
  rw [hlive] at hth
  cases hth
  cases hat with
  | returned hdrained =>
      have hlong := (backlogDrained_iff_of_returned hdrained).mp
        (hall _ t 0 0 ⟨2⟩ haccepted hreach hlive)
      revert hlong
      decide +kernel

/-- Three messages are all drained. -/
theorem backlog_drained_three : ∃ t,
    Reach step (ConnectAlone 0 0) (bobReturns 3 (by decide)) t ∧
      t.threads[0]? = some (.live 0) ∧ BacklogDrained (bobReturns 3 (by decide)) t 0 ⟨2⟩ := by
  obtain ⟨⟨t, hreach, hlive⟩, hiff⟩ := backlog_drained_iff (bobReturns_accepted 3 (by decide))
  exact ⟨t, hreach, hlive, (hiff t hreach hlive).mpr (by decide +kernel)⟩

end PeerServer
