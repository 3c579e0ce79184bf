import PeerChat.AtLeastOnceProofs
import PeerChat.DeliveredProofs
import PeerChat.DrainProofs

/-! # What a drain marks and what it delivers

    One connection's thread is watched from before its selection, while all the other
    threads do what they like: live messages fill the queue, another connection of the
    user takes the entry of the map and gives it up.  On record is what each `hub.Send`
    of the drain returned, what it enqueued, and what was marked.

    The update comes after the `Send` whatever that returned, so the drain marks every
    row, and the record is right exactly if every `Send` went through. -/

namespace PeerServer

open PeerEnv KeyedTable BufferedChan PeerHub PeerStore PeerFrame PeerWorld PeerHandler
open Transition ThreadPool PeerHistory

/-- What is on record of a drain. -/
structure DrainRecord where
  /-- The messages that waited when the selection was made … -/
  waiting : List Message
  /-- … and the rows that were selected. -/
  selected : List PendingMessage
  /-- The rows tried, with what `hub.Send` returned. -/
  results : List (PendingMessage × Bool)
  enqueued : List (ClientId × Frame)
  /-- The ids that the drain has set to 'delivered'. -/
  marked : List UUID
  /-- The ids whose status another thread has set since the selection. -/
  others : List UUID

/-- What a `hub.Send` of the drain returns with its next step. -/
def sendResult (h : Hub Frame) (userID : UUID) (row : PendingMessage) (pc : SendPc) :
    List (PendingMessage × Bool) :=
  match (stepSend h userID (drainFrame row) pc).2 with
  | .returned ok => [(row, ok)]
  | .goto _ => []

/-- The id whose status the next step of a thread sets. -/
def Thread.setsNow (env : Env) (t : Thread) : List UUID :=
  if env.ok .updateStatus then (t.sets.map Prod.fst).toList else []

/-- The record after a step of the drain's thread, from `w` to `w'`. -/
def DrainRecord.note (r : DrainRecord) (w w' : World) (env : Env) : Thread → DrainRecord
  | .connPending c =>
      { r with
        waiting := pendingMessages w.db (w.hub.userOf c)
        selected := match w.db.getPendingMessages env (w.hub.userOf c) with
          | .ok rows => rows
          | .error _ => []
        others := [] }
  | .send (.drain _ userID row _) pc =>
      { r with
        results := r.results ++ sendResult w.hub userID row pc
        enqueued := r.enqueued ++ w'.hub.log.drop w.hub.log.length }
  | .drainMark c row rest =>
      { r with marked := r.marked ++ (Thread.drainMark c row rest).setsNow env }
  | _ => r

/-- The record after a step of another thread. -/
def DrainRecord.noteOther (r : DrainRecord) (env : Env) (t : Thread) : DrainRecord :=
  { r with others := r.others ++ t.setsNow env }

/-- A server with the record of one of its drains. -/
structure Recorded where
  server : Server
  record : DrainRecord

/-- Nothing on record yet. -/
def Recorded.begin (s : Server) : Recorded := ⟨s, [], [], [], [], [], []⟩

/-- One step of the server, with what it adds to the record of thread `i`. -/
def recordedStep (i : Nat) (s : Recorded) (a : Action) : Option Recorded :=
  (step s.server a).map fun t => ⟨t, match a with
    | .run j env => match s.server.threads[j]? with
      | some th =>
          if j = i then s.record.note s.server.world t.world env th
          else s.record.noteOther env th
      | none => s.record
    | _ => s.record⟩

/-- The database statements of the drain succeed. -/
def DrainDbUp (i : Nat) (_ : Recorded) : Action → Prop
  | .run j env => j = i → env.ok .pending = true ∧ env.ok .updateStatus = true
  | _ => True

/-- And each of its `Send`s finds a client of the user, with room in an open channel. -/
def DrainArrives (i : Nat) (s : Recorded) (a : Action) : Prop :=
  DrainDbUp i s a ∧ match a with
    | .run j _ => j = i → ∀ t ∈ s.server.threads[j]?, arrives s.server.world.hub t = true
    | _ => True

instance (i : Nat) (s : Recorded) (a : Action) : Decidable (DrainDbUp i s a) :=
  match a with
  | .run j _ => inferInstanceAs (Decidable (j = i → _ ∧ _))
  | .dm _ | .connect _ | .ack _ _ | .activate _ | .pumpWrite _ _ | .pumpStop _ => isTrue trivial

instance (i : Nat) (s : Recorded) (a : Action) : Decidable (DrainArrives i s a) :=
  match a with
  | .run j _ => inferInstanceAs (Decidable (_ ∧ (j = i → ∀ t ∈ s.server.threads[j]?, _)))
  | .dm _ | .connect _ | .ack _ _ | .activate _ | .pumpWrite _ _ | .pumpStop _ =>
      inferInstanceAs (Decidable (_ ∧ True))

/-- **THE DRAIN MARKS EXACTLY WHAT IT DELIVERED** to the user `u`. -/
structure MarksExactly (u : UUID) (w : World) (r : DrainRecord) : Prop where
  marked : ∀ id, id ∈ r.marked ↔ ∃ row, (row, true) ∈ r.results ∧ row.message.id = id
  /-- What has been enqueued are the frames of the `Send`s that returned true, in the order
      in which the messages were created, … -/
  frames : r.enqueued.map Prod.snd = (r.results.filter Prod.snd).map fun e => drainFrame e.1
  created : (r.results.map Prod.fst).Pairwise fun p q =>
    p.message.createdAt ≤ q.message.createdAt
  /-- … and that is how they stand in the queues of the user's clients. -/
  queued : r.enqueued.Sublist w.hub.log
  receiver : ∀ e ∈ r.enqueued, w.hub.userOf e.1 = u
  /-- What waited and was not marked by another thread is 'delivered' if the drain marked
      it, and else 'sent'. -/
  status : ∀ m ∈ r.waiting, m.id ∉ r.others → ∀ m' ∈ w.db.messages.rows, m'.id = m.id →
    m'.status = if m.id ∈ r.marked then .delivered else .sent

/-- The connection of `c` is thread `i`, and has its selection before it. -/
def Begins (s : Server) (i : Nat) (c : ClientId) : Prop :=
  ∃ t, s.threads[i]? = some t ∧ t.ahead c

/-! ## The invariant -/

/-- What the record says of any state of the run. -/
structure Sound (c : ClientId) (u : UUID) (w : World) (r : DrainRecord) : Prop where
  user : w.hub.userOf c = u
  frames : r.enqueued.map Prod.snd = (r.results.filter Prod.snd).map fun e => drainFrame e.1
  queued : r.enqueued.Sublist w.hub.log
  receiver : ∀ e ∈ r.enqueued, w.hub.userOf e.1 = u
  created : r.selected.Pairwise fun p q => p.message.createdAt ≤ q.message.createdAt
  nodup : (rowIds r.selected).Nodup
  known : ∀ m ∈ r.waiting, m.id ∈ w.db.messages.keys
  status : ∀ m ∈ r.waiting, m.id ∉ r.others → ∀ m' ∈ w.db.messages.rows, m'.id = m.id →
    m'.status = if m.id ∈ r.marked then .delivered else .sent

/-- The connection has ended, or is about to. -/
def Thread.over : Thread → Prop
  | .connOffline _ => True
  | .connUnfile _ => True
  | .connClose _ => True
  | .done => True
  | _ => False

/-- Where the drain's thread is, in terms of the record. -/
inductive RecordAt (c : ClientId) (u : UUID) (h : Hub Frame) (r : DrainRecord) :
    Thread → Prop where
  | ahead (t : Thread) (ht : t.ahead c) (hresults : r.results = []) (hmarked : r.marked = []) :
      RecordAt c u h r t
  | drain (done rest : List PendingMessage) (hsel : r.selected = done ++ rest)
      (hresults : r.results.map Prod.fst = done) (hmarked : r.marked = rowIds done) :
      RecordAt c u h r (.drain c rest)
  | sending (done : List PendingMessage) (row : PendingMessage) (rest : List PendingMessage)
      (hsel : r.selected = done ++ row :: rest) (hresults : r.results.map Prod.fst = done)
      (hmarked : r.marked = rowIds done) (pc : SendPc) (hpc : ∀ d, pc = .select d → h.userOf d = u) :
      RecordAt c u h r (.send (.drain c u row rest) pc)
  | marking (done : List PendingMessage) (row : PendingMessage) (rest : List PendingMessage)
      (hsel : r.selected = done ++ row :: rest)
      (hresults : r.results.map Prod.fst = done ++ [row]) (hmarked : r.marked = rowIds done) :
      RecordAt c u h r (.drainMark c row rest)
  | returned (hresults : r.results.map Prod.fst = r.selected)
      (hmarked : r.marked = rowIds r.selected) : RecordAt c u h r (.live c)
  | ended (t : Thread) (ht : t.over) : RecordAt c u h r t

variable {c d : ClientId} {u : UUID} {w w' : World} {r : DrainRecord} {env : Env}
variable {t t' : Thread} {new : List Thread}

/-! ## What one step does to the log and to the rows -/

/-- Nothing is taken out of the hub's history. -/
theorem log_sublist_of_step (h : ThreadStep w env t w' t' new) :
    w.hub.log.Sublist w'.hub.log := by
  cases took_of_step h with
  | none hlog hbuf => rw [hlog]
  | one d f hlog hself hbuf =>
      rw [hlog]
      exact List.sublist_append_left _ _

/-- An update that fails changes no row. -/
theorem db_of_failed_update (h : ThreadStep w env t w' t' new)
    (hfail : env.ok .updateStatus = false) (hsets : t.sets ≠ none) : w'.db = w.db := by
  have hmark : ∀ id, (markDelivered w env id).db = w.db := by
    intro id
    rw [markDelivered, Db.updateMessageStatus, hfail]
    rfl
  cases h with
  | quiet hdb hhub haddr hq => exact hdb
  | marked call stored => exact hmark _
  | drainMarked c row rest => exact hmark _
  | acked readerID call hok =>
      rw [hfail] at hok
      cases hok
  | _ => exact absurd rfl hsets

/-- **A STATUS STAYS** unless the step sets it. -/
theorem status_of_step (h : ThreadStep w env t w' t' new) {m' : Message}
    (hm' : m' ∈ w'.db.messages.rows) (hkey : m'.id ∈ w.db.messages.keys)
    (hnot : m'.id ∉ t.setsNow env) :
    ∃ m ∈ w.db.messages.rows, m.id = m'.id ∧ m'.status = m.status := by
  rcases row_of_step h hm' with ⟨m, hm, hid, -, -, hst | hsets⟩ | ⟨call, -, -, hfresh, -⟩
  · exact ⟨m, hm, hid, hst⟩
  · cases hok : env.ok .updateStatus with
    | true =>
        rw [Thread.setsNow, hok, if_pos rfl, hsets] at hnot
        exact absurd (List.mem_singleton.mpr rfl) hnot
    | false =>
        -- the update failed
        rw [db_of_failed_update h hok (by rw [hsets]; exact Option.some_ne_none _)] at hm'
        exact ⟨m', hm', rfl, rfl⟩
  · exact absurd hkey hfresh

/-! ## The steps of the other threads -/

theorem Sound.same (h : Sound c u w r) (huser : ∀ d, w'.hub.userOf d = w.hub.userOf d)
    (hlog : w'.hub.log = w.hub.log) (hdb : w'.db = w.db) : Sound c u w' r where
  user := by rw [huser, h.user]
  frames := h.frames
  queued := by
    rw [hlog]
    exact h.queued
  receiver := by
    intro e he
    rw [huser]
    exact h.receiver e he
  created := h.created
  nodup := h.nodup
  known := by
    rw [hdb]
    exact h.known
  status := by
    rw [hdb]
    exact h.status

/-- A step elsewhere keeps the record sound. -/
theorem Sound.quiet (h : Sound c u w r) (hhub : w'.hub = w.hub) (hdb : w'.db = w.db) :
    Sound c u w' r :=
  h.same (by rw [hhub]; exact fun _ => rfl) (by rw [hhub]) hdb

/-- A step of any thread, if the record takes down what it sets. -/
theorem Sound.noted (h : Sound c u w r) (hs : ThreadStep w env t w' t' new) :
    Sound c u w' (r.noteOther env t) where
  user := by rw [hs.grows.users, h.user]
  frames := h.frames
  queued := h.queued.trans (log_sublist_of_step hs)
  receiver := by
    intro e he
    rw [hs.grows.users]
    exact h.receiver e he
  created := h.created
  nodup := h.nodup
  known := fun m hm => hs.grows.keys _ (h.known m hm)
  status := by
    intro m hm hnot m' hm' hid
    rw [DrainRecord.noteOther, List.mem_append, not_or] at hnot
    have hkey : m'.id ∈ w.db.messages.keys := by
      rw [hid]
      exact h.known m hm
    obtain ⟨m₀, hm₀, hid₀, hst⟩ := status_of_step hs hm' hkey (by rw [hid]; exact hnot.2)
    rw [hst]
    exact h.status m hm hnot.1 m₀ hm₀ (hid₀.trans hid)

theorem noteOther_of_sets (r : DrainRecord) (env : Env) (h : t.sets = none) :
    r.noteOther env t = r := by
  have hnow : t.setsNow env = [] := by
    rw [Thread.setsNow, h]
    split <;> rfl
  rw [DrainRecord.noteOther, hnow, List.append_nil]

/-- Where the drain is does not depend on what the others do, nor on what it has
    enqueued. -/
theorem RecordAt.congr {h h' : Hub Frame} {r' : DrainRecord} (hat : RecordAt c u h r t)
    (huser : ∀ d, h'.userOf d = h.userOf d) (hselected : r'.selected = r.selected)
    (hreturned : r'.results = r.results) (hmarks : r'.marked = r.marked) :
    RecordAt c u h' r' t := by
  cases hat with
  | ahead _ ht hresults hmarked =>
      exact .ahead _ ht (hreturned.trans hresults) (hmarks.trans hmarked)
  | drain done rest hsel hresults hmarked =>
      refine .drain done rest (hselected.trans hsel) ?_ (hmarks.trans hmarked)
      rw [hreturned, hresults]
  | sending done row rest hsel hresults hmarked pc hpc =>
      refine .sending done row rest (hselected.trans hsel) ?_ (hmarks.trans hmarked) pc ?_
      · rw [hreturned, hresults]
      · intro d hd
        rw [huser]
        exact hpc d hd
  | marking done row rest hsel hresults hmarked =>
      refine .marking done row rest (hselected.trans hsel) ?_ (hmarks.trans hmarked)
      rw [hreturned, hresults]
  | returned hresults hmarked =>
      refine .returned ?_ ?_
      · rw [hreturned, hresults, hselected]
      · rw [hmarks, hmarked, hselected]
  | ended _ ht => exact .ended _ ht

/-! ## The steps of the drain's own thread -/

variable {row : PendingMessage} {rest : List PendingMessage} {pc : SendPc} {next : SendNext}

/-- What `hub.Send` has returned, if it has. -/
def outcome (row : PendingMessage) : SendNext → List (PendingMessage × Bool)
  | .returned ok => [(row, ok)]
  | .goto _ => []

theorem note_send {hub : Hub Frame} (r : DrainRecord) (env : Env) (c : ClientId)
    (rest : List PendingMessage) (hs : SendStep w.hub u (drainFrame row) pc hub next) :
    r.note w { w with hub := hub } env (.send (.drain c u row rest) pc) =
      { r with
        results := r.results ++ outcome row next
        enqueued := r.enqueued ++ hub.log.drop w.hub.log.length } := by
  simp only [DrainRecord.note, sendResult, stepSend_of_sendStep hs]
  cases next <;> rfl

/-- The selection of the backlog keeps the record sound. -/
theorem Sound.selection (h : Sound c u w r) {rows : List PendingMessage}
    (hr : w.db.getPendingMessages env u = .ok rows) (hmarked : r.marked = []) :
    Sound c u w { r with
      waiting := pendingMessages w.db u, selected := rows, others := [] } where
  user := h.user
  frames := h.frames
  queued := h.queued
  receiver := h.receiver
  created := getPendingMessages_sorted hr
  nodup := (getPendingMessages_ok hr).2.1
  known := fun m hm => key_mem_keys (mem_pendingMessages.mp hm).1
  status := by
    intro m hm _ m' hm' hid
    obtain ⟨hin, -, -, hsent⟩ := mem_pendingMessages.mp hm
    rw [eq_of_key hm' hin hid, hsent, hmarked]
    rfl

/-- `hub.Send` returns true. -/
theorem Sound.sent (h : Sound c u w r) (hd : w.hub.userOf d = u) {ch : Chan Frame} :
    Sound c u { w with hub := w.hub.push d ch (drainFrame row) } { r with
      results := r.results ++ [(row, true)]
      enqueued := r.enqueued ++ [(d, drainFrame row)] } where
  user := by
    show (w.hub.push d ch (drainFrame row)).userOf c = u
    rw [push_userOf, h.user]
  frames := by
    show (r.enqueued ++ [(d, drainFrame row)]).map Prod.snd = _
    rw [List.map_append, h.frames, List.filter_append, List.map_append]
    rfl
  queued := by
    show (r.enqueued ++ [(d, drainFrame row)]).Sublist (w.hub.push d ch (drainFrame row)).log
    rw [push_log]
    exact h.queued.append (List.Sublist.refl _)
  receiver := by
    intro e he
    show (w.hub.push d ch (drainFrame row)).userOf e.1 = u
    rw [push_userOf]
    rcases List.mem_append.mp he with hold | hnew
    · exact h.receiver e hold
    · rw [List.mem_singleton.mp hnew]
      exact hd
  created := h.created
  nodup := h.nodup
  known := h.known
  status := h.status

/-- `hub.Send` returns false. -/
theorem Sound.missed (h : Sound c u w r) :
    Sound c u w { r with results := r.results ++ [(row, false)] } where
  user := h.user
  frames := by
    show _ = ((r.results ++ [(row, false)]).filter Prod.snd).map fun e => drainFrame e.1
    rw [List.filter_append, List.map_append, h.frames]
    exact (List.append_nil _).symm
  queued := h.queued
  receiver := h.receiver
  created := h.created
  nodup := h.nodup
  known := h.known
  status := h.status

/-- `UpdateMessageStatus` succeeds. -/
theorem Sound.mark (h : Sound c u w r) {id : UUID} (hupdate : env.ok .updateStatus = true) :
    Sound c u (markDelivered w env id) { r with marked := r.marked ++ [id] } := by
  have hdb : markDelivered w env id = { w with db := w.db.setStatus id .delivered } := by
    rw [markDelivered, Db.updateMessageStatus, if_pos hupdate]
  rw [hdb]
  refine ⟨h.user, h.frames, h.queued, h.receiver, h.created, h.nodup, ?_, ?_⟩
  · intro m hm
    show m.id ∈ (w.db.setStatus id .delivered).messages.keys
    rw [setStatus_keys]
    exact h.known m hm
  · intro m hm hnot m' hm' hid
    obtain ⟨m₀, hm₀, rfl⟩ := mem_setStatus.mp hm'
    by_cases hself : m₀.id = id
    · rw [if_pos hself] at hid
      rw [if_pos hself, withStatus_status, if_pos]
      rw [← hid, withStatus_id, hself]
      exact List.mem_concat_self
    · rw [if_neg hself] at hid ⊢
      rw [h.status m hm hnot m₀ hm₀ hid]
      have hother : m.id ≠ id := fun heq => hself (hid.trans heq)
      simp [hother]

/-- The thread's steps that leave the record alone. -/
theorem Sound.moved (h : Sound c u w r) (hs : ThreadStep w env t w' t' new)
    (hsets : t.sets = none) : Sound c u w' r := by
  have hnoted := h.noted hs
  rwa [noteOther_of_sets r env hsets] at hnoted

/-- One step of the drain's `hub.Send`. -/
theorem sound_send {hub : Hub Frame} (h : Sound c u w r)
    (hpc : ∀ d, pc = .select d → w.hub.userOf d = u)
    (hs : SendStep w.hub u (drainFrame row) pc hub next) :
    Sound c u { w with hub := hub }
      (r.note w { w with hub := hub } env (.send (.drain c u row rest) pc)) := by
  have husers := hs.userOf
  rw [note_send r env c rest hs]
  have hnone : hub.log = w.hub.log → r.enqueued ++ hub.log.drop w.hub.log.length = r.enqueued := by
    intro hlog
    rw [hlog, List.drop_length, List.append_nil]
  cases hs with
  | offline hno =>
      rw [hnone rfl]
      exact h.missed
  | found d hd =>
      rw [hnone rfl, outcome, List.append_nil]
      exact h
  | sent d ch hch =>
      rw [push_log, List.drop_left]
      exact h.sent (hpc d rfl)
  | full d hopen hfull =>
      rw [hnone rfl, outcome, List.append_nil]
      exact h
  | panic d hclosed =>
      rw [hnone rfl]
      exact h.missed.same husers rfl rfl
  | evict d =>
      rw [hnone (unregister_log w.hub d)]
      exact h.missed.same husers (unregister_log w.hub d) rfl

/-- The `Send` goes on. -/
theorem recordAt_goto {hub : Hub Frame} {done : List PendingMessage} {pc' : SendPc}
    (hsel : r.selected = done ++ row :: rest) (hresults : r.results.map Prod.fst = done)
    (hmarked : r.marked = rowIds done)
    (hs : SendStep w.hub u (drainFrame row) pc hub (.goto pc')) :
    RecordAt c u hub (r.note w { w with hub := hub } env (.send (.drain c u row rest) pc))
      (.send (.drain c u row rest) pc') := by
  have hfound : ∀ d, pc' = .select d → hub.userOf d = u := by
    intro d hd
    cases hs with
    | found e he =>
        cases hd
        exact w.hub.owned u d he
    | full e hopen hfull => cases hd
  have hat : RecordAt c u hub r (.send (.drain c u row rest) pc') :=
    .sending done row rest hsel hresults hmarked pc' hfound
  rw [note_send r env c rest hs]
  exact hat.congr (fun _ => rfl) rfl (List.append_nil _) rfl

/-- The `Send` returns, and its row is to be marked next. -/
theorem recordAt_returned {hub : Hub Frame} {done : List PendingMessage} {ok : Bool}
    (hsel : r.selected = done ++ row :: rest) (hresults : r.results.map Prod.fst = done)
    (hmarked : r.marked = rowIds done)
    (hs : SendStep w.hub u (drainFrame row) pc hub (.returned ok)) :
    RecordAt c u hub (r.note w { w with hub := hub } env (.send (.drain c u row rest) pc))
      (.drainMark c row rest) := by
  rw [note_send r env c rest hs]
  refine .marking done row rest hsel ?_ hmarked
  rw [outcome, List.map_append, hresults]
  rfl

/-- Up to the selection, and the selection itself. -/
theorem recorded_ahead (h : Sound c u w r) (ht : t.ahead c) (hresults : r.results = [])
    (hmarked : r.marked = []) (hs : ThreadStep w env t w' t' new)
    (hpending : env.ok .pending = true) :
    Sound c u w' (r.note w w' env t) ∧ RecordAt c u w'.hub (r.note w w' env t) t' := by
  cases hs with
  | quiet hdb hhub haddr hq =>
      have hsame : Sound c u w' r := h.quiet hhub hdb
      cases hq with
      | online d => exact ⟨hsame, .ahead _ ht hresults hmarked⟩
      | opened d sub => exact ⟨hsame, .ahead _ ht hresults hmarked⟩
      | filed d sub => exact ⟨hsame, .ahead _ ht hresults hmarked⟩
      | _ => exact False.elim ht
  | registered d =>
      refine ⟨h.same (fun _ => rfl) ?_ rfl, .ahead _ ht hresults hmarked⟩
      exact register_log w.hub d
  | pending d rows hr =>
      have hd : d = c := ht
      subst hd
      rw [h.user] at hr
      -- what waits now goes on record with the rows selected
      have hnote : r.note w w env (.connPending d) = { r with
          waiting := pendingMessages w.db u, selected := rows, others := [] } := by
        rw [DrainRecord.note, h.user, hr]
      rw [hnote]
      refine ⟨h.selection hr hmarked, .drain [] rows rfl ?_ hmarked⟩
      rw [hresults]
      rfl
  | pendingFailed d hfail =>
      rw [hpending] at hfail
      cases hfail
  | _ => exact False.elim ht

/-- **THE STEP LEMMA**, for the drain's thread. -/
theorem recorded_own (h : Sound c u w r) (hat : RecordAt c u w.hub r t)
    (hs : ThreadStep w env t w' t' new) (hpending : env.ok .pending = true)
    (hupdate : env.ok .updateStatus = true) :
    Sound c u w' (r.note w w' env t) ∧ RecordAt c u w'.hub (r.note w w' env t) t' := by
  cases hat with
  | ahead _ ht hresults hmarked => exact recorded_ahead h ht hresults hmarked hs hpending
  | drain done rest hsel hresults hmarked =>
      have hmoved := h.moved hs rfl
      cases hs with
      | quiet hdb hhub haddr hq =>
          cases hq with
          | drained =>
              rw [List.append_nil] at hsel
              refine ⟨hmoved, .returned ?_ ?_⟩
              · exact hresults.trans hsel.symm
              · exact hmarked.trans (congrArg rowIds hsel.symm)
          | drainNext _ row rest =>
              refine ⟨hmoved, ?_⟩
              rw [h.user]
              exact .sending done row rest hsel hresults hmarked .lookup fun d hd => by cases hd
  | sending done row rest hsel hresults hmarked pc hpc =>
      cases hs with
      | quiet hdb hhub haddr hq => cases hq
      | sendGoto k pc pc' hub hsend =>
          exact ⟨sound_send h hpc hsend, recordAt_goto hsel hresults hmarked hsend⟩
      | sendReturned k pc hub ok hsend =>
          -- the row is marked next, whatever `ok` is
          exact ⟨sound_send h hpc hsend, recordAt_returned hsel hresults hmarked hsend⟩
  | marking done row rest hsel hresults hmarked =>
      cases hs with
      | quiet hdb hhub haddr hq => cases hq
      | drainMarked =>
          have hnow : (Thread.drainMark c row rest).setsNow env = [row.message.id] := by
            rw [Thread.setsNow, hupdate]
            rfl
          rw [DrainRecord.note, hnow]
          refine ⟨h.mark hupdate, .drain (done ++ [row]) rest ?_ hresults ?_⟩
          · rw [hsel, List.append_assoc]
            rfl
          · show r.marked ++ [row.message.id] = _
            rw [hmarked, rowIds, rowIds, List.map_append]
            rfl
  | returned hresults hmarked =>
      have hmoved := h.moved hs rfl
      cases hs with
      | quiet hdb hhub haddr hq => cases hq
      | ended => exact ⟨hmoved, .ended _ trivial⟩
  | ended _ ht =>
      cases hs with
      | quiet hdb hhub haddr hq =>
          have hsame : Sound c u w' r := h.quiet hhub hdb
          cases hq with
          | offline d => exact ⟨hsame, .ended _ trivial⟩
          | unfiled d sub => exact ⟨hsame, .ended _ trivial⟩
          | closed sub => exact ⟨hsame, .ended _ trivial⟩
          | _ => exact False.elim ht
      | _ => exact False.elim ht

/-! ## Every run -/

/-- **THE INVARIANT OF A RUN**: the record is sound, and tells where the thread is. -/
structure Watches (i : Nat) (c : ClientId) (u : UUID) (s : Recorded) : Prop where
  sound : Sound c u s.server.world s.record
  place : ∃ t, s.server.threads[i]? = some t ∧
    RecordAt c u s.server.world.hub s.record t

variable {i : Nat} {s s' : Recorded} {a : Action}

theorem watches_begin {v : Server} (h : Begins v i c) :
    Watches i c (v.world.hub.userOf c) (Recorded.begin v) := by
  obtain ⟨t, ht, hahead⟩ := h
  refine ⟨⟨rfl, rfl, List.nil_sublist _, ?_, List.Pairwise.nil, List.nodup_nil, ?_, ?_⟩,
    t, ht, .ahead t hahead rfl rfl⟩
  · exact fun e he => absurd he List.not_mem_nil
  · exact fun m hm => absurd hm List.not_mem_nil
  · exact fun m hm => absurd hm List.not_mem_nil

/-- Every step of the run keeps the record. -/
theorem watches_step (hi : Watches i c u s) (hG : DrainDbUp i s a)
    (h : recordedStep i s a = some s') : Watches i c u s' := by
  obtain ⟨v, hstep, rfl⟩ := Option.map_eq_some_iff.mp h
  obtain ⟨th, hth, hat⟩ := hi.place
  cases step_cases hstep with
  | dm call => exact ⟨hi.sound, th, getElem?_spawned _ hth, hat⟩
  | connect d _ => exact ⟨hi.sound, th, getElem?_spawned _ hth, hat⟩
  | ack readerID call => exact ⟨hi.sound, th, getElem?_spawned _ hth, hat⟩
  | run j env t w t' new hj hs =>
      simp only [hj]
      by_cases hij : j = i
      · -- the drain's own step
        subst hij
        rw [hth] at hj
        cases hj
        rw [if_pos rfl]
        obtain ⟨hpending, hupdate⟩ := hG rfl
        obtain ⟨hsound, hat'⟩ := recorded_own hi.sound hat hs hpending hupdate
        exact ⟨hsound, t', getElem?_moved_self hth, hat'⟩
      · rw [if_neg hij]
        exact ⟨hi.sound.noted hs, th, getElem?_moved_ne t' new hij hth,
          hat.congr hs.grows.users rfl rfl rfl⟩
  | activate sub => exact ⟨hi.sound.quiet rfl rfl, th, hth, hat⟩
  | pumpWrite d ok f rest _ _ =>
      have husers := popHub_userOf s.server.world.hub d
      exact ⟨hi.sound.same husers rfl rfl, th, hth, hat.congr husers rfl rfl rfl⟩
  | pumpStop d _ => exact ⟨hi.sound, th, hth, hat⟩

/-- The record is kept from the connection's start on. -/
theorem watches_of_reach {v : Server} (h : Begins v i c)
    (hreach : Reach (recordedStep i) (DrainDbUp i) (Recorded.begin v) s) :
    Watches i c (v.world.hub.userOf c) s :=
  Reach.invariant (fun _ _ _ hi hG hstep => watches_step hi hG hstep) hreach (watches_begin h)

/-- **THE RECORD AT THE END IS RIGHT EXACTLY IF EVERY `Send` WENT THROUGH.** -/
theorem marksExactly_iff_of_watches (hi : Watches i c u s)
    (hlive : s.server.threads[i]? = some (.live c)) :
    MarksExactly u s.server.world s.record ↔ ∀ e ∈ s.record.results, e.2 = true := by
  obtain ⟨th, hth, hat⟩ := hi.place
  rw [hlive] at hth
  cases hth
  cases hat with
  | ahead _ ht => exact False.elim ht
  | ended _ ht => exact False.elim ht
  | returned hresults hmarked =>
      have hids : s.record.marked = s.record.results.map fun e => e.1.message.id := by
        rw [hmarked, ← hresults, rowIds, List.map_map]
        rfl
      have hnodup : (s.record.results.map fun e => e.1.message.id).Nodup := by
        rw [← hids, hmarked]
        exact hi.sound.nodup
      constructor
      · -- every row tried is marked, so the record is right only if it was enqueued
        intro hexact e he
        have hin : e.1.message.id ∈ s.record.marked := by
          rw [hids]
          exact List.mem_map_of_mem he
        obtain ⟨row, hrow, hid⟩ := (hexact.marked _).mp hin
        rw [← List.inj_on_of_nodup_map hnodup hrow he hid]
      · intro hall
        refine ⟨?_, hi.sound.frames, ?_, hi.sound.queued, hi.sound.receiver, hi.sound.status⟩
        · intro id
          rw [hids, List.mem_map]
          constructor
          · rintro ⟨⟨row, ok⟩, he, rfl⟩
            have hok : ok = true := hall _ he
            subst hok
            exact ⟨row, he, rfl⟩
          · rintro ⟨row, hrow, rfl⟩
            exact ⟨_, hrow, rfl⟩
        · rw [hresults]
          exact hi.sound.created

/-! ## The runs in which every `Send` of the drain goes through -/

/-- The `Send` of a drain has found the queue full. -/
def Thread.evicting : Thread → Prop
  | .send (.drain _ _ _ _) (.evict _) => True
  | _ => False

/-- A `Send` whose queue has room does not get to evict. -/
theorem not_evicting_of_step (h : ThreadStep w env t w' t' new)
    (harrives : arrives w.hub t = true) : ¬ t'.evicting := by
  intro he
  cases h with
  | quiet hdb hhub haddr hq => cases hq <;> exact he
  | sendGoto k pc pc' hub hs =>
      cases k with
      | drain d v row rest =>
          cases hs with
          | found e hd => exact he
          | full e hopen hfull =>
              exact absurd (of_decide_eq_true harrives).2 (Nat.not_lt.mpr hfull)
      | _ => exact he
  | sendReturned k pc hub ok hs => cases k <;> cases ok <;> exact he
  | acked readerID call hok =>
      rw [ackNext] at he
      split at he <;> exact he
  | _ => exact he

/-- **WHAT IS TAKEN DOWN IS A `Send` THAT WENT THROUGH.** -/
theorem results_of_step (h : ThreadStep w env t w' t' new)
    (harrives : arrives w.hub t = true) (hnot : ¬ t.evicting)
    {e : PendingMessage × Bool} (he : e ∈ (r.note w w' env t).results) :
    e ∈ r.results ∨ e.2 = true := by
  cases h with
  | sendGoto k pc pc' hub hs =>
      cases k with
      | drain d v row rest =>
          change SendStep w.hub v (drainFrame row) pc hub _ at hs
          rw [note_send r env d rest hs, outcome, List.append_nil] at he
          exact Or.inl he
      | _ => exact Or.inl he
  | sendReturned k pc hub ok hs =>
      cases k with
      | drain d v row rest =>
          change SendStep w.hub v (drainFrame row) pc hub _ at hs
          rw [note_send r env d rest hs] at he
          rcases List.mem_append.mp he with hold | hnew
          · exact Or.inl hold
          · rw [List.mem_singleton.mp hnew]
            right
            cases hs with
            | offline hno =>
                rw [arrives, hno] at harrives
                cases harrives
            | sent e ch hch => rfl
            | panic e hclosed =>
                rw [(of_decide_eq_true harrives).1] at hclosed
                cases hclosed
            | evict e => exact absurd trivial hnot
      | _ => exact Or.inl he
  | quiet hdb hhub haddr hq => cases hq <;> exact Or.inl he
  | _ => exact Or.inl he

/-- Every `Send` so far went through. -/
structure Arrived (i : Nat) (s : Recorded) : Prop where
  results : ∀ e ∈ s.record.results, e.2 = true
  place : ∃ t, s.server.threads[i]? = some t ∧ ¬ t.evicting

theorem arrived_begin {v : Server} (h : Begins v i c) : Arrived i (Recorded.begin v) := by
  obtain ⟨t, ht, hahead⟩ := h
  refine ⟨fun e he => absurd he List.not_mem_nil, t, ht, ?_⟩
  intro he
  cases t with
  | send k pc => exact hahead
  | _ => exact he

/-- Every step that arrives keeps the drain arriving. -/
theorem arrived_step (hi : Arrived i s) (hG : DrainArrives i s a)
    (h : recordedStep i s a = some s') : Arrived i s' := by
  obtain ⟨v, hstep, rfl⟩ := Option.map_eq_some_iff.mp h
  obtain ⟨th, hth, hnot⟩ := hi.place
  cases step_cases hstep with
  | dm call => exact ⟨hi.results, th, getElem?_spawned _ hth, hnot⟩
  | connect d _ => exact ⟨hi.results, th, getElem?_spawned _ hth, hnot⟩
  | ack readerID call => exact ⟨hi.results, th, getElem?_spawned _ hth, hnot⟩
  | run j env t w t' new hj hs =>
      simp only [hj]
      by_cases hij : j = i
      · subst hij
        rw [hth] at hj
        cases hj
        rw [if_pos rfl]
        have harrives : arrives s.server.world.hub th = true := hG.2 rfl th hth
        refine ⟨?_, t', getElem?_moved_self hth, not_evicting_of_step hs harrives⟩
        intro e he
        rcases results_of_step hs harrives hnot he with hold | htrue
        · exact hi.results e hold
        · exact htrue
      · rw [if_neg hij]
        exact ⟨hi.results, th, getElem?_moved_ne t' new hij hth, hnot⟩
  | activate sub => exact ⟨hi.results, hi.place⟩
  | pumpWrite d ok f rest _ _ => exact ⟨hi.results, hi.place⟩
  | pumpStop d _ => exact ⟨hi.results, hi.place⟩

/-- The drain arrives all along a guarded run. -/
theorem arrived_of_reach {v : Server} (h : Begins v i c)
    (hreach : Reach (recordedStep i) (DrainArrives i) (Recorded.begin v) s) : Arrived i s :=
  Reach.invariant (fun _ _ _ hi hG hstep => arrived_step hi hG hstep) hreach (arrived_begin h)

/-- **THE DRAIN MARKS EXACTLY WHAT IT DELIVERED, IF ITS `Send`s GO THROUGH**: in every run
    in which they find a client with room in an open channel, whatever the other threads
    do. -/
theorem drain_marks_exactly (v : Server) (i : Nat) (c : ClientId) (h : Begins v i c)
    (s : Recorded) (hreach : Reach (recordedStep i) (DrainArrives i) (Recorded.begin v) s)
    (hlive : s.server.threads[i]? = some (.live c)) :
    MarksExactly (v.world.hub.userOf c) s.server.world s.record := by
  have hwatches := watches_of_reach h (Reach.weaken (fun _ _ hG => hG.1) hreach)
  exact (marksExactly_iff_of_watches hwatches hlive).mpr (arrived_of_reach h hreach).results

/-! ## Alice connects -/

/-- Alice's connection has just been accepted. -/
def aliceReturns : Server :=
  { start threeUsers oneUser with threads := [.connRegister 0], conns := [0] }

/-- Is the connection of `c` up? -/
def Thread.isLive (c : ClientId) : Thread → Bool
  | .live d => decide (d = c)
  | _ => false

theorem live_of_isLive {ts : List Thread} {i : Nat} (h : (ts[i]?).any (Thread.isLive c) = true) :
    ts[i]? = some (.live c) := by
  cases hget : ts[i]? with
  | none =>
      rw [hget] at h
      cases h
  | some t =>
      rw [hget] at h
      cases t with
      | live d => rw [of_decide_eq_true (show decide (d = c) = true from h)]
      | _ => cases h

/-- Bob's message, stored before the selection, is enqueued and marked. -/
theorem drain_marks_exactly_bobs : ∃ s : Recorded,
    s.record.marked = [⟨20⟩] ∧ MarksExactly ⟨1⟩ s.server.world s.record := by
  obtain ⟨s, hreach, hlive, hmarked⟩ :=
    exists_reach_of_replayGuarded (recordedStep 0) (DrainArrives 0)
      (Recorded.begin aliceReturns)
      (.dm bobsCall :: List.replicate 3 (.run 1 fineEnv) ++ List.replicate 10 (.run 0 fineEnv))
      (fun s => (s.server.threads[0]?).any (Thread.isLive 0) = true ∧
        s.record.marked = [⟨20⟩])
      (by decide +kernel)
  exact ⟨s, hmarked, drain_marks_exactly aliceReturns 0 0 ⟨_, rfl, rfl⟩ s hreach
    (live_of_isLive hlive)⟩

/-- Alice's other connection takes the entry of the map and is gone before bob writes.
    The `Send` of the drain finds nobody, and the message is marked all the same. -/
theorem missed_yet_marked : ¬ ∀ (v : Server) (i : Nat) (c : ClientId), Begins v i c →
    ∀ s, Reach (recordedStep i) (DrainDbUp i) (Recorded.begin v) s →
      s.server.threads[i]? = some (.live c) →
      MarksExactly (v.world.hub.userOf c) s.server.world s.record := by
  intro hall
  obtain ⟨s, hreach, hlive, hmarked, hresults⟩ :=
    exists_reach_of_replayGuarded (recordedStep 0) (DrainDbUp 0) (Recorded.begin aliceReturns)
      ([.run 0 fineEnv, .connect 1] ++ List.replicate 7 (.run 1 fineEnv) ++ [.dm bobsCall] ++
        List.replicate 3 (.run 3 fineEnv) ++ List.replicate 8 (.run 0 fineEnv))
      (fun s => (s.server.threads[0]?).any (Thread.isLive 0) = true ∧
        s.record.marked = [⟨20⟩] ∧ s.record.results.map Prod.snd = [false])
      (by decide +kernel)
  have hexact := hall aliceReturns 0 0 ⟨_, rfl, rfl⟩ s hreach (live_of_isLive hlive)
  have hin : (⟨20⟩ : UUID) ∈ s.record.marked := by
    rw [hmarked]
    exact List.mem_singleton.mpr rfl
  obtain ⟨row, hrow, -⟩ := (hexact.marked _).mp hin
  have htrue : true ∈ s.record.results.map Prod.snd := List.mem_map_of_mem hrow
  rw [hresults] at htrue
  cases List.mem_singleton.mp htrue

end PeerServer
