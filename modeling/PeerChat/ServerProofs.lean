import PeerChat.TransitionProofs
import PeerChat.ThreadPoolProofs
import PeerChat.HandlerProofs

/-! # One server instance, step by step

    The handlers as threads that interleave: every database statement, every
    critical section of the hub and of the router, and every channel send is a
    step of its own, and any thread may take the next one.

    - a `HandleDM` call: find the chat, create it, insert the row, `hub.Send`,
      publish or mark 'delivered', `hub.Send` the ack;
    - a connection: `Register`, the presence key, `Subscribe`, the pending
      snapshot, `hub.Send` and mark row by row, then its pumps, and at the end
      `Unregister`, the presence key, `Unsubscribe`;
    - the goroutine that forwards a subscription's payloads to the hub;
    - a `HandleAck` call: the update, `hub.Send`, publish.

    `running_alone` connects them to `runDM`: a `HandleDM` thread that nobody
    interrupts does what the handler does. -/

namespace PeerServer

open PeerEnv BufferedChan PeerHub PeerRouter PeerStore PeerFrame PeerRedis PeerWorld
open PeerHandler ThreadPool

/-- Whose `hub.Send` call it is, with what the call needs and what comes after. -/
inductive Kont where
  | dmLive (call : DmCall) (stored : Message)
  | dmAck (call : DmCall) (stored : Message)
  | drain (c : ClientId) (userID : UUID) (row : PendingMessage)
      (rest : List PendingMessage)
  | forward (sub : SubId) (userID : UUID) (payload : Frame)
  | ackNotify (senderID messageID : UUID)

/-- The program counters. -/
inductive Thread where
  | dmFind (call : DmCall)
  | dmCreate (call : DmCall)
  | dmInsert (call : DmCall) (chatID : UUID)
  | dmPublish (call : DmCall) (stored : Message)
  | dmMark (call : DmCall) (stored : Message)
  | connRegister (c : ClientId)
  | connOnline (c : ClientId)
  | connOpen (c : ClientId)
  | connFile (c : ClientId) (sub : SubId)
  | connPending (c : ClientId)
  | drain (c : ClientId) (rows : List PendingMessage)
  | drainMark (c : ClientId) (row : PendingMessage) (rest : List PendingMessage)
  | live (c : ClientId)
  | connOffline (c : ClientId)
  | connUnfile (c : ClientId)
  | connClose (sub : Option SubId)
  | forward (sub : SubId)
  | ackUpdate (readerID : UUID) (call : AckCall)
  | ackPublish (senderID messageID : UUID)
  | send (k : Kont) (pc : SendPc)
  | done

/-- The addressee of the `Send`. -/
def Kont.toID : Kont → UUID
  | .dmLive call _ => call.receiverID
  | .dmAck call _ => call.senderID
  | .drain _ userID _ _ => userID
  | .forward _ userID _ => userID
  | .ackNotify senderID _ => senderID

/-- `outbound` of `onConnect`. -/
def drainFrame (row : PendingMessage) : Frame :=
  .message row.senderUsername row.message.senderID row.message.body row.message.id
    row.message.createdAt

/-- The payload of the `Send`. -/
def Kont.data : Kont → Frame
  | .dmLive call stored => call.outbound stored
  | .dmAck call stored => call.ack stored
  | .drain _ _ row _ => drainFrame row
  | .forward _ _ payload => payload
  | .ackNotify _ messageID => .read messageID

/-- What the caller does once its `Send` has returned. -/
def Kont.resume : Kont → Bool → Thread
  | .dmLive call stored, true => .dmMark call stored
  | .dmLive call stored, false => .dmPublish call stored
  | .dmAck _ _, _ => .done
  -- the result of `hub.Send` is dropped
  | .drain c _ row rest, _ => .drainMark c row rest
  | .forward sub _ _, _ => .forward sub
  | .ackNotify _ _, true => .done
  | .ackNotify senderID messageID, false => .ackPublish senderID messageID

/-- One step of a thread: the world, the thread, and the threads it starts;
    `none` while it is blocked. -/
def stepThread (w : World) (env : Env) : Thread → Option (World × Thread × List Thread)
  | .dmFind call =>
      match w.db.findChat env call.senderID call.receiverID with
      | .ok chatID => some (w, .dmInsert call chatID, [])
      | .error .noRows => some (w, .dmCreate call, [])
      | .error _ => some (w, .done, [])
  | .dmCreate call =>
      match w.db.createChat env call.senderID call.receiverID with
      | .ok db => some ({ w with db := db }, .dmInsert call env.newChat, [])
      | .error _ => some (w, .done, [])
  | .dmInsert call chatID =>
      match w.db.insertMessage env chatID call.senderID call.body with
      | .ok (db, stored) =>
          some ({ w with
              db := db
              addressed := w.addressed ++ [(stored.id, call.receiverID)] },
            .send (.dmLive call stored) .lookup, [])
      | .error _ => some (w, .done, [])
  | .dmPublish call stored =>
      match w.publish env call.receiverID (call.outbound stored) with
      | some w => some (w, .send (.dmAck call stored) .lookup, [])
      | none => some (w, .done, [])
  | .dmMark call stored =>
      some (markDelivered w env stored.id, .send (.dmAck call stored) .lookup, [])
  | .connRegister c => some ({ w with hub := w.hub.register c }, .connOnline c, [])
  | .connOnline c =>
      some ({ w with redis := (w.redis.setOnline env (w.hub.userOf c)).getD w.redis },
        .connOpen c, [])
  | .connOpen c =>
      some ({ w with router := w.router.openSub (w.hub.userOf c) },
        .connFile c w.router.opened, [])
  | .connFile c sub =>
      some ({ w with router := w.router.file (w.hub.userOf c) sub }, .connPending c,
        [.forward sub])
  | .connPending c =>
      match w.db.getPendingMessages env (w.hub.userOf c) with
      | .ok rows => some (w, .drain c rows, [])
      | .error _ => some (w, .live c, [])
  | .drain c [] => some (w, .live c, [])
  | .drain c (row :: rest) =>
      some (w, .send (.drain c (w.hub.userOf c) row rest) .lookup, [])
  | .drainMark c row rest => some (markDelivered w env row.message.id, .drain c rest, [])
  -- the `readPump` ends
  | .live c => some ({ w with hub := w.hub.unregister c }, .connOffline c, [])
  | .connOffline c =>
      some ({ w with redis := (w.redis.setOffline env (w.hub.userOf c)).getD w.redis },
        .connUnfile c, [])
  | .connUnfile c =>
      some ({ w with router := w.router.unfile (w.hub.userOf c) },
        .connClose (w.router.subs (w.hub.userOf c)), [])
  | .connClose (some sub) => some ({ w with router := w.router.close sub }, .done, [])
  | .connClose none => some (w, .done, [])
  | .forward sub =>
      match (w.router.pubsub sub).inbox with
      | payload :: _ =>
          some ({ w with router := w.router.take sub },
            .send (.forward sub (w.router.pubsub sub).userID payload) .lookup, [])
      | [] => if (w.router.pubsub sub).closed then some (w, .done, []) else none
  | .ackUpdate _ call =>
      match w.db.updateMessageStatus env call.messageID .read with
      | .ok db =>
          match call.senderID with
          | some senderID =>
              some ({ w with db := db },
                .send (.ackNotify senderID call.messageID) .lookup, [])
          | none => some ({ w with db := db }, .done, [])
      | .error _ => some (w, .done, [])
  | .ackPublish senderID messageID =>
      some ((w.publish env senderID (.read messageID)).getD w, .done, [])
  | .send k pc =>
      let (hub, next) := stepSend w.hub k.toID k.data pc
      match next with
      | .goto pc => some ({ w with hub := hub }, .send k pc, [])
      | .returned ok => some ({ w with hub := hub }, k.resume ok, [])
  | .done => none

/-! ## The server -/

/-- A `writePump`. -/
inductive Pump where
  | notStarted
  | running
  | stopped
  deriving DecidableEq, Repr

/-- The socket of a connection: its pump, the frames written to it, and the
    frame its pump had taken when the write failed. -/
structure Socket where
  pump : Pump
  written : List Frame
  lost : List Frame

structure Server where
  world : World
  threads : List Thread
  sockets : ClientId → Socket
  /-- The connections that have been accepted; each has a client of its own. -/
  conns : List ClientId

/-- A server that has just started. -/
def start (db : Db) (who : ClientId → UUID × String) : Server :=
  ⟨World.start db who, [], fun _ => ⟨.notStarted, [], []⟩, []⟩

inductive Action where
  /-- A `HandleDM` call starts. -/
  | dm (call : DmCall)
  /-- A connection is accepted. -/
  | connect (c : ClientId)
  /-- A `HandleAck` call starts. -/
  | ack (readerID : UUID) (call : AckCall)
  /-- Thread `i` takes its next step. -/
  | run (i : Nat) (env : Env)
  /-- Redis has processed a SUBSCRIBE. -/
  | activate (sub : SubId)
  /-- A `writePump` takes a frame and writes it, or fails to. -/
  | pumpWrite (c : ClientId) (ok : Bool)
  /-- A `writePump` ends without a frame in hand: its ping failed, or its channel
      is closed and drained. -/
  | pumpStop (c : ClientId)

/-- `go client.writePump(conn)`, when `onConnect` has returned. -/
def startPump (sockets : ClientId → Socket) : Thread → ClientId → Socket
  | .live c => Function.update sockets c { sockets c with pump := .running }
  | _ => sockets

/-- The pump of `c` has the frame `f` in hand. -/
def Socket.took (so : Socket) (f : Frame) (ok : Bool) : Socket :=
  if ok then { so with written := so.written ++ [f] }
  else { so with pump := .stopped, lost := so.lost ++ [f] }

/-- The pump of `c` receives from the client's channel. -/
def popHub (h : Hub Frame) (c : ClientId) : Hub Frame := h.setChan c (h.chan c).tail

/-- One step of the server; after a panic the process is gone. -/
def step (s : Server) (a : Action) : Option Server :=
  if s.world.hub.panic.isSome then none
  else match a with
    | .dm call => some { s with threads := s.threads ++ [.dmFind call] }
    | .connect c =>
        if c ∈ s.conns then none
        else some { s with
          threads := s.threads ++ [.connRegister c], conns := c :: s.conns }
    | .ack readerID call =>
        some { s with threads := s.threads ++ [.ackUpdate readerID call] }
    | .run i env =>
        match s.threads[i]? with
        | none => none
        | some t =>
            match stepThread s.world env t with
            | none => none
            | some (w, t', new) => some { s with
                world := w
                threads := moved s.threads i t' new
                sockets := startPump s.sockets t' }
    | .activate sub =>
        some { s with
          world := { s.world with router := s.world.router.activate sub } }
    | .pumpWrite c ok =>
        match (s.sockets c).pump, (s.world.hub.chan c).buf with
        | .running, f :: _ => some { s with
            world := { s.world with hub := popHub s.world.hub c }
            sockets := Function.update s.sockets c ((s.sockets c).took f ok) }
        | _, _ => none
    | .pumpStop c =>
        match (s.sockets c).pump with
        | .running => some { s with
            sockets := Function.update s.sockets c { s.sockets c with pump := .stopped } }
        | _ => none

/-- Everything succeeds, and the identifiers are 10 for a chat and 20 for a
    message. -/
def fineEnv : Env := Env.fine ⟨10⟩ ⟨20⟩ 1

/-- Alice's connection is thread 0 and its forwarder thread 1: `onConnect` runs to
    its end. -/
def aliceConnects : List Action := .connect 0 :: List.replicate 6 (.run 0 fineEnv)

/-- Bob writes to Alice. -/
def bobsCall : DmCall := ⟨⟨2⟩, "bob", ⟨1⟩, "hi", "x"⟩

/-! ## What one step of a thread can do -/

/-- The steps that touch neither the tables nor the hub. -/
inductive Quiet (w : World) : Thread → Thread → List Thread → Prop where
  | notFound (call : DmCall) : Quiet w (.dmFind call) (.dmCreate call) []
  | findFailed (call : DmCall) : Quiet w (.dmFind call) .done []
  | createFailed (call : DmCall) : Quiet w (.dmCreate call) .done []
  | insertFailed (call : DmCall) (chatID : UUID) :
      Quiet w (.dmInsert call chatID) .done []
  | published (call : DmCall) (stored : Message) :
      Quiet w (.dmPublish call stored) (.send (.dmAck call stored) .lookup) []
  | publishFailed (call : DmCall) (stored : Message) :
      Quiet w (.dmPublish call stored) .done []
  | online (c : ClientId) : Quiet w (.connOnline c) (.connOpen c) []
  | opened (c : ClientId) (sub : SubId) : Quiet w (.connOpen c) (.connFile c sub) []
  | filed (c : ClientId) (sub : SubId) :
      Quiet w (.connFile c sub) (.connPending c) [.forward sub]
  | drained (c : ClientId) : Quiet w (.drain c []) (.live c) []
  | drainNext (c : ClientId) (row : PendingMessage) (rest : List PendingMessage) :
      Quiet w (.drain c (row :: rest))
        (.send (.drain c (w.hub.userOf c) row rest) .lookup) []
  | offline (c : ClientId) : Quiet w (.connOffline c) (.connUnfile c) []
  | unfiled (c : ClientId) (sub : Option SubId) :
      Quiet w (.connUnfile c) (.connClose sub) []
  | closed (sub : Option SubId) : Quiet w (.connClose sub) .done []
  | forwarded (sub : SubId) (userID : UUID) (payload : Frame) :
      Quiet w (.forward sub) (.send (.forward sub userID payload) .lookup) []
  | forwardEnded (sub : SubId) : Quiet w (.forward sub) .done []
  | ackFailed (readerID : UUID) (call : AckCall) :
      Quiet w (.ackUpdate readerID call) .done []
  | ackPublished (senderID messageID : UUID) :
      Quiet w (.ackPublish senderID messageID) .done []

/-- Where a `HandleAck` call goes after its update. -/
def ackNext (call : AckCall) : Thread :=
  match call.senderID with
  | some senderID => .send (.ackNotify senderID call.messageID) .lookup
  | none => .done

/-- **The thread step, case by case**, with everything the step has checked. -/
inductive ThreadStep (w : World) (env : Env) : Thread → World → Thread → List Thread → Prop
  where
  | quiet {t t' : Thread} {w' : World} {new : List Thread} (hdb : w'.db = w.db)
      (hhub : w'.hub = w.hub) (haddr : w'.addressed = w.addressed)
      (hq : Quiet w t t' new) : ThreadStep w env t w' t' new
  | found (call : DmCall) (chatID : UUID)
      (h : w.db.findChat env call.senderID call.receiverID = .ok chatID) :
      ThreadStep w env (.dmFind call) w (.dmInsert call chatID) []
  | created (call : DmCall) (db : Db)
      (h : w.db.createChat env call.senderID call.receiverID = .ok db) :
      ThreadStep w env (.dmCreate call) { w with db := db }
        (.dmInsert call env.newChat) []
  | stored (call : DmCall) (chatID : UUID) (db : Db) (stored : Message)
      (h : w.db.insertMessage env chatID call.senderID call.body = .ok (db, stored)) :
      ThreadStep w env (.dmInsert call chatID)
        { w with
          db := db, addressed := w.addressed ++ [(stored.id, call.receiverID)] }
        (.send (.dmLive call stored) .lookup) []
  | sendGoto (k : Kont) (pc pc' : SendPc) (h : Hub Frame)
      (hs : SendStep w.hub k.toID k.data pc h (.goto pc')) :
      ThreadStep w env (.send k pc) { w with hub := h } (.send k pc') []
  | sendReturned (k : Kont) (pc : SendPc) (h : Hub Frame) (ok : Bool)
      (hs : SendStep w.hub k.toID k.data pc h (.returned ok)) :
      ThreadStep w env (.send k pc) { w with hub := h } (k.resume ok) []
  | marked (call : DmCall) (stored : Message) :
      ThreadStep w env (.dmMark call stored) (markDelivered w env stored.id)
        (.send (.dmAck call stored) .lookup) []
  | drainMarked (c : ClientId) (row : PendingMessage) (rest : List PendingMessage) :
      ThreadStep w env (.drainMark c row rest) (markDelivered w env row.message.id)
        (.drain c rest) []
  | registered (c : ClientId) :
      ThreadStep w env (.connRegister c) { w with hub := w.hub.register c }
        (.connOnline c) []
  | pending (c : ClientId) (rows : List PendingMessage)
      (h : w.db.getPendingMessages env (w.hub.userOf c) = .ok rows) :
      ThreadStep w env (.connPending c) w (.drain c rows) []
  | pendingFailed (c : ClientId) (h : env.ok .pending = false) :
      ThreadStep w env (.connPending c) w (.live c) []
  | ended (c : ClientId) :
      ThreadStep w env (.live c) { w with hub := w.hub.unregister c } (.connOffline c) []
  | acked (readerID : UUID) (call : AckCall) (h : env.ok .updateStatus = true) :
      ThreadStep w env (.ackUpdate readerID call)
        { w with db := w.db.setStatus call.messageID .read } (ackNext call) []

/-- **WHAT A STEP OF A GOROUTINE DOES**, statement by statement. -/
theorem threadStep_of_stepThread {w w' : World} {env : Env} {t t' : Thread}
    {new : List Thread} (h : stepThread w env t = some (w', t', new)) :
    ThreadStep w env t w' t' new := by
  cases t with
  | dmFind call =>
      simp only [stepThread] at h
      split at h
      · rename_i chatID hf
        cases h
        exact .found call chatID hf
      · cases h
        exact .quiet rfl rfl rfl (.notFound call)
      · cases h
        exact .quiet rfl rfl rfl (.findFailed call)
  | dmCreate call =>
      simp only [stepThread] at h
      split at h
      · rename_i db hc
        cases h
        exact .created call db hc
      · cases h
        exact .quiet rfl rfl rfl (.createFailed call)
  | dmInsert call chatID =>
      simp only [stepThread] at h
      split at h
      · rename_i db stored hi
        cases h
        exact .stored call chatID db stored hi
      · cases h
        exact .quiet rfl rfl rfl (.insertFailed call chatID)
  | dmPublish call stored =>
      simp only [stepThread] at h
      split at h
      · rename_i w₁ hp
        cases h
        obtain ⟨hdb, hhub, haddr, -⟩ := publish_some hp
        exact .quiet hdb hhub haddr (.published call stored)
      · cases h
        exact .quiet rfl rfl rfl (.publishFailed call stored)
  | dmMark call stored =>
      cases h
      exact .marked call stored
  | connRegister c =>
      cases h
      exact .registered c
  | connOnline c =>
      cases h
      exact .quiet rfl rfl rfl (.online c)
  | connOpen c =>
      cases h
      exact .quiet rfl rfl rfl (.opened c _)
  | connFile c sub =>
      cases h
      exact .quiet rfl rfl rfl (.filed c sub)
  | connPending c =>
      simp only [stepThread] at h
      split at h
      · rename_i rows hr
        cases h
        exact .pending c rows hr
      · rename_i e hr
        cases h
        refine .pendingFailed c ?_
        simp only [Db.getPendingMessages] at hr
        split at hr
        · cases hr
        · rename_i hok
          exact Bool.eq_false_iff.mpr hok
  | drain c rows =>
      cases rows with
      | nil =>
          cases h
          exact .quiet rfl rfl rfl (.drained c)
      | cons row rest =>
          cases h
          exact .quiet rfl rfl rfl (.drainNext c row rest)
  | drainMark c row rest =>
      cases h
      exact .drainMarked c row rest
  | live c =>
      cases h
      exact .ended c
  | connOffline c =>
      cases h
      exact .quiet rfl rfl rfl (.offline c)
  | connUnfile c =>
      cases h
      exact .quiet rfl rfl rfl (.unfiled c _)
  | connClose sub =>
      cases sub with
      | some sub =>
          cases h
          exact .quiet rfl rfl rfl (.closed _)
      | none =>
          cases h
          exact .quiet rfl rfl rfl (.closed _)
  | forward sub =>
      simp only [stepThread] at h
      split at h
      · cases h
        exact .quiet rfl rfl rfl (.forwarded sub _ _)
      · split at h
        · cases h
          exact .quiet rfl rfl rfl (.forwardEnded sub)
        · cases h
  | ackUpdate readerID call =>
      rcases updateMessageStatus_cases w.db env call.messageID .read with ⟨hok, hu⟩ |
        ⟨-, hu⟩
      · have hnext := ThreadStep.acked (w := w) readerID call hok
        rw [ackNext] at hnext
        simp only [stepThread, hu] at h
        split at h
        · rename_i senderID hs
          cases h
          rw [hs] at hnext
          exact hnext
        · rename_i hs
          cases h
          rw [hs] at hnext
          exact hnext
      · simp only [stepThread, hu] at h
        cases h
        exact .quiet rfl rfl rfl (.ackFailed readerID call)
  | ackPublish senderID messageID =>
      cases h
      cases hp : w.publish env senderID (.read messageID) with
      | none => exact .quiet rfl rfl rfl (.ackPublished senderID messageID)
      | some w₁ =>
          obtain ⟨hdb, hhub, haddr, -⟩ := publish_some hp
          exact .quiet hdb hhub haddr (.ackPublished senderID messageID)
  | send k pc =>
      have hs := stepSend_sendStep w.hub k.toID k.data pc
      simp only [stepThread] at h
      cases hn : stepSend w.hub k.toID k.data pc with
      | mk hub next =>
          rw [hn] at hs h
          cases next with
          | goto pc' =>
              cases h
              exact .sendGoto k pc pc' hub hs
          | returned ok =>
              cases h
              exact .sendReturned k pc hub ok hs
  | done => cases h

/-! ## What one step of the server can do -/

inductive Stepped (s : Server) : Action → Server → Prop where
  | dm (call : DmCall) : Stepped s (.dm call) { s with threads := s.threads ++ [.dmFind call] }
  | connect (c : ClientId) (hc : c ∉ s.conns) : Stepped s (.connect c)
      { s with threads := s.threads ++ [.connRegister c], conns := c :: s.conns }
  | ack (readerID : UUID) (call : AckCall) : Stepped s (.ack readerID call)
      { s with threads := s.threads ++ [.ackUpdate readerID call] }
  | run (i : Nat) (env : Env) (t : Thread) (w : World) (t' : Thread) (new : List Thread)
      (hi : s.threads[i]? = some t) (ht : ThreadStep s.world env t w t' new) :
      Stepped s (.run i env) { s with
        world := w
        threads := moved s.threads i t' new
        sockets := startPump s.sockets t' }
  | activate (sub : SubId) : Stepped s (.activate sub)
      { s with world := { s.world with router := s.world.router.activate sub } }
  | pumpWrite (c : ClientId) (ok : Bool) (f : Frame) (rest : List Frame)
      (hp : (s.sockets c).pump = .running) (hb : (s.world.hub.chan c).buf = f :: rest) :
      Stepped s (.pumpWrite c ok) { s with
        world := { s.world with hub := popHub s.world.hub c }
        sockets := Function.update s.sockets c ((s.sockets c).took f ok) }
  | pumpStop (c : ClientId) (hp : (s.sockets c).pump = .running) :
      Stepped s (.pumpStop c) { s with
        sockets := Function.update s.sockets c { s.sockets c with pump := .stopped } }

/-- **WHAT A STEP OF THE SERVER DOES**, action by action. -/
theorem step_cases {s t : Server} {a : Action} (h : step s a = some t) : Stepped s a t := by
  simp only [step] at h
  split at h
  · cases h
  · cases a with
    | dm call =>
        cases h
        exact .dm call
    | connect c =>
        simp only at h
        split at h
        · cases h
        · rename_i hc
          cases h
          exact .connect c hc
    | ack readerID call =>
        cases h
        exact .ack readerID call
    | run i env =>
        simp only at h
        split at h
        · cases h
        · rename_i t₀ hi
          split at h
          · cases h
          · rename_i w t' new ht
            cases h
            exact .run i env t₀ w t' new hi (threadStep_of_stepThread ht)
    | activate sub =>
        cases h
        exact .activate sub
    | pumpWrite c ok =>
        simp only at h
        split at h
        · rename_i f rest hp hb
          cases h
          exact .pumpWrite c ok f rest hp hb
        · cases h
    | pumpStop c =>
        simp only at h
        split at h
        · rename_i hp
          cases h
          exact .pumpStop c hp
        · cases h

/-- The status a thread's next step sets. -/
def Thread.sets : Thread → Option (UUID × Status)
  | .dmMark _ stored => some (stored.id, .delivered)
  | .drainMark _ row _ => some (row.message.id, .delivered)
  | .ackUpdate _ call => some (call.messageID, .read)
  | _ => none

/-- **WHERE A ROW COMES FROM**: it was there before the step, with the status it
    has or under the mark of the thread; or the thread has just stored it. -/
theorem row_of_step {w w' : World} {env : Env} {t t' : Thread} {new : List Thread}
    (h : ThreadStep w env t w' t' new) {m' : Message} (hm' : m' ∈ w'.db.messages.rows) :
    (∃ m ∈ w.db.messages.rows, m.id = m'.id ∧ m.chatID = m'.chatID ∧
      m.senderID = m'.senderID ∧
      (m'.status = m.status ∨ t.sets = some (m'.id, m'.status))) ∨
    (∃ call, t = .dmInsert call m'.chatID ∧ t' = .send (.dmLive call m') .lookup ∧
      m'.id ∉ w.db.messages.keys ∧ m'.status = .sent ∧ m'.senderID = call.senderID ∧
      w'.addressed = w.addressed ++ [(m'.id, call.receiverID)]) := by
  have hsame : w'.db.messages = w.db.messages → ∃ m ∈ w.db.messages.rows, m.id = m'.id ∧
      m.chatID = m'.chatID ∧ m.senderID = m'.senderID ∧
      (m'.status = m.status ∨ t.sets = some (m'.id, m'.status)) := by
    intro hmessages
    rw [hmessages] at hm'
    exact ⟨m', hm', rfl, rfl, rfl, Or.inl rfl⟩
  have hset : ∀ id st, t.sets = some (id, st) → m' ∈ (w.db.setStatus id st).messages.rows →
      ∃ m ∈ w.db.messages.rows, m.id = m'.id ∧ m.chatID = m'.chatID ∧
        m.senderID = m'.senderID ∧
        (m'.status = m.status ∨ t.sets = some (m'.id, m'.status)) := by
    intro id st hsets hin
    obtain ⟨m, hm, heq⟩ := mem_setStatus.mp hin
    refine ⟨m, hm, ?_⟩
    by_cases hid : m.id = id
    · rw [if_pos hid] at heq
      rw [heq, hsets]
      exact ⟨rfl, rfl, rfl, Or.inr (by rw [withStatus_id, withStatus_status, hid])⟩
    · rw [if_neg hid] at heq
      rw [heq]
      exact ⟨rfl, rfl, rfl, Or.inl rfl⟩
  cases h with
  | quiet hdb hhub haddr hq => exact Or.inl (hsame (by rw [hdb]))
  | created call db hc => exact Or.inl (hsame (createChat_ok hc).messages)
  | stored call chatID db stored hi =>
      obtain ⟨hrow, hst⟩ := insertMessage_ok hi
      change m' ∈ db.messages.rows at hm'
      rw [hst.messages] at hm'
      rcases List.mem_append.mp hm' with hold | hnew
      · exact Or.inl ⟨m', hold, rfl, rfl, rfl, Or.inl rfl⟩
      · rw [List.mem_singleton.mp hnew]
        refine Or.inr ⟨call, ?_, rfl, hst.fresh, hst.sent, ?_, rfl⟩
        · rw [hrow]
          rfl
        · rw [hrow]
          rfl
  | marked call stored =>
      rcases markDelivered_db w env stored.id with hdb | hdb
      · exact Or.inl (hsame (by rw [hdb]))
      · rw [hdb] at hm'
        exact Or.inl (hset stored.id .delivered rfl hm')
  | drainMarked c row rest =>
      rcases markDelivered_db w env row.message.id with hdb | hdb
      · exact Or.inl (hsame (by rw [hdb]))
      · rw [hdb] at hm'
        exact Or.inl (hset row.message.id .delivered rfl hm')
  | acked readerID call hok => exact Or.inl (hset call.messageID .read rfl hm')
  | _ => exact Or.inl (hsame rfl)

@[simp] theorem popHub_clients (h : Hub Frame) (c : ClientId) :
    (popHub h c).clients = h.clients := rfl

@[simp] theorem popHub_log (h : Hub Frame) (c : ClientId) : (popHub h c).log = h.log := rfl

@[simp] theorem popHub_userOf (h : Hub Frame) (c d : ClientId) :
    (popHub h c).userOf d = h.userOf d := setChan_userOf h c d _

/-- `writePump` closes no channel. -/
theorem popHub_closed (h : Hub Frame) (c d : ClientId) :
    ((popHub h c).chan d).closed = (h.chan d).closed := by
  by_cases hd : d = c
  · rw [hd, popHub, setChan_chan_self]
    rfl
  · rw [popHub, setChan_chan_ne h _ hd]

/-! ## A `HandleDM` thread that nobody interrupts -/

/-- The thread goes on with nothing in between its steps. -/
def Alone (env : Env) : World × Thread → World × Thread → Prop :=
  Relation.ReflTransGen fun a b => ∃ new, stepThread a.1 env a.2 = some (b.1, b.2, new)

/-- A goroutine that runs alone does so after its first step. -/
theorem Alone.step {env : Env} {w w' : World} {t t' : Thread} {new : List Thread}
    {b : World × Thread} (h : stepThread w env t = some (w', t', new))
    (hrest : Alone env (w', t') b) : Alone env (w, t) b :=
  Relation.ReflTransGen.head ⟨new, h⟩ hrest

/-- A whole `Send`. -/
theorem Alone.send {env : Env} {w : World} {k : Kont} {b : World × Thread}
    (hrest : Alone env ((w.send k.toID k.data).1, k.resume (w.send k.toID k.data).2) b) :
    Alone env (w, .send k .lookup) b := by
  simp only [World.send, Hub.send] at hrest
  cases hc : w.hub.clients k.toID with
  | none =>
      simp only [hc] at hrest
      exact Alone.step (by simp only [stepThread, stepSend, hc]; rfl) hrest
  | some c =>
      simp only [hc] at hrest
      refine Alone.step (show stepThread w env (.send k .lookup)
        = some (w, .send k (.select c), []) by simp only [stepThread, stepSend, hc]) ?_
      cases ho : (w.hub.chan c).offer k.data with
      | sent ch =>
          simp only [ho] at hrest
          exact Alone.step (by simp only [stepThread, stepSend, ho]; rfl) hrest
      | full =>
          simp only [ho] at hrest
          exact Alone.step (by simp only [stepThread, stepSend, ho]; rfl)
            (Alone.step rfl hrest)
      | panic =>
          simp only [ho] at hrest
          exact Alone.step (by simp only [stepThread, stepSend, ho]; rfl) hrest

/-- The delivery half. -/
theorem Alone.deliver (env : Env) (w : World) (call : DmCall) (stored : Message) :
    Alone env (w, .send (.dmLive call stored) .lookup)
      ((deliverDM w env call stored).1, .done) := by
  refine Alone.send ?_
  simp only [deliverDM, Kont.toID, Kont.data]
  cases hs : w.send call.receiverID (call.outbound stored) with
  | mk w₁ delivered =>
      cases delivered with
      | true =>
          exact Alone.step rfl (Alone.send Relation.ReflTransGen.refl)
      | false =>
          simp only [Kont.resume, Bool.false_eq_true, if_false]
          cases hp : w₁.publish env call.receiverID (call.outbound stored) with
          | none =>
              exact Alone.step (by simp only [stepThread, hp]; rfl)
                Relation.ReflTransGen.refl
          | some w₂ =>
              refine Alone.step (by simp only [stepThread, hp]; rfl) (Alone.send ?_)
              exact Relation.ReflTransGen.refl

/-- From the insert on, once `FindOrCreateChat` has turned `w₀` into `w`. -/
theorem Alone.insert {env : Env} {w₀ w : World} {call : DmCall} {chatID : UUID}
    (hs : storeDM w₀ env call = insertDM w env call chatID) :
    Alone env (w, .dmInsert call chatID) ((runDM w₀ env call).1, .done) := by
  rw [runDM, hs, insertDM]
  cases hi : w.db.insertMessage env chatID call.senderID call.body with
  | error e =>
      exact Alone.step (by simp only [stepThread, hi]; rfl) Relation.ReflTransGen.refl
  | ok p =>
      exact Alone.step (by simp only [stepThread, hi]; rfl) (Alone.deliver env _ call p.2)

/-- **THE THREAD IS THE HANDLER**: run without interruption it ends where
    `HandleDM` returns, in the world `HandleDM` leaves. -/
theorem running_alone (env : Env) (w : World) (call : DmCall) :
    Alone env (w, .dmFind call) ((runDM w env call).1, .done) := by
  cases hf : w.db.findChat env call.senderID call.receiverID with
  | ok chatID =>
      refine Alone.step (by simp only [stepThread, hf]; rfl) (Alone.insert (w := w) ?_)
      simp only [storeDM, Db.findOrCreateChat, hf]
  | error e =>
      cases e with
      | noRows =>
          refine Alone.step (show stepThread w env (.dmFind call)
            = some (w, .dmCreate call, []) by simp only [stepThread, hf]) ?_
          cases hc : w.db.createChat env call.senderID call.receiverID with
          | ok db =>
              refine Alone.step (by simp only [stepThread, hc]; rfl)
                (Alone.insert (w := { w with db := db }) ?_)
              simp only [storeDM, Db.findOrCreateChat, hf, hc]
          | error e =>
              simp only [runDM, storeDM, Db.findOrCreateChat, hf, hc]
              exact Alone.step (by simp only [stepThread, hc]; rfl)
                Relation.ReflTransGen.refl
      | _ =>
          simp only [runDM, storeDM, Db.findOrCreateChat, hf]
          exact Alone.step (by simp only [stepThread, hf]; rfl) Relation.ReflTransGen.refl

end PeerServer
