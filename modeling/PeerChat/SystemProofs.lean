import PeerChat.ClusterProofs
import PeerChat.ChatStoreProofs
import PeerChat.DispatchProofs
import PeerChat.MiddlewareProofs
import PeerChat.WebLimitProofs

/-! # The whole system — accounts, sessions, connections, handlers

    Any number of instances over one database and one Redis.  A client registers
    or logs in and is handed a token; with a token it opens connections and asks
    for histories; over a connection it sends payloads, and each starts a handler
    that runs statement by statement among all the others.

    The threads are those of `PeerServer`, of `PeerGroupRun` and of
    `PeerChatStore`; what is new is who may start them.  `dispatch_alone` connects
    a payload to `Dispatch`. -/

namespace PeerSystem

open PeerEnv PeerHub PeerRouter PeerStore PeerFrame PeerRedis PeerWorld PeerHandler PeerDispatch
open PeerAuth PeerCluster SignedToken Transition ThreadPool
open PeerWeb (maxMessageSize)

/-- What an instance is started with. -/
structure Setup (σ : Type) where
  handler : Handler σ
  jwt : Jwt
  fmt : Formats

variable {σ ι : Type}

/-- The tokens of the deployment. -/
def Setup.scheme (su : Setup σ) : Scheme Claims String String (Option (String × List UInt8)) :=
  su.jwt.scheme su.handler.lib

/-- A goroutine of an instance. -/
inductive Task where
  /-- Of a connection: its own, and the `HandleDM` and `HandleAck` calls it starts. -/
  | socket (t : PeerServer.Thread)
  | group (t : PeerGroupRun.Thread)
  /-- A `GET /messages` of the caller. -/
  | request (callerID : UUID) (r : PeerChatStore.Request)

/-- One step of a goroutine, with those it starts. -/
def stepTask (w : World) (env : Env) : Task → Option (World × Task × List Task)
  | .socket t =>
      match PeerServer.stepThread w env t with
      | none => none
      | some (w, t, new) => some (w, .socket t, new.map .socket)
  | .group t =>
      match PeerGroupRun.stepThread w.db w.hub env t with
      | none => none
      | some (db, hub, t) => some ({ w with db := db, hub := hub }, .group t, [])
  | .request callerID r =>
      match PeerChatStore.stepRequest w.db env r with
      | none => none
      | some (db, r) => some ({ w with db := db }, .request callerID r, [])

/-! ## A payload arrives -/

/-- The branch of a payload: the handlers that work on the tables start, the others are
    over at once. -/
def begins (fmt : Formats) (w : World) (env : Env) (senderID : UUID) (senderName : String)
    (raw : List UInt8) : Kind → World × List Task
  | .message =>
      match parseDM fmt senderID senderName raw with
      | .error _ => (w, [])
      | .ok call => (w, [.socket (.dmFind call)])
  | .groupMessage =>
      match parseGroupMessage fmt raw with
      | .error _ => (w, [])
      | .ok call => (w, [.group (.msgCheck senderID senderName call)])
  | .createGroup =>
      match parseCreateGroup raw with
      | .error _ => (w, [])
      | .ok name => (w, [.group (.create senderID name)])
  | .addMember =>
      match parseAddMember fmt raw with
      | .error _ => (w, [])
      | .ok (groupID, userID) => (w, [.group (.addCheck senderID groupID userID)])
  | .leaveGroup =>
      match parseLeaveGroup fmt raw with
      | .error _ => (w, [])
      | .ok groupID => (w, [.group (.leave senderID groupID)])
  | .ack =>
      match parseAck fmt raw with
      | .error _ => (w, [])
      | .ok call => (w, [.socket (.ackUpdate senderID call)])
  | .typing => (handleTyping fmt w env senderID senderName raw, [])
  | .presenceCheck => (handlePresenceCheck fmt w env senderID raw, [])
  | .ping => (handlePing w env senderID, [])
  | .webrtc => (handleRelay fmt w env senderID senderName raw, [])
  | .other => (w, [])

/-- `Dispatch`, up to the first statement of the handler it calls. -/
def receives (fmt : Formats) (w : World) (env : Env) (senderID : UUID) (senderName : String)
    (raw : List UInt8) : World × List Task :=
  match baseKind raw with
  | none => (w, [])
  | some kind =>
      if kind.limited then
        let (redis, allowed) := w.redis.allow newLimiter env senderID
        let w := { w with redis := redis }
        if allowed then begins fmt w env senderID senderName raw kind
        else ((w.send senderID .rateLimited).1, [])
      else begins fmt w env senderID senderName raw kind

/-! ## The machine -/

/-- The instances with their goroutines and the connections they have accepted, and every
    token that has been handed out. -/
structure System (ι : Type) extends Cluster ι where
  tasks : ι → List Task
  conns : ι → List ClientId
  issued : List (Claims × String)

/-- Instances that have just started over the store `db`. -/
def start (db : Db) (who : ι → ClientId → UUID × String) : System ι :=
  ⟨(PeerCluster.start db who).toCluster, fun _ => [], fun _ => [], []⟩

inductive Act (ι σ : Type) where
  | register (env : AuthEnv σ) (body : List UInt8)
  | login (env : AuthEnv σ) (body : List UInt8)
  /-- A `GET /messages`. -/
  | getMessages (i : ι) (now : Nat) (p : Presented) (partnerIDStr : String)
  /-- A `GET /ws`; `c` is the client it makes. -/
  | connect (i : ι) (now : Nat) (p : Presented) (c : ClientId)
  /-- The `readPump` of `c` hands a payload over; a longer one than `maxMessageSize` ends it
      instead. -/
  | payload (i : ι) (c : ClientId) (env : Env) (raw : List UInt8)
  | run (i : ι) (k : Nat) (env : Env)
  /-- Redis has processed a SUBSCRIBE. -/
  | activate (i : ι) (sub : SubId)
  /-- The `writePump` of `c` takes a frame. -/
  | write (i : ι) (c : ClientId)

/-- What the request of an action presents. -/
def Act.presents : Act ι σ → Option Presented
  | .getMessages _ _ p _ => some p
  | .connect _ _ p _ => some p
  | _ => none

/-- Has `onConnect` of `c` returned, and its `readPump` begun? -/
def isLive (c : ClientId) : Task → Bool
  | .socket (.live d) => d = c
  | _ => false

section Steps

variable [DecidableEq ι]

/-- Instance `i` has come to the world `w`, and its goroutines to `ts`. -/
def System.set (s : System ι) (i : ι) (w : World) (ts : List Task) : System ι :=
  { s with toCluster := s.toCluster.put i w, tasks := Function.update s.tasks i ts }

/-- The step of an instance that is up; `who` says whose every `*Client` is. -/
def stepOn (su : Setup σ) (who : ι → ClientId → UUID × String) (s : System ι) :
    Act ι σ → Option (System ι)
  | .register env body =>
      let (db, response) := su.handler.register s.db env body
      some { s with db := db, issued := s.issued ++ PeerAuth.issued env response.body }
  | .login env body =>
      let response := su.handler.login s.db env body
      some { s with issued := s.issued ++ PeerAuth.issued env response.body }
  | .getMessages i now p partnerIDStr =>
      match jwtAuth su.jwt su.handler.jwtSecret now p with
      | .error _ => some s
      | .ok (myID, _) =>
          match su.fmt.uuidParse partnerIDStr with
          | none => some s
          | some partnerID => some (s.set i (s.world i)
              (s.tasks i ++ [.request myID (.lookup (.find myID partnerID))]))
  | .connect i now p c =>
      match jwtAuth su.jwt su.handler.jwtSecret now p with
      | .error _ => some s
      | .ok user =>
          if user = who i c ∧ c ∉ s.conns i then
            some { s.set i (s.world i) (s.tasks i ++ [.socket (.connRegister c)]) with
              conns := Function.update s.conns i (c :: s.conns i) }
          else none
  | .payload i c env raw =>
      if (s.tasks i).any (isLive c) ∧ raw.length ≤ maxMessageSize then
        let (w, new) := receives su.fmt (s.world i) env (who i c).1 (who i c).2 raw
        some (s.set i w (s.tasks i ++ new))
      else none
  | .run i k env =>
      match (s.tasks i)[k]? with
      | none => none
      | some t =>
          match stepTask (s.world i) env t with
          | none => none
          | some (w, t', new) => some (s.set i w (moved (s.tasks i) k t' new))
  | .activate i sub =>
      some (s.set i { s.world i with router := (s.world i).router.activate sub } (s.tasks i))
  | .write i c =>
      some (s.set i { s.world i with hub := PeerServer.popHub (s.hub i) c } (s.tasks i))

/-- The instance an action is on. -/
def Act.on : Act ι σ → Option ι
  | .register _ _ => none
  | .login _ _ => none
  | .getMessages i _ _ _ => some i
  | .connect i _ _ _ => some i
  | .payload i _ _ _ => some i
  | .run i _ _ => some i
  | .activate i _ => some i
  | .write i _ => some i

/-- One step of the system; after a panic the instance is gone. -/
def step (su : Setup σ) (who : ι → ClientId → UUID × String) (s : System ι) (a : Act ι σ) :
    Option (System ι) :=
  if a.on.any fun i => (s.hub i).panic.isSome then none else stepOn su who s a

/-- **NOBODY ELSE HOLDS THE SECRET**: a token that is presented, and whose signature verifies,
    opens to nothing but the claims of a token that has been handed out. -/
def Unforged (su : Setup σ) (s : System ι) (a : Act ι σ) : Prop :=
  ∀ p ∈ a.presents, SignedToken.Unforged su.scheme su.handler.jwtSecret s.issued p.tokenStr

/-! ## What one step of the system can do -/

/-- **The step, case by case**, with everything it has checked. -/
inductive Stepped (su : Setup σ) (who : ι → ClientId → UUID × String) (s : System ι) :
    Act ι σ → System ι → Prop where
  | registered (env : AuthEnv σ) (body : List UInt8) :
      Stepped su who s (.register env body) { s with
        db := (su.handler.register s.db env body).1
        issued := s.issued ++ PeerAuth.issued env (su.handler.register s.db env body).2.body }
  | loggedIn (env : AuthEnv σ) (body : List UInt8) :
      Stepped su who s (.login env body) { s with
        issued := s.issued ++ PeerAuth.issued env (su.handler.login s.db env body).body }
  | refused (a : Act ι σ) (ha : a.presents.isSome = true) : Stepped su who s a s
  | asked (i : ι) (now : Nat) (p : Presented) (partnerIDStr : String) (myID : UUID)
      (name : String) (partnerID : UUID)
      (hp : jwtAuth su.jwt su.handler.jwtSecret now p = .ok (myID, name)) :
      Stepped su who s (.getMessages i now p partnerIDStr) (s.set i (s.world i)
        (s.tasks i ++ [.request myID (.lookup (.find myID partnerID))]))
  | connected (i : ι) (now : Nat) (p : Presented) (c : ClientId)
      (hp : jwtAuth su.jwt su.handler.jwtSecret now p = .ok (who i c)) :
      Stepped su who s (.connect i now p c)
        { s.set i (s.world i) (s.tasks i ++ [.socket (.connRegister c)]) with
          conns := Function.update s.conns i (c :: s.conns i) }
  | received (i : ι) (c : ClientId) (env : Env) (raw : List UInt8)
      (hlive : .socket (.live c) ∈ s.tasks i) (hfits : raw.length ≤ maxMessageSize) :
      Stepped su who s (.payload i c env raw)
        (s.set i (receives su.fmt (s.world i) env (who i c).1 (who i c).2 raw).1
          (s.tasks i ++ (receives su.fmt (s.world i) env (who i c).1 (who i c).2 raw).2))
  | ran (i : ι) (k : Nat) (env : Env) (t : Task) (w : World) (t' : Task) (new : List Task)
      (hk : (s.tasks i)[k]? = some t) (ht : stepTask (s.world i) env t = some (w, t', new)) :
      Stepped su who s (.run i k env) (s.set i w (moved (s.tasks i) k t' new))
  | activated (i : ι) (sub : SubId) : Stepped su who s (.activate i sub)
      (s.set i { s.world i with router := (s.world i).router.activate sub } (s.tasks i))
  | wrote (i : ι) (c : ClientId) : Stepped su who s (.write i c)
      (s.set i { s.world i with hub := PeerServer.popHub (s.hub i) c } (s.tasks i))

theorem isLive_iff {c : ClientId} {t : Task} : isLive c t = true ↔ t = .socket (.live c) := by
  constructor
  · intro h
    cases t with
    | socket t =>
        cases t with
        | live d => rw [of_decide_eq_true h]
        | _ => cases h
    | group t => cases h
    | request callerID r => cases h
  · rintro rfl
    exact decide_eq_true rfl

/-- **WHAT A STEP OF THE SYSTEM DOES**, action by action. -/
theorem step_cases {su : Setup σ} {who : ι → ClientId → UUID × String} {s s' : System ι}
    {a : Act ι σ} (h : step su who s a = some s') : Stepped su who s a s' := by
  rw [step] at h
  split at h
  · cases h
  · cases a with
    | register env body =>
        cases h
        exact .registered env body
    | login env body =>
        cases h
        exact .loggedIn env body
    | getMessages i now p partnerIDStr =>
        simp only [stepOn] at h
        split at h
        · cases h
          exact .refused _ rfl
        · rename_i myID name hp
          split at h
          · cases h
            exact .refused _ rfl
          · rename_i partnerID hpartner
            cases h
            exact .asked i now p partnerIDStr myID name partnerID hp
    | connect i now p c =>
        simp only [stepOn] at h
        split at h
        · cases h
          exact .refused _ rfl
        · rename_i user hp
          split at h
          · rename_i hc
            cases h
            exact .connected i now p c (by rw [hp, hc.1])
          · cases h
    | payload i c env raw =>
        simp only [stepOn] at h
        split at h
        · rename_i hread
          obtain ⟨t, ht, hlive⟩ := List.any_eq_true.mp hread.1
          cases h
          exact .received i c env raw (isLive_iff.mp hlive ▸ ht) hread.2
        · cases h
    | run i k env =>
        simp only [stepOn] at h
        split at h
        · cases h
        · rename_i t hk
          split at h
          · cases h
          · rename_i w t' new ht
            cases h
            exact .ran i k env t w t' new hk ht
    | activate i sub =>
        cases h
        exact .activated i sub
    | write i c =>
        cases h
        exact .wrote i c

end Steps

/-! ## A payload whose handler nobody interrupts -/

/-- A goroutine goes on with nothing in between its steps. -/
def Alone (env : Env) : World × Task → World × Task → Prop :=
  Relation.ReflTransGen fun a b => ∃ new, stepTask a.1 env a.2 = some (b.1, b.2, new)

/-- A connection's goroutine that runs alone is a task of the pool that does. -/
theorem Alone.socket {env : Env} {a b : World × PeerServer.Thread}
    (h : PeerServer.Alone env a b) : Alone env (a.1, .socket a.2) (b.1, .socket b.2) := by
  induction h with
  | refl => exact Relation.ReflTransGen.refl
  | tail _ hstep ih =>
      obtain ⟨new, hstep⟩ := hstep
      refine Relation.ReflTransGen.tail ih ⟨new.map .socket, ?_⟩
      simp only [stepTask, hstep]

/-- A group handler works on the tables and the hub; the rest of the world is as it was. -/
theorem Alone.group {env : Env} {a b : Db × Hub Frame × PeerGroupRun.Thread}
    (h : PeerGroupRun.Alone env a b) (w : World) :
    Alone env ({ w with db := a.1, hub := a.2.1 }, .group a.2.2)
      ({ w with db := b.1, hub := b.2.1 }, .group b.2.2) := by
  induction h with
  | refl => exact Relation.ReflTransGen.refl
  | tail _ hstep ih =>
      refine Relation.ReflTransGen.tail ih ⟨[], ?_⟩
      simp only [stepTask, hstep]

/-- The `HandleAck` thread is the handler. -/
theorem ack_alone (env : Env) (w : World) (readerID : UUID) (call : AckCall) :
    PeerServer.Alone env (w, .ackUpdate readerID call) ((runAck w env call).1, .done) := by
  rw [runAck]
  cases hu : w.db.updateMessageStatus env call.messageID .read with
  | error e =>
      exact PeerServer.Alone.step (by simp only [PeerServer.stepThread, hu]; rfl)
        Relation.ReflTransGen.refl
  | ok db =>
      cases hs : call.senderID with
      | none =>
          exact PeerServer.Alone.step (by simp only [PeerServer.stepThread, hu, hs]; rfl)
            Relation.ReflTransGen.refl
      | some senderID =>
          refine PeerServer.Alone.step (show PeerServer.stepThread w env (.ackUpdate readerID call)
            = some ({ w with db := db }, .send (.ackNotify senderID call.messageID) .lookup, [])
            by simp only [PeerServer.stepThread, hu, hs]) (PeerServer.Alone.send ?_)
          simp only [World.sendOrPublish, PeerServer.Kont.toID, PeerServer.Kont.data]
          cases hsend : World.send { w with db := db } senderID (.read call.messageID) with
          | mk w₁ delivered =>
              cases delivered with
              | true => exact Relation.ReflTransGen.refl
              | false =>
                  exact PeerServer.Alone.step (by simp only [PeerServer.stepThread]; rfl)
                    Relation.ReflTransGen.refl

/-- The handler has changed nothing but the tables and the hub. -/
structure OnlyStores (w w' : World) : Prop where
  router : w'.router = w.router
  redis : w'.redis = w.redis
  published : w'.published = w.published
  addressed : w'.addressed = w.addressed

/-- The store and the hub are all that has changed. -/
theorem OnlyStores.eq {w w' : World} (h : OnlyStores w w') :
    { w with db := w'.db, hub := w'.hub } = w' := by
  obtain ⟨db, hub, router, redis, published, addressed⟩ := w'
  obtain ⟨hrouter, hredis, hpublished, haddressed⟩ := h
  cases hrouter
  cases hredis
  cases hpublished
  cases haddressed
  rfl

/-- A `hub.Send` moves the hub only. -/
theorem OnlyStores.send {w w' : World} (h : OnlyStores w w') (u : UUID) (f : Frame) :
    OnlyStores w (w'.send u f).1 := ⟨h.router, h.redis, h.published, h.addressed⟩

theorem OnlyStores.refl (w : World) : OnlyStores w w := ⟨rfl, rfl, rfl, rfl⟩

/-- A fan-out moves the hub only, send by send. -/
theorem OnlyStores.fanOut {w : World} (senderID : UUID) (outbound : Frame) :
    ∀ (members : List GroupMemberInfo) (w' : World), OnlyStores w w' →
      OnlyStores w (fanOut w' senderID outbound members) := by
  intro members
  induction members with
  | nil => exact fun w' h => h
  | cons m members ih =>
      intro w' h
      rw [PeerHandler.fanOut]
      refine ih _ ?_
      split
      · exact h.send m.userID outbound
      · exact h

/-- The delivery of a group message moves the hub only. -/
theorem OnlyStores.deliverGroup {w w' : World} (h : OnlyStores w w') (env : Env)
    (senderID : UUID) (senderName : String) (call : GroupCall) (stored : GroupMessage) :
    OnlyStores w (deliverGroup w' env senderID senderName call stored).1 := by
  rw [PeerHandler.deliverGroup]
  split
  · exact h
  · exact (OnlyStores.fanOut _ _ _ w' h).send _ _

/-- `HandleGroupMessage` writes to the store and the hub. -/
theorem groupMessage_onlyStores (fmt : Formats) (w : World) (env : Env) (senderID : UUID)
    (senderName : String) (raw : List UInt8) :
    OnlyStores w (handleGroupMessage fmt w env senderID senderName raw).1 := by
  rw [handleGroupMessage]
  split
  · exact OnlyStores.refl w
  · split
    · exact OnlyStores.refl w
    · exact (OnlyStores.refl w).send _ _
    · split
      · exact OnlyStores.refl w
      · refine OnlyStores.deliverGroup ?_ env senderID senderName _ _
        exact ⟨rfl, rfl, rfl, rfl⟩

/-- `HandleCreateGroup` writes to the store and the hub. -/
theorem createGroup_onlyStores (w : World) (env : Env) (creatorID : UUID) (raw : List UInt8) :
    OnlyStores w (handleCreateGroup w env creatorID raw).1 := by
  rw [handleCreateGroup]
  split
  · exact OnlyStores.refl w
  · split
    · exact (OnlyStores.refl w).send _ _
    · exact OnlyStores.refl w
    · exact ⟨rfl, rfl, rfl, rfl⟩

/-- `HandleAddMember` writes to the store and the hub. -/
theorem addMember_onlyStores (fmt : Formats) (w : World) (env : Env) (adderID : UUID)
    (raw : List UInt8) : OnlyStores w (handleAddMember fmt w env adderID raw).1 := by
  rw [handleAddMember]
  split
  · exact OnlyStores.refl w
  · split
    · exact OnlyStores.refl w
    · exact (OnlyStores.refl w).send _ _
    · split
      · exact (OnlyStores.refl w).send _ _
      · exact ⟨rfl, rfl, rfl, rfl⟩

/-- `HandleLeaveGroup` writes to the store and the hub. -/
theorem leaveGroup_onlyStores (fmt : Formats) (w : World) (env : Env) (userID : UUID)
    (raw : List UInt8) : OnlyStores w (handleLeaveGroup fmt w env userID raw).1 := by
  rw [handleLeaveGroup]
  split
  · exact OnlyStores.refl w
  · split
    · exact OnlyStores.refl w
    · exact (OnlyStores.refl w).send _ _
    · exact ⟨rfl, rfl, rfl, rfl⟩

/-- A goroutine that has returned. -/
def Task.over : Task → Prop
  | .socket t => t = .done
  | .group t => t = .done
  | .request _ _ => False

/-- From the world `w` with the goroutines `new` to the world `w'`: there is one goroutine
    and, left alone, it ends there, or there is none and nothing is left to do. -/
def Finishes (env : Env) (w : World) (new : List Task) (w' : World) : Prop :=
  (new = [] ∧ w = w') ∨ ∃ t t', new = [t] ∧ Alone env (w, t) (w', t') ∧ t'.over

/-- What a group handler does by itself it does as a task of the pool. -/
theorem Finishes.group {env : Env} {w w' : World} {t : PeerGroupRun.Thread}
    (hstores : OnlyStores w w')
    (h : PeerGroupRun.Alone env (w.db, w.hub, t) (w'.db, w'.hub, .done)) :
    Finishes env w [.group t] w' := by
  have halone := Alone.group h w
  rw [hstores.eq] at halone
  exact Or.inr ⟨.group t, .group .done, rfl, halone, rfl⟩

/-- **EVERY BRANCH OF THE SWITCH**, run by itself, ends where the branch of `dispatch`
    does. -/
theorem begins_alone (fmt : Formats) (w : World) (env : Env) (senderID : UUID)
    (senderName : String) (raw : List UInt8) (kind : Kind) :
    Finishes env (begins fmt w env senderID senderName raw kind).1
      (begins fmt w env senderID senderName raw kind).2
      (branch fmt w env senderID senderName raw kind) := by
  cases kind with
  | message =>
      simp only [begins, branch, handleDM]
      cases hp : parseDM fmt senderID senderName raw with
      | error e => exact Or.inl ⟨rfl, rfl⟩
      | ok call =>
          exact Or.inr ⟨_, _, rfl, Alone.socket (PeerServer.running_alone env w call), rfl⟩
  | groupMessage =>
      simp only [begins, branch]
      cases hp : parseGroupMessage fmt raw with
      | error e => exact Or.inl ⟨rfl, by simp only [handleGroupMessage, hp]⟩
      | ok call =>
          exact Finishes.group (groupMessage_onlyStores fmt w env senderID senderName raw)
            (PeerGroupRun.groupMessage_alone hp w env senderID senderName)
  | createGroup =>
      simp only [begins, branch]
      cases hp : parseCreateGroup raw with
      | error e => exact Or.inl ⟨rfl, by simp only [handleCreateGroup, hp]⟩
      | ok name =>
          exact Finishes.group (createGroup_onlyStores w env senderID raw)
            (PeerGroupRun.createGroup_alone hp w env senderID)
  | addMember =>
      simp only [begins, branch]
      cases hp : parseAddMember fmt raw with
      | error e => exact Or.inl ⟨rfl, by simp only [handleAddMember, hp]⟩
      | ok call =>
          exact Finishes.group (addMember_onlyStores fmt w env senderID raw)
            (PeerGroupRun.addMember_alone hp w env senderID)
  | leaveGroup =>
      simp only [begins, branch]
      cases hp : parseLeaveGroup fmt raw with
      | error e => exact Or.inl ⟨rfl, by simp only [handleLeaveGroup, hp]⟩
      | ok groupID =>
          exact Finishes.group (leaveGroup_onlyStores fmt w env senderID raw)
            (PeerGroupRun.leaveGroup_alone hp w env senderID)
  | ack =>
      simp only [begins, branch, handleAck]
      cases hp : parseAck fmt raw with
      | error e => exact Or.inl ⟨rfl, rfl⟩
      | ok call =>
          exact Or.inr ⟨_, _, rfl, Alone.socket (ack_alone env w senderID call), rfl⟩
  | _ => exact Or.inl ⟨rfl, rfl⟩

/-- **A PAYLOAD WHOSE HANDLER IS LEFT ALONE IS `Dispatch`.** -/
theorem dispatch_alone (fmt : Formats) (w : World) (env : Env) (senderID : UUID)
    (senderName : String) (raw : List UInt8) :
    Finishes env (receives fmt w env senderID senderName raw).1
      (receives fmt w env senderID senderName raw).2
      (dispatch fmt newLimiter w env senderID senderName raw) := by
  rw [receives, dispatch]
  cases hkind : baseKind raw with
  | none => exact Or.inl ⟨rfl, rfl⟩
  | some kind =>
      simp only
      cases hlim : kind.limited with
      | false => exact begins_alone fmt w env senderID senderName raw kind
      | true =>
          simp only [if_true]
          cases hallow : w.redis.allow newLimiter env senderID with
          | mk redis allowed =>
              cases allowed with
              | false => exact Or.inl ⟨rfl, rfl⟩
              | true => exact begins_alone fmt _ env senderID senderName raw kind

end PeerSystem
