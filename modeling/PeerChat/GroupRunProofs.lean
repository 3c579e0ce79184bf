import PeerChat.GroupHandlerProofs
import PeerChat.TransitionProofs
import PeerChat.ThreadPoolProofs

/-! # The group handlers, statement by statement

    Any number of group handlers run at once, on any number of instances over one
    store.  Each database statement is a step of its own, so anything may happen
    between a handler's membership check and what it does on the strength of it.

    Two results.  Whoever is outside a group stays outside until somebody inside
    adds them (`outsiders_stay_outside`), however the steps interleave.  But a
    check says nothing about the moment of the write: a leave in between lets a
    former member write (`writes_after_leaving`), and nothing else does
    (`membership_enforced`). -/

namespace PeerGroupRun

open PeerEnv KeyedTable PeerHub PeerStore PeerFrame PeerWorld PeerHandler Transition
open ThreadPool

/-- The program counters of the group handlers.  `hub.Send` touches no table, so it
    is one step. -/
inductive Thread where
  | msgCheck (senderID : UUID) (senderName : String) (call : GroupCall)
  | msgInsert (senderID : UUID) (senderName : String) (call : GroupCall)
  | msgMembers (senderID : UUID) (senderName : String) (call : GroupCall)
      (stored : GroupMessage)
  | msgFanOut (senderID : UUID) (outbound : Frame) (messageID : UUID)
      (members : List GroupMemberInfo)
  | create (creatorID : UUID) (name : String)
  | addCheck (adderID groupID userID : UUID)
  | addInsert (adderID groupID userID : UUID)
  | leave (userID groupID : UUID)
  | send (toID : UUID) (data : Frame) (next : Thread)
  | done

/-- One step of a handler over the tables and the hub of its instance. -/
def stepThread (db : Db) (hub : Hub Frame) (env : Env) :
    Thread → Option (Db × Hub Frame × Thread)
  | .msgCheck senderID senderName call =>
      match db.isGroupMember env call.groupID senderID with
      | .error _ => some (db, hub, .done)
      | .ok false =>
          some (db, hub, .send senderID (.error "not a member of this group") .done)
      | .ok true => some (db, hub, .msgInsert senderID senderName call)
  | .msgInsert senderID senderName call =>
      match db.insertGroupMessage env call.groupID senderID call.body with
      | .error _ => some (db, hub, .done)
      | .ok (db, stored) => some (db, hub, .msgMembers senderID senderName call stored)
  | .msgMembers senderID senderName call stored =>
      match db.getGroupMembers env call.groupID with
      | .error _ => some (db, hub, .done)
      | .ok members =>
          some (db, hub, .msgFanOut senderID (groupOutbound senderName call stored)
            stored.id members)
  | .msgFanOut senderID _ messageID [] =>
      some (db, hub, .send senderID (.groupSent messageID) .done)
  | .msgFanOut senderID outbound messageID (m :: members) =>
      if m.userID ≠ senderID then
        some (db, hub, .send m.userID outbound
          (.msgFanOut senderID outbound messageID members))
      else some (db, hub, .msgFanOut senderID outbound messageID members)
  | .create creatorID name =>
      match db.createGroup env name creatorID with
      | .error .uniqueViolation =>
          some (db, hub, .send creatorID (.error "group name already taken") .done)
      | .error _ => some (db, hub, .done)
      | .ok (db, group) =>
          some (db, hub, .send creatorID (.groupCreated group.id group.name) .done)
  | .addCheck adderID groupID userID =>
      match db.isGroupMember env groupID adderID with
      | .error _ => some (db, hub, .done)
      | .ok false =>
          some (db, hub, .send adderID (.error "you are not a member of this group") .done)
      | .ok true => some (db, hub, .addInsert adderID groupID userID)
  | .addInsert adderID groupID userID =>
      match db.addGroupMember env groupID userID .member with
      | .error _ => some (db, hub, .send adderID (.error "failed to add member") .done)
      | .ok db => some (db, hub, .send adderID (.memberAdded groupID userID) .done)
  | .leave userID groupID =>
      match db.removeGroupMember env groupID userID with
      | .error _ => some (db, hub, .done)
      | .ok (_, false) =>
          some (db, hub, .send userID (.error "you are not a member of this group") .done)
      | .ok (db, true) => some (db, hub, .send userID (.leftGroup groupID) .done)
  | .send toID data next => some (db, (hub.send toID data).1, next)
  | .done => none

/-- The store, the hub of every instance, and the handlers with the instance each
    runs on. -/
structure State (ι : Type) where
  db : Db
  hub : ι → Hub Frame
  threads : List (ι × Thread)

variable {ι : Type}

/-- Instances that have just started over the store `db`. -/
def start (db : Db) (who : ι → ClientId → UUID × String) : State ι :=
  ⟨db, fun i => newHub (fun c => newRealClient (who i c).1 (who i c).2), []⟩

inductive Act (ι : Type) where
  /-- A decoded request arrives at instance `i`. -/
  | groupMessage (i : ι) (senderID : UUID) (senderName : String) (call : GroupCall)
  | createGroup (i : ι) (creatorID : UUID) (name : String)
  | addMember (i : ι) (adderID groupID userID : UUID)
  | leaveGroup (i : ι) (userID groupID : UUID)
  /-- A connection comes up, goes down, or has a frame written to it. -/
  | register (i : ι) (c : ClientId)
  | unregister (i : ι) (c : ClientId)
  | receive (i : ι) (c : ClientId)
  /-- Handler `k` takes its next step. -/
  | run (k : Nat) (env : Env)

variable [DecidableEq ι]

def State.spawn (s : State ι) (i : ι) (t : Thread) : State ι :=
  { s with threads := s.threads ++ [(i, t)] }

def State.setHub (s : State ι) (i : ι) (h : Hub Frame) : State ι :=
  { s with hub := Function.update s.hub i h }

def step (s : State ι) : Act ι → Option (State ι)
  | .groupMessage i senderID senderName call =>
      some (s.spawn i (.msgCheck senderID senderName call))
  | .createGroup i creatorID name => some (s.spawn i (.create creatorID name))
  | .addMember i adderID groupID userID =>
      some (s.spawn i (.addCheck adderID groupID userID))
  | .leaveGroup i userID groupID => some (s.spawn i (.leave userID groupID))
  | .register i c => some (s.setHub i ((s.hub i).register c))
  | .unregister i c => some (s.setHub i ((s.hub i).unregister c))
  | .receive i c => some (s.setHub i ((s.hub i).setChan c ((s.hub i).chan c).tail))
  | .run k env =>
      match s.threads[k]? with
      | none => none
      | some (i, t) =>
          match stepThread s.db (s.hub i) env t with
          | none => none
          | some (db, hub, t') =>
              some { s.setHub i hub with db := db, threads := moved s.threads k (i, t') [] }

/-! ## What one step of a handler can do -/

/-- The steps that touch neither the tables nor the hub: the handler gives up, asks
    for a `Send`, or goes on in its loop. -/
inductive Quiet : Thread → Thread → Prop where
  | failed (t : Thread) : Quiet t .done
  | refused (t : Thread) (userID : UUID) (text : String) :
      Quiet t (.send userID (.error text) .done)
  | fannedOut (senderID : UUID) (outbound : Frame) (messageID : UUID) :
      Quiet (.msgFanOut senderID outbound messageID [])
        (.send senderID (.groupSent messageID) .done)
  | fanNext (senderID : UUID) (outbound : Frame) (messageID : UUID) (m : GroupMemberInfo)
      (members : List GroupMemberInfo) (hne : m.userID ≠ senderID) :
      Quiet (.msgFanOut senderID outbound messageID (m :: members))
        (.send m.userID outbound (.msgFanOut senderID outbound messageID members))
  | fanSkip (senderID : UUID) (outbound : Frame) (messageID : UUID) (m : GroupMemberInfo)
      (members : List GroupMemberInfo) (heq : m.userID = senderID) :
      Quiet (.msgFanOut senderID outbound messageID (m :: members))
        (.msgFanOut senderID outbound messageID members)

/-- **The step of a handler, case by case**, with everything the step has checked. -/
inductive ThreadStep (db : Db) (hub : Hub Frame) (env : Env) :
    Thread → Db → Hub Frame → Thread → Prop where
  | quiet {t t' : Thread} (hq : Quiet t t') : ThreadStep db hub env t db hub t'
  | sent (toID : UUID) (data : Frame) (next : Thread) :
      ThreadStep db hub env (.send toID data next) db (hub.send toID data).1 next
  | msgAllowed (senderID : UUID) (senderName : String) (call : GroupCall)
      (hin : db.InGroup call.groupID senderID) :
      ThreadStep db hub env (.msgCheck senderID senderName call) db hub
        (.msgInsert senderID senderName call)
  | stored (senderID : UUID) (senderName : String) (call : GroupCall) (db' : Db)
      (stored : GroupMessage)
      (h : db.insertGroupMessage env call.groupID senderID call.body = .ok (db', stored)) :
      ThreadStep db hub env (.msgInsert senderID senderName call) db' hub
        (.msgMembers senderID senderName call stored)
  | listed (senderID : UUID) (senderName : String) (call : GroupCall) (stored : GroupMessage)
      (members : List GroupMemberInfo)
      (h : db.getGroupMembers env call.groupID = .ok members) :
      ThreadStep db hub env (.msgMembers senderID senderName call stored) db hub
        (.msgFanOut senderID (groupOutbound senderName call stored) stored.id members)
  | created (creatorID : UUID) (name : String) (db' : Db) (group : Group)
      (h : db.createGroup env name creatorID = .ok (db', group)) :
      ThreadStep db hub env (.create creatorID name) db' hub
        (.send creatorID (.groupCreated group.id group.name) .done)
  | addAllowed (adderID groupID userID : UUID) (hin : db.InGroup groupID adderID) :
      ThreadStep db hub env (.addCheck adderID groupID userID) db hub
        (.addInsert adderID groupID userID)
  | added (adderID groupID userID : UUID) (db' : Db)
      (h : db.addGroupMember env groupID userID .member = .ok db') :
      ThreadStep db hub env (.addInsert adderID groupID userID) db' hub
        (.send adderID (.memberAdded groupID userID) .done)
  | left (userID groupID : UUID) (hok : env.ok .removeGroupMember = true) :
      ThreadStep db hub env (.leave userID groupID) (db.deleteGroupMember groupID userID) hub
        (.send userID (.leftGroup groupID) .done)

/-- **WHAT A STATEMENT OF A HANDLER DOES**, case by case. -/
theorem threadStep_of_stepThread {db db' : Db} {hub hub' : Hub Frame} {env : Env}
    {t t' : Thread} (h : stepThread db hub env t = some (db', hub', t')) :
    ThreadStep db hub env t db' hub' t' := by
  cases t with
  | msgCheck senderID senderName call =>
      simp only [stepThread] at h
      split at h
      · cases h
        exact .quiet (.failed _)
      · cases h
        exact .quiet (.refused _ _ _)
      · rename_i hm
        cases h
        exact .msgAllowed _ _ _ ((isGroupMember_ok hm).mp rfl)
  | msgInsert senderID senderName call =>
      simp only [stepThread] at h
      split at h
      · cases h
        exact .quiet (.failed _)
      · rename_i hi
        cases h
        exact .stored _ _ _ _ _ hi
  | msgMembers senderID senderName call stored =>
      simp only [stepThread] at h
      split at h
      · cases h
        exact .quiet (.failed _)
      · rename_i hm
        cases h
        exact .listed _ _ _ _ _ hm
  | msgFanOut senderID outbound messageID members =>
      cases members with
      | nil =>
          cases h
          exact .quiet (.fannedOut _ _ _)
      | cons m members =>
          simp only [stepThread] at h
          split at h
          · rename_i hne
            cases h
            exact .quiet (.fanNext _ _ _ _ _ hne)
          · rename_i heq
            cases h
            exact .quiet (.fanSkip _ _ _ _ _ (not_not.mp heq))
  | create creatorID name =>
      simp only [stepThread] at h
      split at h
      · cases h
        exact .quiet (.refused _ _ _)
      · cases h
        exact .quiet (.failed _)
      · rename_i hc
        cases h
        exact .created _ _ _ _ hc
  | addCheck adderID groupID userID =>
      simp only [stepThread] at h
      split at h
      · cases h
        exact .quiet (.failed _)
      · cases h
        exact .quiet (.refused _ _ _)
      · rename_i hm
        cases h
        exact .addAllowed _ _ _ ((isGroupMember_ok hm).mp rfl)
  | addInsert adderID groupID userID =>
      simp only [stepThread] at h
      split at h
      · cases h
        exact .quiet (.refused _ _ _)
      · rename_i ha
        cases h
        exact .added _ _ _ _ ha
  | leave userID groupID =>
      simp only [stepThread] at h
      split at h
      · cases h
        exact .quiet (.failed _)
      · cases h
        exact .quiet (.refused _ _ _)
      · rename_i hr
        cases h
        obtain ⟨hok, hdb⟩ := removeGroupMember_ok hr
        rw [hdb]
        exact .left _ _ hok
  | send toID data next =>
      cases h
      exact .sent _ _ _
  | done => cases h

/-! ## A handler that nobody interrupts -/

/-- From one point of a handler to another, with nothing in between. -/
def Alone (env : Env) : Db × Hub Frame × Thread → Db × Hub Frame × Thread → Prop :=
  Runs fun s => stepThread s.1 s.2.1 env s.2.2

/-- A last `Send`. -/
theorem Alone.answer (env : Env) (w : World) (toID : UUID) (data : Frame) :
    Alone env (w.db, w.hub, .send toID data .done)
      ((w.send toID data).1.db, (w.send toID data).1.hub, .done) :=
  Runs.step rfl (Runs.refl _)

/-- The loop over the members. -/
theorem Alone.fanOut {env : Env} {senderID : UUID} {outbound : Frame} {messageID : UUID}
    {b : Db × Hub Frame × Thread} : ∀ (members : List GroupMemberInfo) (w : World),
    Alone env (w.db, (fanOut w senderID outbound members).hub,
      .msgFanOut senderID outbound messageID []) b →
    Alone env (w.db, w.hub, .msgFanOut senderID outbound messageID members) b := by
  intro members
  induction members with
  | nil => exact fun w h => h
  | cons m members ih =>
      intro w h
      rw [PeerHandler.fanOut] at h
      by_cases hm : m.userID ≠ senderID
      · rw [if_pos hm] at h
        refine Runs.step (show stepThread w.db w.hub env _ = some (w.db, w.hub,
          .send m.userID outbound (.msgFanOut senderID outbound messageID members)) by
          simp only [stepThread, if_pos hm]) ?_
        exact Runs.step rfl (ih (w.send m.userID outbound).1 h)
      · rw [if_neg hm] at h
        exact Runs.step (show stepThread w.db w.hub env _ = some (w.db, w.hub,
          .msgFanOut senderID outbound messageID members) by
          simp only [stepThread, if_neg hm]) (ih w h)

/-- **THE THREADS ARE THE HANDLERS**: run without interruption each ends in the tables
    and the hub that its handler leaves. -/
theorem groupMessage_alone {fmt : Formats} {raw : List UInt8} {call : GroupCall}
    (hparse : parseGroupMessage fmt raw = .ok call) (w : World) (env : Env) (senderID : UUID)
    (senderName : String) :
    Alone env (w.db, w.hub, .msgCheck senderID senderName call)
      ((handleGroupMessage fmt w env senderID senderName raw).1.db,
        (handleGroupMessage fmt w env senderID senderName raw).1.hub, .done) := by
  rw [handleGroupMessage, hparse]
  simp only
  cases hm : w.db.isGroupMember env call.groupID senderID with
  | error e => exact Runs.step (by simp only [stepThread, hm]) (Runs.refl _)
  | ok member =>
      cases member with
      | false =>
          exact Runs.step (by simp only [stepThread, hm]) (Alone.answer env w _ _)
      | true =>
          refine Runs.step (show stepThread w.db w.hub env _ = some (w.db, w.hub,
            .msgInsert senderID senderName call) by simp only [stepThread, hm]) ?_
          cases hi : w.db.insertGroupMessage env call.groupID senderID call.body with
          | error e => exact Runs.step (by simp only [stepThread, hi]) (Runs.refl _)
          | ok p =>
              refine Runs.step (show stepThread w.db w.hub env _ = some (p.1, w.hub,
                .msgMembers senderID senderName call p.2) by simp only [stepThread, hi]) ?_
              simp only [deliverGroup]
              cases hg : p.1.getGroupMembers env call.groupID with
              | error e => exact Runs.step (by simp only [stepThread, hg]) (Runs.refl _)
              | ok members =>
                  refine Runs.step (show stepThread p.1 w.hub env _ = some (p.1, w.hub,
                    .msgFanOut senderID (groupOutbound senderName call p.2) p.2.id members) by
                    simp only [stepThread, hg]) ?_
                  refine Alone.fanOut members { w with db := p.1 } ?_
                  refine Runs.step rfl ?_
                  have hdb := fanOut_db senderID (groupOutbound senderName call p.2) members
                    { w with db := p.1 }
                  refine Runs.step rfl ?_
                  simp only [send_db, hdb]
                  exact Runs.refl _

/-- `HandleCreateGroup` by itself is its statements one after the other. -/
theorem createGroup_alone {raw : List UInt8} {name : String}
    (hparse : parseCreateGroup raw = .ok name) (w : World) (env : Env) (creatorID : UUID) :
    Alone env (w.db, w.hub, .create creatorID name)
      ((handleCreateGroup w env creatorID raw).1.db,
        (handleCreateGroup w env creatorID raw).1.hub, .done) := by
  rw [handleCreateGroup, hparse]
  simp only
  cases hc : w.db.createGroup env name creatorID with
  | ok p =>
      exact Runs.step (by simp only [stepThread, hc])
        (Alone.answer env { w with db := p.1 } _ _)
  | error e =>
      cases e with
      | uniqueViolation =>
          exact Runs.step (by simp only [stepThread, hc]) (Alone.answer env w _ _)
      | _ => exact Runs.step (by simp only [stepThread, hc]) (Runs.refl _)

/-- `HandleAddMember` by itself is its statements one after the other. -/
theorem addMember_alone {fmt : Formats} {raw : List UInt8} {groupID userID : UUID}
    (hparse : parseAddMember fmt raw = .ok (groupID, userID)) (w : World) (env : Env)
    (adderID : UUID) :
    Alone env (w.db, w.hub, .addCheck adderID groupID userID)
      ((handleAddMember fmt w env adderID raw).1.db,
        (handleAddMember fmt w env adderID raw).1.hub, .done) := by
  rw [handleAddMember, hparse]
  simp only
  cases hm : w.db.isGroupMember env groupID adderID with
  | error e => exact Runs.step (by simp only [stepThread, hm]) (Runs.refl _)
  | ok member =>
      cases member with
      | false => exact Runs.step (by simp only [stepThread, hm]) (Alone.answer env w _ _)
      | true =>
          refine Runs.step (show stepThread w.db w.hub env _ = some (w.db, w.hub,
            .addInsert adderID groupID userID) by simp only [stepThread, hm]) ?_
          cases ha : w.db.addGroupMember env groupID userID .member with
          | error e =>
              exact Runs.step (by simp only [stepThread, ha]) (Alone.answer env w _ _)
          | ok db =>
              exact Runs.step (by simp only [stepThread, ha])
                (Alone.answer env { w with db := db } _ _)

/-- `HandleLeaveGroup` by itself is its statements one after the other. -/
theorem leaveGroup_alone {fmt : Formats} {raw : List UInt8} {groupID : UUID}
    (hparse : parseLeaveGroup fmt raw = .ok groupID) (w : World) (env : Env) (userID : UUID) :
    Alone env (w.db, w.hub, .leave userID groupID)
      ((handleLeaveGroup fmt w env userID raw).1.db,
        (handleLeaveGroup fmt w env userID raw).1.hub, .done) := by
  rw [handleLeaveGroup, hparse]
  simp only
  cases hr : w.db.removeGroupMember env groupID userID with
  | error e => exact Runs.step (by simp only [stepThread, hr]) (Runs.refl _)
  | ok p =>
      obtain ⟨db, removed⟩ := p
      cases removed with
      | false => exact Runs.step (by simp only [stepThread, hr]) (Alone.answer env w _ _)
      | true =>
          exact Runs.step (by simp only [stepThread, hr])
            (Alone.answer env { w with db := db } _ _)

/-! ## Requests and connections -/

/-- Where the handler of a request starts. -/
inductive Request : Act ι → ι → Thread → Prop where
  | groupMessage (i : ι) (senderID : UUID) (senderName : String) (call : GroupCall) :
      Request (.groupMessage i senderID senderName call) i
        (.msgCheck senderID senderName call)
  | createGroup (i : ι) (creatorID : UUID) (name : String) :
      Request (.createGroup i creatorID name) i (.create creatorID name)
  | addMember (i : ι) (adderID groupID userID : UUID) :
      Request (.addMember i adderID groupID userID) i (.addCheck adderID groupID userID)
  | leaveGroup (i : ι) (userID groupID : UUID) :
      Request (.leaveGroup i userID groupID) i (.leave userID groupID)

/-- What one step of the system can do: a request or a connection, which leave the
    tables alone, or a step of a handler. -/
inductive Stepped (s : State ι) : Act ι → State ι → Prop where
  | request {a : Act ι} {i : ι} {t : Thread} (ht : Request a i t) : Stepped s a (s.spawn i t)
  | connection {a : Act ι} (i : ι) (h : Hub Frame) (hlog : h.log = (s.hub i).log)
      (huser : ∀ c, h.userOf c = (s.hub i).userOf c) : Stepped s a (s.setHub i h)
  | run (k : Nat) (env : Env) (i : ι) (t : Thread) (db : Db) (hub : Hub Frame) (t' : Thread)
      (hk : s.threads[k]? = some (i, t)) (ht : ThreadStep s.db (s.hub i) env t db hub t') :
      Stepped s (.run k env)
        { s.setHub i hub with db := db, threads := moved s.threads k (i, t') [] }

/-- **WHAT A STEP DOES**, action by action. -/
theorem step_cases {s t : State ι} {a : Act ι} (h : step s a = some t) : Stepped s a t := by
  cases a with
  | groupMessage i u n call =>
      cases h
      exact .request (.groupMessage i u n call)
  | createGroup i u n =>
      cases h
      exact .request (.createGroup i u n)
  | addMember i u g v =>
      cases h
      exact .request (.addMember i u g v)
  | leaveGroup i u g =>
      cases h
      exact .request (.leaveGroup i u g)
  | register i c =>
      cases h
      exact .connection i _ rfl (fun _ => rfl)
  | unregister i c =>
      cases h
      exact .connection i _ (unregister_log _ c) (unregister_userOf _ c)
  | receive i c =>
      cases h
      exact .connection i _ rfl (fun d => setChan_userOf _ c d _)
  | run k env =>
      simp only [step] at h
      split at h
      · cases h
      · rename_i i t₀ hk
        split at h
        · cases h
        · rename_i db hub t' ht
          cases h
          exact .run k env i t₀ db hub t' hk (threadStep_of_stepThread ht)

/-! ## Outsiders -/

/-- Is it a message of group `g`? -/
def ofGroup (g : UUID) : Frame → Bool
  | .groupMessage groupID .. => groupID = g
  | _ => false

/-- The condition on a run: nobody who is not of `S` asks to add one of `S` to `g`. -/
def NoInvite (S : Set UUID) (g : UUID) (_ : State ι) : Act ι → Prop
  | .addMember _ adderID groupID userID => groupID = g → adderID ∉ S → userID ∉ S
  | _ => True

/-- **THE USERS OF `S` ARE OUTSIDE `g`**: not in its members, its messages or the
    readers of its messages. -/
structure Outside (S : Set UUID) (g : UUID) (s : State ι) : Prop where
  members : ∀ u ∈ S, ¬ s.db.InGroup g u
  messages : ∀ m ∈ s.db.groupMessages.rows, m.groupID = g → m.senderID ∉ S
  frames : ∀ i, ∀ e ∈ (s.hub i).log, ofGroup g e.2 = true → (s.hub i).userOf e.1 ∉ S

/-- What a handler has in hand lets nobody of `S` in. -/
def Harmless (S : Set UUID) (g : UUID) : Thread → Prop
  | .msgInsert senderID _ call => call.groupID = g → senderID ∉ S
  | .msgFanOut _ outbound _ members =>
      ofGroup g outbound = true → ∀ m ∈ members, m.userID ∉ S
  | .addCheck adderID groupID userID => groupID = g → adderID ∉ S → userID ∉ S
  | .addInsert _ groupID userID => groupID = g → userID ∉ S
  | .send toID data next => (ofGroup g data = true → toID ∉ S) ∧ Harmless S g next
  | _ => True

section Outsiders

variable {S : Set UUID} {g : UUID}

theorem harmless_quiet {t t' : Thread} (h : Quiet t t') (ht : Harmless S g t) :
    Harmless S g t' := by
  cases h with
  | failed t => trivial
  | refused t u text => exact ⟨fun h => (by cases h), trivial⟩
  | fannedOut u out id => exact ⟨fun h => (by cases h), trivial⟩
  | fanNext u out id m ms hne =>
      exact ⟨fun h => ht h m List.mem_cons_self,
        fun h m' hm' => ht h m' (List.mem_cons_of_mem _ hm')⟩
  | fanSkip u out id m ms heq => exact fun h m' hm' => ht h m' (List.mem_cons_of_mem _ hm')

/-- Groups are never deleted, nor do they change. -/
theorem groups_of_step {db db' : Db} {hub hub' : Hub Frame} {env : Env} {t t' : Thread}
    (h : ThreadStep db hub env t db' hub' t') :
    ∀ group ∈ db.groups.rows, group ∈ db'.groups.rows := by
  intro group hg
  cases h with
  | stored u n call db' stored hi =>
      rw [(insertGroupMessage_ok hi).2.2.2.1]
      exact hg
  | created u n db' group' hc =>
      rw [(createGroup_ok hc).2.groups]
      exact List.mem_append_left _ hg
  | added a g u db' ha =>
      rw [(addGroupMember_ok ha).groups]
      exact hg
  | _ => exact hg

/-- **NOBODY OF `S` GETS IN BY ONE STEP** of a handler that is harmless, if the
    group's creator is not of `S`. -/
theorem members_of_step {db db' : Db} {hub hub' : Hub Frame} {env : Env} {t t' : Thread}
    (h : ThreadStep db hub env t db' hub' t') (ht : Harmless S g t)
    (hin : ∀ u ∈ S, ¬ db.InGroup g u)
    (hcreator : ∀ group ∈ db'.groups.rows, group.id = g → group.createdBy ∉ S) :
    ∀ u ∈ S, ¬ db'.InGroup g u := by
  intro u hu hmem
  cases h with
  | stored v n call db' stored hi =>
      rw [Db.InGroup, (insertGroupMessage_ok hi).2.2.1] at hmem
      exact hin u hu hmem
  | created v n db' group hc =>
      obtain ⟨-, hcr⟩ := createGroup_ok hc
      rcases (hcr.members g u).mp hmem with hold | ⟨hg, hcreated⟩
      · exact hin u hu hold
      · refine hcreator group ?_ hg.symm (hcreated ▸ hu)
        rw [hcr.groups]
        exact List.mem_concat_self
  | added a g' v db' ha =>
      rcases ((addGroupMember_ok ha).members g u).mp hmem with hold | ⟨hg, huv⟩
      · exact hin u hu hold
      · exact ht hg.symm (huv ▸ hu)
  | left v g' _ => exact hin u hu ((deleteGroupMember_inGroup _ _ _ _ _).mp hmem).1
  | _ => exact hin u hu hmem

/-- A harmless handler stores no message of an outsider. -/
theorem messages_of_step {db db' : Db} {hub hub' : Hub Frame} {env : Env} {t t' : Thread}
    (h : ThreadStep db hub env t db' hub' t') (ht : Harmless S g t)
    (hms : ∀ m ∈ db.groupMessages.rows, m.groupID = g → m.senderID ∉ S) :
    ∀ m ∈ db'.groupMessages.rows, m.groupID = g → m.senderID ∉ S := by
  intro m hm hg
  cases h with
  | stored u n call db' stored hi =>
      obtain ⟨hstored, hrows, -, -⟩ := insertGroupMessage_ok hi
      rw [hrows] at hm
      rcases List.mem_append.mp hm with hold | hnew
      · exact hms m hold hg
      · rw [List.mem_singleton.mp hnew, hstored] at hg ⊢
        exact ht hg
  | created u n db' group hc =>
      rw [(createGroup_ok hc).2.messages] at hm
      exact hms m hm hg
  | added a g' u db' ha =>
      rw [(addGroupMember_ok ha).messages] at hm
      exact hms m hm hg
  | _ => exact hms m hm hg

/-- A `Send` goes to nobody of `S` with a message of `g`. -/
theorem frames_of_step {db db' : Db} {hub hub' : Hub Frame} {env : Env} {t t' : Thread}
    (h : ThreadStep db hub env t db' hub' t') (ht : Harmless S g t)
    (hf : ∀ e ∈ hub.log, ofGroup g e.2 = true → hub.userOf e.1 ∉ S) :
    ∀ e ∈ hub'.log, ofGroup g e.2 = true → hub'.userOf e.1 ∉ S := by
  intro e he hg
  cases h with
  | sent toID data next =>
      rw [send_userOf]
      rcases mem_send_log he with hold | ⟨hto, hdata⟩
      · exact hf e hold hg
      · rw [hto]
        exact ht.1 (hdata ▸ hg)
  | _ => exact hf e he hg

/-- A harmless handler stays harmless while the outsiders are out. -/
theorem harmless_of_step {db db' : Db} {hub hub' : Hub Frame} {env : Env} {t t' : Thread}
    (h : ThreadStep db hub env t db' hub' t') (ht : Harmless S g t)
    (hin : ∀ u ∈ S, ¬ db.InGroup g u) : Harmless S g t' := by
  cases h with
  | quiet hq => exact harmless_quiet hq ht
  | sent toID data next => exact ht.2
  | msgAllowed u n call hmem =>
      intro hg hu
      rw [hg] at hmem
      exact hin u hu hmem
  | stored u n call db' stored hi => trivial
  | listed u n call stored members hm =>
      intro hg m hmem hu
      have hgroup : call.groupID = g := of_decide_eq_true hg
      rw [hgroup] at hm
      exact hin m.userID hu (((getGroupMembers_ok hm).1 m.userID).mp ⟨m, hmem, rfl⟩)
  | created u n db' group hc => exact ⟨fun h => (by cases h), trivial⟩
  | addAllowed a g' u hmem =>
      intro hg
      refine ht hg ?_
      intro ha
      rw [hg] at hmem
      exact hin a ha hmem
  | added a g' u db' ha => exact ⟨fun h => (by cases h), trivial⟩
  | left u g' _ => exact ⟨fun h => (by cases h), trivial⟩

/-- The invariant of a run without invitations. -/
structure Closed (S : Set UUID) (g : UUID) (s : State ι) : Prop where
  outside : Outside S g s
  harmless : ∀ p ∈ s.threads, Harmless S g p.2

/-- Every guarded step keeps the group closed to the outsiders. -/
theorem closed_step {s t : State ι} {a : Act ι} (hi : Closed S g s) (hG : NoInvite S g s a)
    (h : Stepped s a t)
    (hcreator : ∀ group ∈ t.db.groups.rows, group.id = g → group.createdBy ∉ S) :
    Closed S g t := by
  cases h with
  | request ht =>
      refine ⟨⟨hi.outside.members, hi.outside.messages, hi.outside.frames⟩, ?_⟩
      intro p hp
      rcases List.mem_append.mp hp with hold | hnew
      · exact hi.harmless p hold
      · rw [List.mem_singleton.mp hnew]
        cases ht with
        | addMember i u g' v => exact hG
        | _ => trivial
  | connection i hub hlog huser =>
      refine ⟨⟨hi.outside.members, hi.outside.messages, ?_⟩, hi.harmless⟩
      intro j e he hg
      by_cases hj : j = i
      · simp only [State.setHub, hj, Function.update_self] at he ⊢
        rw [huser]
        exact hi.outside.frames i e (hlog ▸ he) hg
      · simp only [State.setHub, Function.update_of_ne hj] at he ⊢
        exact hi.outside.frames j e he hg
  | run k env i th db hub th' hk hstep =>
      have ht : Harmless S g th := hi.harmless (i, th) (List.mem_of_getElem? hk)
      refine ⟨⟨members_of_step hstep ht hi.outside.members hcreator,
        messages_of_step hstep ht hi.outside.messages, ?_⟩, ?_⟩
      · intro j e he hg
        by_cases hj : j = i
        · simp only [State.setHub, hj, Function.update_self] at he ⊢
          exact frames_of_step hstep ht (hi.outside.frames i) e he hg
        · simp only [State.setHub, Function.update_of_ne hj] at he ⊢
          exact hi.outside.frames j e he hg
      · intro p hp
        rcases mem_moved hp with hold | rfl | hnew
        · exact hi.harmless p hold
        · exact harmless_of_step hstep ht hi.outside.members
        · cases hnew

/-- **OUTSIDERS STAY OUTSIDE**: however the steps of all handlers interleave, as long
    as nobody else asks to add them. -/
theorem outsiders_stay_outside {db : Db} {who : ι → ClientId → UUID × String} {s : State ι}
    (hstart : Outside S g (start db who)) (h : Reach step (NoInvite S g) (start db who) s)
    (hcreator : ∀ group ∈ s.db.groups.rows, group.id = g → group.createdBy ∉ S) :
    Outside S g s := by
  -- whoever created the group by the end of the run had created it before
  have hback : ∀ (s t : State ι) (a : Act ι), step s a = some t →
      ∀ group ∈ s.db.groups.rows, group ∈ t.db.groups.rows := by
    intro s t a hst group hg
    cases step_cases hst with
    | request ht => exact hg
    | connection i hub _ _ => exact hg
    | run k env i th db hub th' hk hstep => exact groups_of_step hstep group hg
  have hinv : (∀ group ∈ s.db.groups.rows, group.id = g → group.createdBy ∉ S) →
      Closed S g s := by
    refine Reach.invariant
      (I := fun s => (∀ group ∈ s.db.groups.rows, group.id = g → group.createdBy ∉ S) →
        Closed S g s) ?_ h ?_
    · intro s a t hs hG hst hc
      exact closed_step (hs fun group hg => hc group (hback s t a hst group hg)) hG
        (step_cases hst) hc
    · intro _
      exact ⟨hstart, fun p hp => by cases hp⟩
  exact (hinv hcreator).outside

end Outsiders

instance (S : Set UUID) [DecidablePred (· ∈ S)] (g : UUID) (s : State ι) (a : Act ι) :
    Decidable (NoInvite S g s a) :=
  match a with
  | .addMember _ _ _ _ => inferInstanceAs (Decidable (_ → _ ∉ S → _ ∉ S))
  | .groupMessage _ _ _ _ | .createGroup _ _ _ | .leaveGroup _ _ _ | .register _ _
  | .unregister _ _ | .receive _ _ | .run _ _ => isTrue trivial

/-- Carol, alone. -/
def carol : Set UUID := {u | u = ⟨3⟩}

instance : DecidablePred (· ∈ carol) := fun u => inferInstanceAs (Decidable (u = ⟨3⟩))

/-- Everything succeeds; the group gets the id 7 and a message the id 20. -/
def groupEnv : Env := Env.fine ⟨7⟩ ⟨20⟩ 1

/-- Two instances over the three accounts. -/
def twoInstances : State Bool := start threeUsers fun _ _ => (⟨1⟩, "alice")

/-- Alice creates a group and adds Bob; Carol, on the other instance, tries to add
    herself and to write. -/
theorem outsiders_stay_outside_carol : ∃ s : State Bool,
    Reach step (NoInvite carol ⟨7⟩) twoInstances s ∧ s.db.InGroup ⟨7⟩ ⟨2⟩ ∧
      Outside carol ⟨7⟩ s := by
  obtain ⟨s, hs, hbob, hcreator⟩ := exists_reach_of_replayGuarded step (NoInvite carol ⟨7⟩)
    twoInstances
    [.createGroup false ⟨1⟩ "friends", .run 0 groupEnv,
      .addMember false ⟨1⟩ ⟨7⟩ ⟨2⟩, .run 1 groupEnv, .run 1 groupEnv,
      .addMember true ⟨3⟩ ⟨7⟩ ⟨3⟩, .run 2 groupEnv,
      .groupMessage true ⟨3⟩ "carol" ⟨⟨7⟩, "hi"⟩, .run 3 groupEnv]
    (fun s => s.db.InGroup ⟨7⟩ ⟨2⟩ ∧
      ∀ group ∈ s.db.groups.rows, group.id = ⟨7⟩ → group.createdBy ∉ carol)
    (by decide +kernel)
  exact ⟨s, hs, hbob, outsiders_stay_outside
    ⟨fun _ _ h => (by cases h), fun _ h => (by cases h), fun _ _ h => (by cases h)⟩ hs hcreator⟩

/-! ## Membership at the moment of the write -/

/-- The memberships a handler has checked and is about to write under. -/
def Thread.relies : Thread → List (UUID × UUID)
  | .msgInsert senderID _ call => [(call.groupID, senderID)]
  | .addInsert adderID groupID _ => [(groupID, adderID)]
  | .send _ _ next => next.relies
  | _ => []

/-- The membership a handler is about to take away. -/
def Thread.removes : Thread → List (UUID × UUID)
  | .leave userID groupID => [(groupID, userID)]
  | _ => []

/-- The condition on a step: nobody leaves a group between the check and the write
    of a handler of the same user. A `DELETE` that fails takes nobody out. -/
def NoLeaveBetween (s : State ι) : Act ι → Prop
  | .run k env => env.ok .removeGroupMember = true →
      ∀ p ∈ s.threads[k]?, ∀ m ∈ p.2.removes, ∀ q ∈ s.threads, m ∉ q.2.relies
  | _ => True

instance (s : State ι) (a : Act ι) : Decidable (NoLeaveBetween s a) :=
  match a with
  | .run _ _ => inferInstanceAs (Decidable (_ → ∀ p ∈ s.threads[_]?, _))
  | .groupMessage _ _ _ _ | .createGroup _ _ _ | .addMember _ _ _ _ | .leaveGroup _ _ _
  | .register _ _ | .unregister _ _ | .receive _ _ => isTrue trivial

/-- **THE WRITES OF A STEP ARE ENFORCED**: a group message is stored for a member, and
    a member is added by a member. -/
structure Enforced (s : State ι) (a : Act ι) (t : State ι) : Prop where
  message : ∀ m ∈ t.db.groupMessages.rows, m ∉ s.db.groupMessages.rows →
    s.db.InGroup m.groupID m.senderID
  member : ∀ k env i adderID groupID userID, a = .run k env →
    s.threads[k]? = some (i, .addInsert adderID groupID userID) →
      ¬ s.db.InGroup groupID userID → t.db.InGroup groupID userID →
        s.db.InGroup groupID adderID

/-- What the handlers rely on holds. -/
def Relied (s : State ι) : Prop :=
  ∀ p ∈ s.threads, ∀ m ∈ p.2.relies, s.db.InGroup m.1 m.2

/-- A step takes away the memberships it removes, and no others. -/
theorem inGroup_of_step {db db' : Db} {hub hub' : Hub Frame} {env : Env} {t t' : Thread}
    (h : ThreadStep db hub env t db' hub' t') {g u : UUID} (hin : db.InGroup g u) :
    db'.InGroup g u ∨ (env.ok .removeGroupMember = true ∧ (g, u) ∈ t.removes) := by
  cases h with
  | stored v n call db' stored hi =>
      left
      rw [Db.InGroup, (insertGroupMessage_ok hi).2.2.1]
      exact hin
  | created v n db' group hc => exact Or.inl (((createGroup_ok hc).2.members g u).mpr (Or.inl hin))
  | added a g' v db' ha => exact Or.inl (((addGroupMember_ok ha).members g u).mpr (Or.inl hin))
  | left v g' hok =>
      by_cases hgu : g = g' ∧ u = v
      · right
        rw [hgu.1, hgu.2]
        exact ⟨hok, List.mem_singleton.mpr rfl⟩
      · exact Or.inl ((deleteGroupMember_inGroup _ _ _ _ _).mpr ⟨hin, hgu⟩)
  | _ => exact Or.inl hin

/-- Whatever a handler relies on after a step it has just checked, or relied on. -/
theorem relies_of_step {db db' : Db} {hub hub' : Hub Frame} {env : Env} {t t' : Thread}
    (h : ThreadStep db hub env t db' hub' t') :
    ∀ m ∈ t'.relies, m ∈ t.relies ∨ db'.InGroup m.1 m.2 := by
  intro m hm
  cases h with
  | quiet hq => cases hq <;> cases hm
  | sent toID data next => exact Or.inl hm
  | msgAllowed u n call hin =>
      rw [List.mem_singleton.mp hm]
      exact Or.inr hin
  | addAllowed a g u hin =>
      rw [List.mem_singleton.mp hm]
      exact Or.inr hin
  | _ => cases hm

/-- Every guarded step keeps what the handlers rely on. -/
theorem relied_step {s t : State ι} {a : Act ι} (hi : Relied s) (hG : NoLeaveBetween s a)
    (h : Stepped s a t) : Relied t := by
  cases h with
  | request ht =>
      intro p hp m hm
      rcases List.mem_append.mp hp with hold | hnew
      · exact hi p hold m hm
      · rw [List.mem_singleton.mp hnew] at hm
        cases ht <;> cases hm
  | connection i hub _ _ => exact hi
  | run k env i th db hub th' hk hstep =>
      have hmem : (i, th) ∈ s.threads := List.mem_of_getElem? hk
      -- what anybody relied on before is still there
      have hkeep : ∀ p ∈ s.threads, ∀ m ∈ p.2.relies, db.InGroup m.1 m.2 := by
        intro p hp m hm
        rcases inGroup_of_step hstep (hi p hp m hm) with hin | ⟨hok, hremoved⟩
        · exact hin
        · exact absurd hm (hG hok (i, th) hk m hremoved p hp)
      intro p hp m hm
      rcases mem_moved hp with hold | rfl | hnew
      · exact hkeep p hold m hm
      · rcases relies_of_step hstep m hm with hbefore | hin
        · exact hkeep (i, th) hmem m hbefore
        · exact hin
      · cases hnew

/-- A group message that a step stores is its handler's, under a membership the
    handler relies on. -/
theorem stored_of_step {db db' : Db} {hub hub' : Hub Frame} {env : Env} {t t' : Thread}
    (h : ThreadStep db hub env t db' hub' t') {m : GroupMessage}
    (hm : m ∈ db'.groupMessages.rows) :
    m ∈ db.groupMessages.rows ∨ (m.groupID, m.senderID) ∈ t.relies := by
  cases h with
  | stored u n call db' stored hi =>
      obtain ⟨hstored, hrows, -, -⟩ := insertGroupMessage_ok hi
      rw [hrows] at hm
      rcases List.mem_append.mp hm with hold | hnew
      · exact Or.inl hold
      · rw [List.mem_singleton.mp hnew, hstored]
        exact Or.inr (List.mem_singleton.mpr rfl)
  | created u n db' group hc =>
      rw [(createGroup_ok hc).2.messages] at hm
      exact Or.inl hm
  | added a g u db' ha =>
      rw [(addGroupMember_ok ha).messages] at hm
      exact Or.inl hm
  | _ => exact Or.inl hm

/-- **MEMBERSHIP HOLDS AT THE MOMENT OF THE WRITE**, in every run in which nobody
    leaves between a check and its write. -/
theorem membership_enforced {db : Db} {who : ι → ClientId → UUID × String} {s t : State ι}
    {a : Act ι} (h : Reach step NoLeaveBetween (start db who) s) (hst : step s a = some t) :
    Enforced s a t := by
  have hi : Relied s :=
    Reach.invariant (fun _ _ _ hs hG ht => relied_step hs hG (step_cases ht)) h
      fun p hp => by cases hp
  refine ⟨?_, ?_⟩
  · intro m hm hnew
    cases step_cases hst with
    | request ht => exact absurd hm hnew
    | connection i hub _ _ => exact absurd hm hnew
    | run k env i th db hub th' hk hstep =>
        rcases stored_of_step hstep hm with hold | hrelied
        · exact absurd hold hnew
        · exact hi (i, th) (List.mem_of_getElem? hk) _ hrelied
  · intro k env i adderID groupID userID _ hk _ _
    exact hi _ (List.mem_of_getElem? hk) _ (List.mem_singleton.mpr rfl)

/-- Bob writes to the group on one connection and leaves it on another: his message
    is stored after he has left. -/
theorem writes_after_leaving : ¬ ∀ (s t : State Bool) (a : Act Bool),
    Reach step anyStep twoInstances s → step s a = some t → Enforced s a t := by
  obtain ⟨s, hs, hleft, hwrite⟩ := exists_reach_of_replayGuarded step (fun _ _ => True)
    twoInstances
    [.createGroup false ⟨1⟩ "friends", .run 0 groupEnv,
      .addMember false ⟨1⟩ ⟨7⟩ ⟨2⟩, .run 1 groupEnv, .run 1 groupEnv,
      .groupMessage false ⟨2⟩ "bob" ⟨⟨7⟩, "hi"⟩, .run 2 groupEnv,
      .leaveGroup true ⟨2⟩ ⟨7⟩, .run 3 groupEnv]
    (fun s => ¬ s.db.InGroup ⟨7⟩ ⟨2⟩ ∧ ∃ t ∈ step s (.run 2 groupEnv),
      ⟨⟨20⟩, ⟨7⟩, ⟨2⟩, "hi", 1⟩ ∈ t.db.groupMessages.rows ∧
        ⟨⟨20⟩, ⟨7⟩, ⟨2⟩, "hi", 1⟩ ∉ s.db.groupMessages.rows) (by decide +kernel)
  obtain ⟨t, ht, hstored, hnew⟩ := hwrite
  intro hall
  exact hleft ((hall s t _ hs ht).message _ hstored hnew)

/-- Alice leaves between Bob's check and his write; Bob is still a member. -/
theorem membership_enforced_other_leave : ∃ s t : State Bool,
    Reach step NoLeaveBetween twoInstances s ∧ step s (.run 2 groupEnv) = some t ∧
      ⟨⟨20⟩, ⟨7⟩, ⟨2⟩, "hi", 1⟩ ∈ t.db.groupMessages.rows ∧
        Enforced s (.run 2 groupEnv) t := by
  obtain ⟨s, hs, t, ht, hstored⟩ := exists_reach_of_replayGuarded step NoLeaveBetween
    twoInstances
    [.createGroup false ⟨1⟩ "friends", .run 0 groupEnv,
      .addMember false ⟨1⟩ ⟨7⟩ ⟨2⟩, .run 1 groupEnv, .run 1 groupEnv,
      .groupMessage false ⟨2⟩ "bob" ⟨⟨7⟩, "hi"⟩, .run 2 groupEnv,
      .leaveGroup true ⟨1⟩ ⟨7⟩, .run 3 groupEnv]
    (fun s => ∃ t ∈ step s (.run 2 groupEnv),
      ⟨⟨20⟩, ⟨7⟩, ⟨2⟩, "hi", 1⟩ ∈ t.db.groupMessages.rows) (by decide +kernel)
  exact ⟨s, t, hs, ht, hstored, membership_enforced hs ht⟩

end PeerGroupRun
