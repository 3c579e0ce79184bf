import PeerChat.ClusterProofs
import PeerChat.GroupHandlerProofs

/-! # The fan-out of a group message

    `HandleGroupMessage` goes through the members with `hub.Send` alone: unlike
    `HandleDM` it publishes nothing, so what it reaches is exactly the members its
    own instance holds. -/

namespace PeerFanOut

open PeerEnv BufferedChan PeerHub PeerRouter PeerStore PeerFrame PeerWorld PeerHandler
open PeerServer PeerCluster

/-- Is it this very `group_message`? -/
instance (g : UUID) (s : String) (v : UUID) (b : String) (m : UUID) (t : Nat) :
    (f : Frame) → Decidable (f = .groupMessage g s v b m t)
  | .groupMessage g' s' v' b' m' t' =>
      decidable_of_iff (g' = g ∧ s' = s ∧ v' = v ∧ b' = b ∧ m' = m ∧ t' = t) (by simp)
  | .message .. | .sent .. | .read .. | .groupSent .. | .groupCreated .. | .memberAdded ..
  | .leftGroup .. | .error .. | .rateLimited | .presence .. | .pong | .typing .. | .relay .. =>
      isFalse (by intro h; cases h)

instance (senderName : String) (call : GroupCall) (stored : GroupMessage) :
    DecidablePred (· = groupOutbound senderName call stored) :=
  fun f => inferInstanceAs (Decidable (f = .groupMessage ..))

/-- How often `f` has been enqueued for `u`. -/
def enqueued (h : Hub Frame) (u : UUID) (f : Frame) [DecidablePred (· = f)] : Nat :=
  h.log.countP fun e => h.userOf e.1 = u ∧ e.2 = f

variable {f : Frame} [DecidablePred (· = f)]

/-! ## `Send`, and then a loop of them -/

/-- A send enqueues one frame, where its receiver can take it. -/
theorem enqueued_send (h : Hub Frame) (v u : UUID) :
    enqueued (h.send v f).1 u f
      = enqueued h u f + if u = v ∧ Enqueues h v then 1 else 0 := by
  have husers : (fun e : ClientId × Frame => decide ((h.send v f).1.userOf e.1 = u ∧ e.2 = f))
      = fun e => decide (h.userOf e.1 = u ∧ e.2 = f) := by
    funext e
    rw [send_userOf]
  obtain ⟨hyes, hno⟩ := send_enqueues h v f
  rw [enqueued, husers]
  by_cases he : Enqueues h v
  · obtain ⟨-, c, hc, hlog⟩ := hyes he
    have hself : h.userOf c = v := h.owned v c hc
    rw [hlog, List.countP_append, List.countP_singleton, enqueued, hself]
    simp [he, eq_comm]
  · rw [(hno he).2, enqueued]
    simp [he]

/-- Another frame does not count. -/
theorem enqueued_send_other (h : Hub Frame) (v u : UUID) {f' : Frame} (hf : f' ≠ f) :
    enqueued (h.send v f').1 u f = enqueued h u f := by
  have husers : (fun e : ClientId × Frame => decide ((h.send v f').1.userOf e.1 = u ∧ e.2 = f))
      = fun e => decide (h.userOf e.1 = u ∧ e.2 = f) := by
    funext e
    rw [send_userOf]
  obtain ⟨hyes, hno⟩ := send_enqueues h v f'
  rw [enqueued, husers]
  by_cases he : Enqueues h v
  · obtain ⟨-, c, -, hlog⟩ := hyes he
    rw [hlog, List.countP_append, List.countP_singleton, enqueued]
    simp [hf]
  · rw [(hno he).2, enqueued]

/-- A `Send` to one user does not use up the room of another. -/
theorem enqueues_send_ne (h : Hub Frame) {u v : UUID} (f : Frame) (hu : u ≠ v) :
    Enqueues (h.send v f).1 u ↔ Enqueues h u := by
  have hchan : ∀ c, h.clients u = some c → (h.send v f).1.chan c = h.chan c := by
    intro c hc
    refine send_chan_ne h f ?_
    rw [Hub.userOf, h.owned u c hc]
    exact hu
  simp only [Enqueues, send_clients_ne h f hu, Option.mem_def]
  constructor
  · rintro ⟨c, hc, hroom⟩
    rw [hchan c hc] at hroom
    exact ⟨c, hc, hroom⟩
  · rintro ⟨c, hc, hroom⟩
    rw [← hchan c hc] at hroom
    exact ⟨c, hc, hroom⟩

/-- **THE LOOP**: every member but the sender whom the hub can take a frame for gets it
    once, and nobody else does. -/
theorem enqueued_fanOut (s u : UUID) :
    ∀ {members : List GroupMemberInfo}, (members.map GroupMemberInfo.userID).Nodup →
      ∀ w : World, enqueued (fanOut w s f members).hub u f = enqueued w.hub u f +
        if (∃ m ∈ members, m.userID = u) ∧ u ≠ s ∧ Enqueues w.hub u then 1 else 0 := by
  intro members
  induction members with
  | nil =>
      intro _ w
      simp [fanOut]
  | cons m members ih =>
      intro hnd w
      rw [List.map_cons, List.nodup_cons] at hnd
      obtain ⟨hfresh, hnd⟩ := hnd
      have hout : (∃ m' ∈ members, m'.userID = m.userID) → False := by
        rintro ⟨m', hm', heq⟩
        exact hfresh (heq ▸ List.mem_map_of_mem hm')
      rw [fanOut, ih hnd]
      simp only [List.mem_cons, exists_eq_or_imp]
      by_cases hs : m.userID = s
      · -- the sender is passed over
        rw [if_neg (not_not.mpr hs)]
        congr 1
        refine if_congr ?_ rfl rfl
        constructor
        · rintro ⟨hin, hrest⟩
          exact ⟨Or.inr hin, hrest⟩
        · rintro ⟨heq | hin, hne, he⟩
          · exact absurd (heq.symm.trans hs) hne
          · exact ⟨hin, hne, he⟩
      · rw [if_pos hs]
        show enqueued (w.hub.send m.userID f).1 u f + (if _ ∧ u ≠ s ∧
          Enqueues (w.hub.send m.userID f).1 u then 1 else 0) = _
        rw [enqueued_send]
        by_cases hu : u = m.userID
        · subst hu
          have hno : ¬ ∃ m' ∈ members, m'.userID = m.userID := hout
          simp [hno, hs]
        · simp only [hu, Ne.symm hu, false_and, if_false, false_or, Nat.add_zero,
            enqueues_send_ne w.hub f hu]

/-- A fan-out publishes nothing. -/
theorem fanOut_router (s : UUID) (f : Frame) : ∀ (members : List GroupMemberInfo) (w : World),
    (fanOut w s f members).router = w.router := by
  intro members
  induction members with
  | nil => intro w; rfl
  | cons m members ih =>
      intro w
      rw [fanOut, ih]
      split <;> rfl

/-- **ONE HANDLER**: when `HandleGroupMessage` by a member returns without error, the
    members other than the sender whom its hub can take a frame for have got the message
    once more, and nothing has been published. -/
theorem handleGroupMessage_reaches {fmt : Formats} {w : World} {env : Env} {s : UUID}
    {name : String} {raw : List UInt8} {call : GroupCall}
    (hparse : parseGroupMessage fmt raw = .ok call) (hmember : w.db.InGroup call.groupID s)
    (hok : (handleGroupMessage fmt w env s name raw).2 = .ok ()) (u : UUID) :
    (handleGroupMessage fmt w env s name raw).1.router = w.router ∧
    enqueued (handleGroupMessage fmt w env s name raw).1.hub u
        (groupOutbound name call (newGroupMessage env call.groupID s call.body)) =
      enqueued w.hub u (groupOutbound name call (newGroupMessage env call.groupID s call.body)) +
        if w.db.InGroup call.groupID u ∧ u ≠ s ∧ Enqueues w.hub u then 1 else 0 := by
  rw [handleGroupMessage] at hok ⊢
  simp only [hparse] at hok ⊢
  cases hm : w.db.isGroupMember env call.groupID s with
  | error e =>
      rw [hm] at hok
      cases hok
  | ok member =>
      have htrue : member = true := (isGroupMember_ok hm).mpr hmember
      subst htrue
      rw [hm] at hok
      simp only at hok ⊢
      cases hi : w.db.insertGroupMessage env call.groupID s call.body with
      | error e =>
          rw [hi] at hok
          cases hok
      | ok p =>
          obtain ⟨db, stored⟩ := p
          obtain ⟨rfl, -, hmembers, -⟩ := insertGroupMessage_ok hi
          rw [hi] at hok
          simp only [deliverGroup] at hok ⊢
          cases hg : db.getGroupMembers env call.groupID with
          | error e =>
              rw [hg] at hok
              cases hok
          | ok members =>
              obtain ⟨hin, hnd⟩ := getGroupMembers_ok hg
              have hgroup : (∃ m ∈ members, m.userID = u) ↔ w.db.InGroup call.groupID u := by
                rw [hin u, Db.InGroup, hmembers]
                exact Iff.rfl
              refine ⟨fanOut_router s _ members _, ?_⟩
              -- the ack to the sender is another frame
              show enqueued (Hub.send _ s (.groupSent _)).1 u _ = _
              rw [enqueued_send_other _ _ _ (by intro h; cases h), enqueued_fanOut s u hnd]
              simp only [hgroup]

/-! ## All instances -/

section Cluster

variable {ι : Type}

/-- Nobody is connected to two instances, and the queues are open and not full. -/
structure Placed (d : Cluster ι) : Prop where
  once : ∀ u i j, (d.hub i).isOnline u = true → (d.hub j).isOnline u = true → i = j
  room : ∀ i u c, (d.hub i).clients u = some c →
    ((d.hub i).chan c).closed = false ∧
      ((d.hub i).chan c).buf.length < ((d.hub i).chan c).cap

/-- Where everybody has room a user can be sent to exactly where he is online. -/
theorem Placed.enqueues_iff {d : Cluster ι} (hd : Placed d) (i : ι) (u : UUID) :
    Enqueues (d.hub i) u ↔ (d.hub i).isOnline u = true := by
  rw [Hub.isOnline, Option.isSome_iff_exists]
  constructor
  · rintro ⟨c, hc, -⟩
    exact ⟨c, hc⟩
  · rintro ⟨c, hc⟩
    exact ⟨c, hc, hd.room i u c hc⟩

variable [Fintype ι] [DecidableEq ι]

/-- How often `f` has been enqueued for `u` on any instance, or published and not yet
    forwarded. -/
def copies (d : Cluster ι) (u : UUID) (f : Frame) [DecidablePred (· = f)] : Nat :=
  ∑ i, enqueued (d.hub i) u f +
    ((List.range d.opened).map fun k =>
      if (d.pubsub k).hears u then (d.pubsub k).inbox.countP (· = f) else 0).sum

/-- The user is connected to some instance. -/
def Online (d : Cluster ι) (u : UUID) : Prop := ∃ i, (d.hub i).isOnline u = true

instance (d : Cluster ι) (u : UUID) : Decidable (Online d u) :=
  inferInstanceAs (Decidable (∃ _, _))

/-- **FANNED OUT**: from `d` to `d'` the frame has been enqueued, or published, once for
    every member of the group but the sender who is connected anywhere, and for nobody
    else. -/
def FannedOut (d d' : Cluster ι) (g s : UUID) (f : Frame) [DecidablePred (· = f)] : Prop :=
  ∀ u, copies d' u f = copies d u f +
    if d.db.InGroup g u ∧ u ≠ s ∧ Online d u then 1 else 0

/-- `HandleGroupMessage` runs on instance `i`. -/
def groupMessageOn (d : Cluster ι) (i : ι) (fmt : Formats) (env : Env) (s : UUID)
    (name : String) (raw : List UInt8) : Cluster ι :=
  d.put i (handleGroupMessage fmt (d.world i) env s name raw).1

/-- What a handler on `i` adds to the copies is what it adds to its own hub's. -/
theorem copies_put (d : Cluster ι) (i : ι) {w : World} (hrouter : w.router = (d.world i).router)
    {u : UUID} {n : Nat} (hn : enqueued w.hub u f = enqueued (d.hub i) u f + n) :
    copies (d.put i w) u f = copies d u f + n := by
  have hsum : ∑ j, enqueued ((d.put i w).hub j) u f
      = ∑ j, enqueued (d.hub j) u f + n := by
    rw [← Finset.add_sum_erase _ _ (Finset.mem_univ i),
      ← Finset.add_sum_erase _ (fun j => enqueued (d.hub j) u f) (Finset.mem_univ i)]
    have hothers : ∑ j ∈ Finset.univ.erase i, enqueued ((d.put i w).hub j) u f
        = ∑ j ∈ Finset.univ.erase i, enqueued (d.hub j) u f := by
      refine Finset.sum_congr rfl ?_
      intro j hj
      show enqueued (Function.update d.hub i w.hub j) u f = _
      rw [Function.update_of_ne (Finset.ne_of_mem_erase hj)]
    have hself : enqueued ((d.put i w).hub i) u f = enqueued w.hub u f := by
      show enqueued (Function.update d.hub i w.hub i) u f = _
      rw [Function.update_self]
    rw [hothers, hself, hn]
    omega
  rw [copies, copies, hsum]
  show _ + ((List.range w.router.opened).map fun k => if (w.router.pubsub k).hears u then
    (w.router.pubsub k).inbox.countP (· = f) else 0).sum = _
  rw [hrouter]
  exact Nat.add_right_comm _ _ _

/-- **THE FAN-OUT IS LOCAL**: it reaches every online member exactly when all of them are
    connected to the sender's instance. -/
theorem fans_out_iff {d : Cluster ι} {i : ι} {fmt : Formats} {env : Env} {s : UUID}
    {name : String} {raw : List UInt8} {call : GroupCall} (hd : Placed d)
    (hparse : parseGroupMessage fmt raw = .ok call) (hmember : d.db.InGroup call.groupID s)
    (hok : (handleGroupMessage fmt (d.world i) env s name raw).2 = .ok ()) :
    FannedOut d (groupMessageOn d i fmt env s name raw) call.groupID s
        (groupOutbound name call (newGroupMessage env call.groupID s call.body)) ↔
      ∀ u, d.db.InGroup call.groupID u → u ≠ s → Online d u → (d.hub i).isOnline u = true := by
  have hcopies : ∀ u, copies (groupMessageOn d i fmt env s name raw) u
      (groupOutbound name call (newGroupMessage env call.groupID s call.body)) = copies d u
      (groupOutbound name call (newGroupMessage env call.groupID s call.body)) +
        if d.db.InGroup call.groupID u ∧ u ≠ s ∧ Enqueues (d.hub i) u then 1 else 0 := by
    intro u
    obtain ⟨hrouter, hcount⟩ := handleGroupMessage_reaches hparse hmember hok u
    exact copies_put d i hrouter hcount
  constructor
  · intro hall u hu hs honline
    have hu' := hall u
    rw [hcopies u, if_pos (⟨hu, hs, honline⟩ : _ ∧ _ ∧ _)] at hu'
    by_contra hlocal
    rw [if_neg fun h => hlocal ((hd.enqueues_iff i u).mp h.2.2)] at hu'
    omega
  · intro hall u
    rw [hcopies u]
    congr 1
    refine if_congr ?_ rfl rfl
    rw [hd.enqueues_iff i u]
    constructor
    · rintro ⟨hu, hs, hlocal⟩
      exact ⟨hu, hs, i, hlocal⟩
    · rintro ⟨hu, hs, honline⟩
      exact ⟨hu, hs, hall u hu hs honline⟩

end Cluster

/-! ## Bob writes to the group he has with alice -/

/-- The group 7 of alice and bob. -/
def groupOfTwo : Db :=
  { threeUsers with
    groups := ⟨[⟨⟨7⟩, "pair", ⟨1⟩, 1⟩], by decide⟩
    groupMembers := ⟨[⟨⟨7⟩, ⟨1⟩, .admin, 1⟩, ⟨⟨7⟩, ⟨2⟩, .member, 1⟩], by decide⟩
    groupName_unique := by decide
    groupMember_group := by decide
    groupMember_user := by decide }

/-- Bob is connected to instance 0 by client 1, alice to instance `i` by client 0. -/
def bobHere (i : Fin 2) : Cluster (Fin 2) where
  db := groupOfTwo
  redis := PeerRedis.Redis.empty
  pubsub := fun k => ⟨if k = 0 then ⟨1⟩ else ⟨2⟩, k < 2, 2 ≤ k, []⟩
  opened := 2
  published := []
  addressed := []
  hub := fun j =>
    let fresh := newHub fun c => newRealClient (if c = 0 then ⟨1⟩ else ⟨2⟩) ""
    let h := if j = 0 then fresh.register 1 else fresh
    if j = i then h.register 0 else h
  subs := fun j u =>
    if u = ⟨1⟩ ∧ j = i then some 0 else if u = ⟨2⟩ ∧ j = 0 then some 1 else none

theorem bobHere_online {i j : Fin 2} {u : UUID} :
    ((bobHere i).hub j).isOnline u = true ↔ (u = ⟨2⟩ ∧ j = 0) ∨ (u = ⟨1⟩ ∧ j = i) := by
  have hself : ∀ h : Hub Frame, ∀ c, (h.register c).isOnline u = true ↔
      u = h.userOf c ∨ h.isOnline u = true := by
    intro h c
    by_cases hu : u = h.userOf c
    · simp [Hub.isOnline, hu]
    · simp [Hub.isOnline, hu, register_clients_ne h hu]
  simp only [bobHere]
  split <;> split <;> (try simp only [hself, register_userOf]) <;>
    simp_all [Hub.isOnline, Hub.userOf, newHub, newRealClient, or_comm]

theorem bobHere_placed (i : Fin 2) : Placed (bobHere i) where
  once := by
    intro u j k hj hk
    rw [bobHere_online] at hj hk
    rcases hj with ⟨hu, hj⟩ | ⟨hu, hj⟩ <;> rcases hk with ⟨hv, hk⟩ | ⟨hv, hk⟩
    · rw [hj, hk]
    · rw [hu] at hv
      cases hv
    · rw [hu] at hv
      cases hv
    · rw [hj, hk]
  room := by
    intro j u c _
    have hchan : ((bobHere i).hub j).chan c = make sendBuffer := by
      simp only [bobHere]
      split <;> split <;> rfl
    rw [hchan]
    exact ⟨rfl, by decide⟩

/-- A message for the group 7. -/
def hiAll : List UInt8 :=
  JsonScan.ascii ("\x7b\"type\":\"group_message\",\"group_id\":" ++
    "\"00000000-0000-0000-0000-000000000007\",\"body\":\"hi\"\x7d")

theorem hiAll_parses : parseGroupMessage plainFormats hiAll = .ok ⟨⟨7⟩, "hi"⟩ := by
  have hfields : (parseGroupMessage plainFormats hiAll).toOption.map
      (fun call => (call.groupID, call.body)) = some (⟨7⟩, "hi") := by
    decide +kernel
  cases hp : parseGroupMessage plainFormats hiAll with
  | error e =>
      rw [hp] at hfields
      cases hfields
  | ok call =>
      rw [hp] at hfields
      cases call
      cases hfields
      rfl

theorem hiAll_handled (i : Fin 2) : (handleGroupMessage plainFormats ((bobHere i).world 0) fineEnv
    ⟨2⟩ "bob" hiAll).2 = .ok () := by
  simp only [handleGroupMessage, hiAll_parses]
  rfl

/-- Alice is on bob's instance. -/
theorem fans_out_iff_together : FannedOut (bobHere 0)
    (groupMessageOn (bobHere 0) 0 plainFormats fineEnv ⟨2⟩ "bob" hiAll) ⟨7⟩ ⟨2⟩
    (groupOutbound "bob" ⟨⟨7⟩, "hi"⟩ (newGroupMessage fineEnv ⟨7⟩ ⟨2⟩ "hi")) := by
  refine (fans_out_iff (bobHere_placed 0) hiAll_parses (by decide) (hiAll_handled 0)).mpr ?_
  rintro u - hu ⟨j, hj⟩
  rw [bobHere_online] at hj ⊢
  rcases hj with ⟨hbob, -⟩ | ⟨halice, -⟩
  · exact absurd hbob hu
  · exact Or.inr ⟨halice, rfl⟩

/-- **A MEMBER ON ANOTHER INSTANCE GETS NOTHING**: alice is online, and bob's message is
    neither enqueued for her nor published. -/
theorem other_instance_missed : ¬ ∀ (d : Cluster (Fin 2)) (i : Fin 2) (fmt : Formats) (env : Env)
    (s : UUID) (name : String) (raw : List UInt8) (call : GroupCall), Placed d →
    parseGroupMessage fmt raw = .ok call → d.db.InGroup call.groupID s →
    (handleGroupMessage fmt (d.world i) env s name raw).2 = .ok () →
    FannedOut d (groupMessageOn d i fmt env s name raw) call.groupID s
      (groupOutbound name call (newGroupMessage env call.groupID s call.body)) := by
  intro hall
  have halice := hall (bobHere 1) 0 plainFormats fineEnv ⟨2⟩ "bob" hiAll _ (bobHere_placed 1)
    hiAll_parses (by decide) (hiAll_handled 1) ⟨1⟩
  revert halice
  decide +kernel

end PeerFanOut
