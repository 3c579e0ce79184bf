import PeerChat.ClusterProofs

/-! # The local path and the pub/sub path

    `HandleDM` marks a message 'delivered' when the local hub takes it; when it is
    published instead, the instance that forwards it marks nothing.  So of two
    clusters that differ in where the receiver is connected, the one ends with a
    'delivered' row and the other with a 'sent' one, which the receiver's next
    connect will push again. -/

namespace PeerPathsAgree

open PeerEnv KeyedTable BufferedChan PeerHub PeerRouter PeerStore PeerFrame PeerWorld PeerHandler
open PeerServer PeerCluster Transition

variable {ι : Type}

/-- The user `u` is connected to instance `i` alone, by the client `c`, with the active
    subscription `sub`; nobody has anything to forward. -/
structure OnlineAt (d : Cluster ι) (i : ι) (u : UUID) (c : ClientId) (sub : SubId) : Prop where
  client : (d.hub i).clients u = some c
  elsewhere : ∀ j, j ≠ i → (d.hub j).clients u = none
  opened : ((d.hub i).chan c).closed = false
  filed : ∀ j v, d.subs j v = some sub ↔ j = i ∧ v = u
  owner : (d.pubsub sub).userID = u
  hears : ∀ k, (d.pubsub k).hears u = true ↔ k = sub
  quiet : ∀ k, (d.pubsub k).inbox = []

/-- Two clusters that differ in where `u` is connected: the one's client `cl` is on
    `here`, the other's `cr` on `there`. -/
structure Twins (l r : Cluster ι) (here there : ι) (u : UUID) (cl cr : ClientId)
    (subl subr : SubId) : Prop where
  left : OnlineAt l here u cl subl
  right : OnlineAt r there u cr subr
  apart : there ≠ here
  db : r.db = l.db
  queue : (r.hub there).chan cr = (l.hub here).chan cl

/-- The message `id` has the status `st`. -/
def HasStatus (db : Db) (id : UUID) (st : Status) : Prop :=
  ∃ m ∈ db.messages.rows, m.id = id ∧ m.status = st

/-- **THE PATHS AGREE**: the same frames in `u`'s queue, the same status on the
    message, the same messages to push at `u`'s next connect. -/
structure Agree (l r : Cluster ι) (here there : ι) (u : UUID) (cl cr : ClientId) (id : UUID) :
    Prop where
  frames : ((l.hub here).chan cl).buf = ((r.hub there).chan cr).buf
  status : ∀ st, HasStatus l.db id st ↔ HasStatus r.db id st
  pushed : ∀ m, m ∈ (l.db.pendingRows u).map (·.message) ↔ m ∈ (r.db.pendingRows u).map (·.message)

/-! ## What is published for `u` -/

variable {d d' : Cluster ι} {i : ι} {u : UUID} {c : ClientId} {sub : SubId}

/-- The channel with room is the one `Send` can use. -/
theorem OnlineAt.enqueues_iff (h : OnlineAt d i u c sub) :
    Enqueues (d.hub i) u ↔ ((d.hub i).chan c).buf.length < ((d.hub i).chan c).cap := by
  constructor
  · rintro ⟨e, he, -, hroom⟩
    rw [h.client] at he
    cases he
    exact hroom
  · exact fun hroom => ⟨c, h.client, h.opened, hroom⟩

variable [DecidableEq ι]

/-- A handler on `j` that has published `f` for `u` leaves it to be forwarded, and no
    more. -/
theorem OnlineAt.published (h : OnlineAt d i u c sub) {j : ι} {w : World} {f : Frame}
    (hrouter : w.router = (d.world j).router.publish u f) :
    OnePayload (d.put j w) i u sub f where
  filed := by
    intro e v
    rw [← h.filed e v]
    show Function.update d.subs j w.router.subs e v = some sub ↔ _
    by_cases he : e = j
    · rw [he, Function.update_self, hrouter]
      rfl
    · rw [Function.update_of_ne he]
  owner := by
    show (w.router.pubsub sub).userID = u
    rw [hrouter, publish_userID]
    exact h.owner
  inbox := by
    intro k
    show (w.router.pubsub k).inbox = _
    rw [hrouter, publish_inbox]
    show (d.pubsub k).inbox ++ (if (d.pubsub k).hears u then [f] else []) = _
    rw [h.quiet k, List.nil_append]
    exact if_congr (h.hears k) rfl rfl

/-- The forwarding hands the payload to the hub and touches no table. -/
theorem finishes_hub {f : Frame} (h : OnePayload d i u sub f) (hd' : Finishes d d') :
    d'.db = d.db ∧ d'.hub i = ((d.hub i).send u f).1 := by
  rw [(finishes_one h).mp hd']
  exact ⟨rfl, by simp [Cluster.put, World.send, Cluster.world]⟩

/-- A `Send` brings no client back. -/
theorem send_clients_gone {h : Hub Frame} (s : UUID) (f : Frame) (hgone : h.clients u = none) :
    (h.send s f).1.clients u = none := by
  by_cases hs : u = s
  · rw [Hub.send, ← hs, hgone]
    exact hgone
  · rw [send_clients_ne h f hs]
    exact hgone

/-- … and puts nothing on the channel of a client that the hub has dropped. -/
theorem send_chan_gone {h : Hub Frame} (s : UUID) (f : Frame)
    (hgone : h.clients (h.userOf c) = none) : (h.send s f).1.chan c = h.chan c := by
  by_cases hs : h.userOf c = s
  · rw [Hub.send, ← hs, hgone]
  · exact send_chan_ne h f hs

/-! ## The two runs -/

variable {here there : ι} {env : Env} {call : DmCall} {stored : Message} {w₁ : World}

/-- Storing the message depends on the tables only. -/
theorem storeDM_congr {w w' : World} (hdb : w'.db = w.db)
    (h : storeDM w env call = (w₁, .ok stored)) :
    w₁.hub = w.hub ∧ w₁.router = w.router ∧
      ∃ w₂, storeDM w' env call = (w₂, .ok stored) ∧ w₂.db = w₁.db := by
  rw [storeDM] at h ⊢
  rw [hdb]
  rcases hf : w.db.findOrCreateChat env call.senderID call.receiverID with ⟨db, _ | chatID⟩
  · rw [hf] at h
    cases h
  · rw [hf] at h
    simp only [insertDM] at h ⊢
    split at h
    · cases h
    · rename_i db' m hm
      cases h
      exact ⟨rfl, rfl, _, rfl, rfl⟩

theorem runDM_of_stored {w : World} (h : storeDM w env call = (w₁, .ok stored)) :
    (runDM w env call).1 = (deliverDM w₁ env call stored).1 := by
  rw [runDM, h]

/-- When the local hub takes the frame there is nothing to forward. -/
theorem OnlineAt.settled_of_local {j : ι} (h : OnlineAt d i call.receiverID c sub)
    (hup : ∀ st, env.ok st = true) (hstored : storeDM (d.world j) env call = (w₁, .ok stored))
    (he : Enqueues (d.hub j) call.receiverID) (a : ι × UUID) :
    (d.handleDM j env call).forward a = none := by
  obtain ⟨hhub₁, hrouter₁, -⟩ := storeDM_congr rfl hstored
  obtain ⟨-, hlocal, -⟩ := deliverDM_up (w := w₁) call stored (hup _) (hup _)
  rw [hhub₁, hrouter₁] at hlocal
  refine forward_none fun k _ => ?_
  show ((runDM (d.world j) env call).1.router.pubsub k).inbox = []
  rw [runDM_of_stored hstored, (hlocal he).2]
  exact h.quiet k

/-- When it does not there is the one frame. -/
theorem OnlineAt.payload_of_published {j : ι} (h : OnlineAt d i call.receiverID c sub)
    (hup : ∀ st, env.ok st = true) (hstored : storeDM (d.world j) env call = (w₁, .ok stored))
    (he : ¬ Enqueues (d.hub j) call.receiverID) :
    OnePayload (d.handleDM j env call) i call.receiverID sub (call.outbound stored) := by
  obtain ⟨hhub₁, hrouter₁, -⟩ := storeDM_congr rfl hstored
  obtain ⟨-, -, hpublished⟩ := deliverDM_up (w := w₁) call stored (hup _) (hup _)
  rw [hhub₁, hrouter₁] at hpublished
  refine h.published ?_
  rw [runDM_of_stored hstored]
  exact (hpublished he).2

/-- The forwarding comes to an end. -/
theorem OnlineAt.exists_finishes {j : ι} (h : OnlineAt d i call.receiverID c sub)
    (hup : ∀ st, env.ok st = true) (hstored : storeDM (d.world j) env call = (w₁, .ok stored)) :
    ∃ d', Finishes (d.handleDM j env call) d' := by
  by_cases he : Enqueues (d.hub j) call.receiverID
  · exact ⟨_, (finishes_settled (h.settled_of_local hup hstored he)).mpr rfl⟩
  · exact ⟨_, (finishes_one (h.payload_of_published hup hstored he)).mpr rfl⟩

/-- **THE LOCAL RUN**: with room in the queue the row is 'delivered' and the frame in the
    queue, ahead of an ack if `u` writes to itself; without, neither has changed. -/
theorem local_run (h : OnlineAt d here call.receiverID c sub) (hup : ∀ st, env.ok st = true)
    (hstored : storeDM (d.world here) env call = (w₁, .ok stored))
    (hd' : Finishes (d.handleDM here env call) d') :
    (Enqueues (d.hub here) call.receiverID →
      (call.senderID ≠ call.receiverID →
        ((d'.hub here).chan c).buf = ((d.hub here).chan c).buf ++ [call.outbound stored]) ∧
      d'.db = w₁.db.setStatus stored.id .delivered) ∧
    (¬ Enqueues (d.hub here) call.receiverID →
      ((d'.hub here).chan c).buf = ((d.hub here).chan c).buf ∧ d'.db = w₁.db) := by
  obtain ⟨hhub₁, -⟩ := storeDM_congr rfl hstored
  change w₁.hub = d.hub here at hhub₁
  obtain ⟨hhub, hlocal, hpublished⟩ := deliverDM_up (w := w₁) call stored (hup _) (hup _)
  rw [hhub₁] at hhub hlocal hpublished
  obtain ⟨hyes, hno⟩ := send_self (call.outbound stored) h.client h.opened
  have huser : ((d.hub here).send call.receiverID (call.outbound stored)).1.userOf c
      = call.receiverID := by
    rw [send_userOf, Hub.userOf, (d.hub here).owned _ c h.client]
  have hself : (d.handleDM here env call).hub here = (deliverDM w₁ env call stored).1.hub := by
    rw [← runDM_of_stored hstored]
    exact Function.update_self ..
  have hdb : (d.handleDM here env call).db = (deliverDM w₁ env call stored).1.db := by
    rw [← runDM_of_stored hstored]
    rfl
  refine ⟨fun he => ?_, fun he => ?_⟩
  · rw [(finishes_settled (h.settled_of_local hup hstored he)).mp hd', hdb, hself, hhub]
    refine ⟨fun hne => ?_, (hlocal he).1⟩
    -- the ack goes to another user's queue
    rw [send_chan_ne _ _ (by rw [huser]; exact Ne.symm hne), (hyes he).2]
  · obtain ⟨hdb', hhub'⟩ := finishes_hub (h.payload_of_published hup hstored he) hd'
    obtain ⟨-, hnone, hbuf⟩ := hno he
    refine ⟨?_, hdb'.trans (hdb.trans (hpublished he).1)⟩
    -- the hub has dropped the client: neither the ack nor the forwarded frame finds it
    have hgone : (deliverDM w₁ env call stored).1.hub.clients call.receiverID = none := by
      rw [hhub]
      exact send_clients_gone _ _ hnone
    rw [hhub', hself, Hub.send, hgone]
    simp only
    rw [hhub, send_chan_gone _ _ (by rw [huser]; exact hnone), hbuf]

/-- **THE PUBLISHED RUN**: the frame is in the queue if there was room, and the row
    stays 'sent'. -/
theorem published_run (h : OnlineAt d there call.receiverID c sub) (hapart : there ≠ here)
    (hup : ∀ st, env.ok st = true)
    (hstored : storeDM (d.world here) env call = (w₁, .ok stored))
    (hd' : Finishes (d.handleDM here env call) d') :
    d'.db = w₁.db ∧
    (Enqueues (d.hub there) call.receiverID →
      ((d'.hub there).chan c).buf = ((d.hub there).chan c).buf ++ [call.outbound stored]) ∧
    (¬ Enqueues (d.hub there) call.receiverID →
      ((d'.hub there).chan c).buf = ((d.hub there).chan c).buf) := by
  obtain ⟨hhub₁, -⟩ := storeDM_congr rfl hstored
  change w₁.hub = d.hub here at hhub₁
  obtain ⟨-, -, hpublished⟩ := deliverDM_up (w := w₁) call stored (hup _) (hup _)
  rw [hhub₁, ← runDM_of_stored hstored] at hpublished
  have hnobody : ¬ Enqueues (d.hub here) call.receiverID := by
    rintro ⟨e, he, -⟩
    rw [h.elsewhere here (Ne.symm hapart)] at he
    cases he
  obtain ⟨hdb', hhub'⟩ := finishes_hub (h.payload_of_published hup hstored hnobody) hd'
  have hthere : (d.handleDM here env call).hub there = d.hub there :=
    Function.update_of_ne hapart _ _
  obtain ⟨hyes, hno⟩ := send_self (call.outbound stored) h.client h.opened
  rw [hhub', hthere]
  exact ⟨hdb'.trans (hpublished hnobody).1, fun he => (hyes he).2, fun he => (hno he).2.2⟩

section Twins

variable {l r l' r' : Cluster ι} {cl cr : ClientId} {subl subr : SubId}

/-- With room in the queue the row ends 'delivered' on the local path and 'sent' on the
    other. -/
theorem disagree_of_room (ht : Twins l r here there call.receiverID cl cr subl subr)
    (hup : ∀ st, env.ok st = true)
    (hstored : storeDM (l.world here) env call = (w₁, .ok stored))
    (hl : Finishes (l.handleDM here env call) l')
    (hr : Finishes (r.handleDM here env call) r')
    (hroom : ((l.hub here).chan cl).buf.length < ((l.hub here).chan cl).cap) :
    ¬ Agree l' r' here there call.receiverID cl cr stored.id := by
  intro hagree
  obtain ⟨-, -, w₂, hstored₂, hdb₂⟩ :=
    storeDM_congr (show (r.world here).db = (l.world here).db from ht.db) hstored
  obtain ⟨-, hdb_l⟩ := (local_run ht.left hup hstored hl).1 (ht.left.enqueues_iff.mpr hroom)
  obtain ⟨hdb_r, -⟩ := published_run ht.right ht.apart hup hstored₂ hr
  -- the row that `HandleDM` stored
  have hrow : stored ∈ w₁.db.messages.rows ∧ stored.status = .sent := by
    rcases storeDM_cases (l.world here) env call with ⟨e, db, hs, -⟩ |
      ⟨db, m, db', hs, -, -, -, -, -, hst⟩
    · rw [hs] at hstored
      cases hstored
    · rw [hs] at hstored
      cases hstored
      refine ⟨?_, hst.sent⟩
      show stored ∈ db'.messages.rows
      rw [hst.messages]
      exact List.mem_concat_self
  have hsent : HasStatus r'.db stored.id .sent := by
    rw [hdb_r, hdb₂]
    exact ⟨stored, hrow.1, rfl, hrow.2⟩
  obtain ⟨m, hm, hid, hst⟩ := (hagree.status .sent).mpr hsent
  rw [hdb_l] at hm
  obtain ⟨m₀, -, hid₀, ⟨-, hdel⟩ | ⟨hne', -⟩⟩ := setStatus_row hm
  · rw [hst] at hdel
    cases hdel
  · exact hne' (hid₀.trans hid)

/-- **THE PATHS AGREE ONLY ON A FULL QUEUE**, which neither path gets the frame into. -/
theorem paths_agree_iff (ht : Twins l r here there call.receiverID cl cr subl subr)
    (hup : ∀ st, env.ok st = true)
    (hstored : storeDM (l.world here) env call = (w₁, .ok stored))
    (hl : Finishes (l.handleDM here env call) l')
    (hr : Finishes (r.handleDM here env call) r') :
    Agree l' r' here there call.receiverID cl cr stored.id ↔
      ((l.hub here).chan cl).cap ≤ ((l.hub here).chan cl).buf.length := by
  constructor
  · intro hagree
    by_contra hroom
    exact disagree_of_room ht hup hstored hl hr (Nat.lt_of_not_le hroom) hagree
  · intro hfull
    obtain ⟨-, -, w₂, hstored₂, hdb₂⟩ :=
      storeDM_congr (show (r.world here).db = (l.world here).db from ht.db) hstored
    have hno_l : ¬ Enqueues (l.hub here) call.receiverID :=
      fun he => absurd (ht.left.enqueues_iff.mp he) (Nat.not_lt.mpr hfull)
    have hno_r : ¬ Enqueues (r.hub there) call.receiverID := by
      intro he
      have hroom := ht.right.enqueues_iff.mp he
      rw [ht.queue] at hroom
      exact absurd hroom (Nat.not_lt.mpr hfull)
    obtain ⟨hbuf_l, hdb_l⟩ := (local_run ht.left hup hstored hl).2 hno_l
    obtain ⟨hdb_r, -, hbuf_r⟩ := published_run ht.right ht.apart hup hstored₂ hr
    have hdb : l'.db = r'.db := by rw [hdb_l, hdb_r, hdb₂]
    refine ⟨?_, fun st => by rw [hdb], fun m => by rw [hdb]⟩
    rw [hbuf_l, hbuf_r hno_r, ht.queue]

end Twins

/-! ## Alice is here, or there -/

/-- Two instances, alice connected to instance `i`. -/
def aliceOn (i : Fin 2) : Cluster (Fin 2) where
  db := threeUsers
  redis := PeerRedis.Redis.empty
  pubsub := fun k => if k = 0 then ⟨⟨1⟩, true, false, []⟩ else ⟨⟨0⟩, false, true, []⟩
  opened := 1
  published := []
  addressed := []
  hub := fun j =>
    let fresh := newHub fun _ => newRealClient ⟨1⟩ "alice"
    if j = i then fresh.register 0 else fresh
  subs := fun j v => if j = i ∧ v = ⟨1⟩ then some 0 else none

theorem aliceOn_online (i : Fin 2) : OnlineAt (aliceOn i) i ⟨1⟩ 0 0 where
  client := by simp [aliceOn, Hub.register, Hub.userOf, newHub, newRealClient]
  elsewhere := by
    intro j hj
    simp [aliceOn, hj]
  opened := by
    simp only [aliceOn, if_pos]
    rfl
  filed := by
    intro j v
    simp [aliceOn]
  owner := rfl
  hears := by
    intro k
    simp only [aliceOn]
    split <;> simp_all [PubSub.hears]
  quiet := by
    intro k
    simp only [aliceOn]
    split <;> rfl

theorem aliceOn_twins : Twins (aliceOn 0) (aliceOn 1) 0 1 ⟨1⟩ 0 0 0 0 :=
  ⟨aliceOn_online 0, aliceOn_online 1, by decide, rfl, rfl⟩

/-- Bob's message, as it is stored wherever alice is. -/
theorem bobs_message (i : Fin 2) : ∃ w₁ stored,
    storeDM ((aliceOn i).world 0) fineEnv bobsCall = (w₁, .ok stored) :=
  ⟨_, _, rfl⟩

/-- Bob writes to alice, whose queue is empty. -/
theorem paths_agree_iff_alice : ∃ (l' r' : Cluster (Fin 2)) (id : UUID),
    (Finishes ((aliceOn 0).handleDM 0 fineEnv bobsCall) l' ∧
      Finishes ((aliceOn 1).handleDM 0 fineEnv bobsCall) r') ∧
    (Agree l' r' 0 1 ⟨1⟩ 0 0 id ↔
      (((aliceOn 0).hub 0).chan 0).cap ≤ (((aliceOn 0).hub 0).chan 0).buf.length) := by
  obtain ⟨w₁, stored, hstored⟩ := bobs_message 0
  obtain ⟨w₂, stored₂, hstored₂⟩ := bobs_message 1
  obtain ⟨l', hl⟩ := (aliceOn_online 0).exists_finishes (fun _ => rfl) hstored
  obtain ⟨r', hr⟩ := (aliceOn_online 1).exists_finishes (fun _ => rfl) hstored₂
  exact ⟨l', r', stored.id, ⟨hl, hr⟩,
    paths_agree_iff aliceOn_twins (fun _ => rfl) hstored hl hr⟩

/-- **THE PUBLISHED MESSAGE STAYS 'sent'**: bob's message to alice, who is on the other
    instance. -/
theorem published_stays_sent : ¬ ∀ (l r l' r' : Cluster (Fin 2)) (here there : Fin 2)
    (cl cr : ClientId) (subl subr : SubId) (env : Env) (call : DmCall) (w₁ : World)
    (stored : Message), Twins l r here there call.receiverID cl cr subl subr →
    call.senderID ≠ call.receiverID → (∀ st, env.ok st = true) →
    storeDM (l.world here) env call = (w₁, .ok stored) →
    Finishes (l.handleDM here env call) l' → Finishes (r.handleDM here env call) r' →
    Agree l' r' here there call.receiverID cl cr stored.id := by
  intro hall
  obtain ⟨w₁, stored, hstored⟩ := bobs_message 0
  obtain ⟨w₂, stored₂, hstored₂⟩ := bobs_message 1
  obtain ⟨l', hl⟩ := (aliceOn_online 0).exists_finishes (fun _ => rfl) hstored
  obtain ⟨r', hr⟩ := (aliceOn_online 1).exists_finishes (fun _ => rfl) hstored₂
  exact disagree_of_room aliceOn_twins (fun _ => rfl) hstored hl hr (by decide)
    (hall _ _ l' r' 0 1 0 0 0 0 fineEnv bobsCall w₁ stored aliceOn_twins (by decide)
      (fun _ => rfl) hstored hl hr)

end PeerPathsAgree
