import PeerChat.DeliveryProofs

/-! # At least once

    A message is inserted before its `Send` looks the receiver up, and a client is
    registered before the snapshot of its pending messages.  So whoever finds no
    client does so before the registration, and the snapshot still to come will
    see the row.

    Every message that awaits the user of `c` is in one of three places: enqueued
    on `c`, ahead of a snapshot not yet taken, or in the pots of a thread. -/

namespace PeerServer

open PeerEnv KeyedTable BufferedChan PeerHub PeerStore PeerFrame PeerWorld PeerHandler
open Transition ThreadPool

/-- A message addressed to `u` by another user, stored 'sent' in the tables `db`
    or since then. -/
structure Awaits (db : Db) (w : World) (u : UUID) (m : Message) : Prop where
  addressed : (m.id, u) ∈ w.addressed
  other : m.senderID ≠ u
  unsent : ∀ m₀ ∈ db.messages.rows, m₀.id = m.id → m₀.status = .sent

/-- The goroutines that are there before the run: connections of other users and
    their forwarders. -/
def Thread.idle : Thread → Prop
  | .live _ => True
  | .forward _ => True
  | .done => True
  | _ => False

/-- The user of `c` is offline, and no handler is running. -/
structure Offline (c : ClientId) (s : Server) : Prop where
  idle : ∀ t ∈ s.threads, t.idle
  fresh : c ∉ s.conns
  offline : s.world.hub.clients (s.world.hub.userOf c) = none
  opened : (s.world.hub.chan c).closed = false
  ledger : Ledger s

/-- The condition on a thread's next step: the connection does not end, its
    snapshot succeeds on at most `pendingLimit` rows, and its queue has room. -/
def smooth (c : ClientId) (w : World) (env : Env) : Thread → Bool
  | .live d => decide (d ≠ c)
  | .connPending _ => decide (env.ok .pending = true ∧
      (w.db.pendingRows (w.hub.userOf c)).length ≤ pendingLimit)
  | .send _ (.select d) => decide (d = c → (w.hub.chan c).buf.length < (w.hub.chan c).cap)
  | _ => true

/-- `HandleDM` calls of anybody, and the one connection `c`. -/
def OneConnection (c : ClientId) (s : Server) : Action → Prop
  | .connect d => d = c
  | .ack _ _ => False
  | .run i env => ∀ t ∈ s.threads[i]?, smooth c s.world env t = true
  | _ => True

instance (c : ClientId) (s : Server) (a : Action) : Decidable (OneConnection c s a) :=
  match a with
  | .connect d => inferInstanceAs (Decidable (d = c))
  | .ack _ _ => isFalse id
  | .run i _ => inferInstanceAs (Decidable (∀ t ∈ s.threads[i]?, _))
  | .dm _ | .activate _ | .pumpWrite _ _ | .pumpStop _ => isTrue trivial

/-- The handlers have returned: `HandleDM` calls and `onConnect`.  Forwarders go
    on, and so do connections. -/
def Thread.returned : Thread → Bool
  | .live _ => true
  | .connOffline _ => true
  | .connUnfile _ => true
  | .connClose _ => true
  | .forward _ => true
  | .send (.forward _ _ _) _ => true
  | .done => true
  | _ => false

/-! ## The invariant -/

/-- The connection of `c` has yet to take its snapshot. -/
def Thread.ahead (c : ClientId) : Thread → Prop
  | .connRegister d => d = c
  | .connOnline d => d = c
  | .connOpen d => d = c
  | .connFile d _ => d = c
  | .connPending d => d = c
  | _ => False

instance (c : ClientId) (t : Thread) : Decidable (t.ahead c) :=
  match t with
  | .connRegister d => inferInstanceAs (Decidable (d = c))
  | .connOnline d => inferInstanceAs (Decidable (d = c))
  | .connOpen d => inferInstanceAs (Decidable (d = c))
  | .connFile d _ => inferInstanceAs (Decidable (d = c))
  | .connPending d => inferInstanceAs (Decidable (d = c))
  | .dmFind _ | .dmCreate _ | .dmInsert _ _ | .dmPublish _ _ | .dmMark _ _ | .drain _ _
  | .drainMark _ _ _ | .live _ | .connOffline _ | .connUnfile _ | .connClose _ | .forward _
  | .ackUpdate _ _ | .ackPublish _ _ | .send _ _ | .done => isFalse id

def Ahead (c : ClientId) (conns : List ClientId) (ts : List Thread) : Prop :=
  c ∉ conns ∨ ∃ t ∈ ts, t.ahead c

instance (c : ClientId) (conns : List ClientId) (ts : List Thread) :
    Decidable (Ahead c conns ts) :=
  inferInstanceAs (Decidable (c ∉ conns ∨ ∃ t ∈ ts, t.ahead c))

/-- The client a thread is connecting. -/
def Thread.connects : Thread → Option ClientId
  | .connRegister d => some d
  | .connOnline d => some d
  | .connOpen d => some d
  | .connFile d _ => some d
  | .connPending d => some d
  | .drain d _ => some d
  | .send (.drain d _ _ _) _ => some d
  | .drainMark d _ _ => some d
  | _ => none

/-- A `Send` that has found a client of `u` has found `c`, and has room on it. -/
def SendAt (c : ClientId) (u : UUID) (k : Kont) : SendPc → Prop
  | .lookup => True
  | .select d => k.toID = u → d = c
  | .evict d => d ≠ c ∧ k.toID ≠ u

/-- What a thread of the run knows; `u` is the user of `c`. -/
def Knows (c : ClientId) (u : UUID) (w : World) : Thread → Prop
  | .send (.dmLive call stored) pc =>
      (stored.id ∈ w.db.messages.keys ∧
        ((stored.id, u) ∈ w.addressed → call.receiverID = u)) ∧
      SendAt c u (.dmLive call stored) pc
  | .dmMark _ stored =>
      stored.id ∈ w.db.messages.keys ∧
        ((stored.id, u) ∈ w.addressed → Enqueued w c stored.id)
  | .connRegister d => d = c
  | .connOnline d => d = c ∧ w.hub.clients u = some c
  | .connOpen d => d = c ∧ w.hub.clients u = some c
  | .connFile d _ => d = c ∧ w.hub.clients u = some c
  | .connPending d => d = c ∧ w.hub.clients u = some c
  | .drain d _ => d = c ∧ w.hub.clients u = some c
  | .send (.drain d v row rest) pc =>
      (d = c ∧ w.hub.clients u = some c ∧ v = u) ∧ SendAt c u (.drain d v row rest) pc
  | .drainMark d row _ =>
      d = c ∧ w.hub.clients u = some c ∧ Enqueued w c row.message.id
  | .send k pc => SendAt c u k pc
  | .ackUpdate _ _ => False
  | _ => True

/-- **THE INVARIANT OF A RUN** that started from the tables `db`. -/
structure Watched (db : Db) (c : ClientId) (u : UUID) (s : Server) : Prop where
  user : s.world.hub.userOf c = u
  slot : ∀ d, s.world.hub.clients u = some d → d = c
  opened : (s.world.hub.chan c).closed = false
  here : s.world.hub.clients u = some c ∨ c ∉ s.conns ∨ .connRegister c ∈ s.threads
  knows : ∀ t ∈ s.threads, Knows c u s.world t
  marked : ∀ m ∈ s.world.db.messages.rows, Awaits db s.world u m →
    m.status ≠ .sent → Enqueued s.world c m.id
  placed : ∀ m ∈ s.world.db.messages.rows, Awaits db s.world u m →
    Enqueued s.world c m.id ∨ Ahead c s.conns s.threads ∨ ∃ t ∈ s.threads, m.id ∈ t.pots

/-- What a thread knows stays true while others move. -/
theorem Knows.mono {c : ClientId} {u : UUID} {w w' : World} {t : Thread}
    (h : Knows c u w t) (hg : Grows w w')
    (hslot : w.hub.clients u = some c → w'.hub.clients u = some c) : Knows c u w' t := by
  cases t with
  | dmMark call stored =>
      obtain ⟨hkey, henq⟩ := h
      exact ⟨hg.keys _ hkey, fun ha => (henq (hg.addressed_of hkey ha)).mono hg⟩
  | connOnline d => exact ⟨h.1, hslot h.2⟩
  | connOpen d => exact ⟨h.1, hslot h.2⟩
  | connFile d sub => exact ⟨h.1, hslot h.2⟩
  | connPending d => exact ⟨h.1, hslot h.2⟩
  | drain d rows => exact ⟨h.1, hslot h.2⟩
  | drainMark d row rest => exact ⟨h.1, hslot h.2.1, h.2.2.mono hg⟩
  | send k pc =>
      cases k with
      | dmLive call stored =>
          obtain ⟨⟨hkey, hrecv⟩, hat⟩ := h
          exact ⟨⟨hg.keys _ hkey, fun ha => hrecv (hg.addressed_of hkey ha)⟩, hat⟩
      | drain d v row rest =>
          obtain ⟨⟨hd, hcl, hv⟩, hat⟩ := h
          exact ⟨⟨hd, hslot hcl, hv⟩, hat⟩
      | _ => exact h
  | _ => exact h

/-! ## What one step of a thread does -/

/-- The client stays registered, alone and open. -/
structure Held (c : ClientId) (u : UUID) (w w' : World) : Prop where
  slot : ∀ d, w'.hub.clients u = some d → d = c
  opened : (w'.hub.chan c).closed = false
  stays : w.hub.clients u = some c → w'.hub.clients u = some c

theorem Held.of_hub {c : ClientId} {u : UUID} {w w' : World}
    (hclients : w'.hub.clients = w.hub.clients) (hchan : w'.hub.chan c = w.hub.chan c)
    (hslot : ∀ d, w.hub.clients u = some d → d = c)
    (hopen : (w.hub.chan c).closed = false) : Held c u w w' where
  slot := by
    rw [hclients]
    exact hslot
  opened := by
    rw [hchan]
    exact hopen
  stays := by
    rw [hclients]
    exact fun h => h

/-- `Unregister` of another client. -/
theorem Held.of_unregister {c d : ClientId} {u : UUID} {w : World} (hd : d ≠ c)
    (hslot : ∀ d, w.hub.clients u = some d → d = c)
    (hopen : (w.hub.chan c).closed = false) :
    Held c u w { w with hub := w.hub.unregister d } where
  slot := fun e he => hslot e (clients_of_unregister he).1
  opened := by
    show ((w.hub.unregister d).chan c).closed = false
    rw [unregister_chan_ne w.hub (Ne.symm hd)]
    exact hopen
  stays := fun hc => clients_unregister_of_ne hc hd

theorem held_of_step {c : ClientId} {u : UUID} {w w' : World} {env : Env} {t t' : Thread}
    {new : List Thread} (h : ThreadStep w env t w' t' new) (huser : w.hub.userOf c = u)
    (hslot : ∀ d, w.hub.clients u = some d → d = c)
    (hopen : (w.hub.chan c).closed = false) (hk : Knows c u w t)
    (hsmooth : smooth c w env t = true) : Held c u w w' := by
  cases h with
  | quiet hdb hhub haddr hq => exact Held.of_hub (by rw [hhub]) (by rw [hhub]) hslot hopen
  | sendGoto k pc pc' hub hs =>
      cases hs with
      | found d hd => exact Held.of_hub rfl rfl hslot hopen
      | full d hopen' hfull => exact Held.of_hub rfl rfl hslot hopen
  | sendReturned k pc hub ok hs =>
      cases hs with
      | offline hno => exact Held.of_hub rfl rfl hslot hopen
      | sent d ch hch =>
          refine ⟨hslot, ?_, fun hc => hc⟩
          show ((w.hub.push d ch k.data).chan c).closed = false
          rw [push_closed hch]
          exact hopen
      | panic d hcl => exact Held.of_hub rfl rfl hslot hopen
      | evict d =>
          have hat : SendAt c u k (.evict d) := by
            cases k with
            | dmLive call stored => exact hk.2
            | drain e v row rest => exact hk.2
            | _ => exact hk
          exact Held.of_unregister hat.1 hslot hopen
  | marked call stored =>
      exact Held.of_hub (by rw [markDelivered_hub]) (by rw [markDelivered_hub]) hslot hopen
  | drainMarked d row rest =>
      exact Held.of_hub (by rw [markDelivered_hub]) (by rw [markDelivered_hub]) hslot hopen
  | registered d =>
      have hd : d = c := hk
      have hself : (w.hub.register d).clients u = some c := by
        rw [hd, ← huser]
        exact register_clients_self w.hub c
      refine ⟨?_, hopen, fun _ => hself⟩
      intro e he
      exact (Option.some.inj (hself.symm.trans he)).symm
  | ended d => exact Held.of_unregister (of_decide_eq_true hsmooth) hslot hopen
  | _ => exact Held.of_hub rfl rfl hslot hopen

/-- A thread about to send a message of `u` sends it to `u`. -/
theorem toID_of_pot {c : ClientId} {u : UUID} {w : World} {k : Kont} {pc : SendPc}
    (hk : Knows c u w (.send k pc)) {id : UUID} (hid : id ∈ k.pot)
    (ha : (id, u) ∈ w.addressed) : k.toID = u ∧ SendAt c u k pc := by
  cases k with
  | dmLive call stored =>
      rw [List.mem_singleton.mp hid] at ha
      exact ⟨hk.1.2 ha, hk.2⟩
  | drain d v row rest => exact ⟨hk.1.2.2, hk.2⟩
  | _ => cases hid

/-- Is the message about to be published? -/
def Thread.publishes (id : UUID) : Thread → Prop
  | .dmPublish _ stored => stored.id = id
  | _ => False

/-- **A POT IS EMPTIED INTO THE QUEUE OF `c`**, unless there is no client yet. -/
theorem pot_of_step {c : ClientId} {u : UUID} {w w' : World} {env : Env} {t t' : Thread}
    {new : List Thread} (h : ThreadStep w env t w' t' new)
    (hopen : (w.hub.chan c).closed = false) (hk : Knows c u w t)
    (hsmooth : smooth c w env t = true) {id : UUID} (hid : id ∈ t.pots)
    (ha : (id, u) ∈ w.addressed) :
    id ∈ t'.pots ∨ Enqueued w' c id ∨ (w.hub.clients u = none ∧ t'.publishes id) := by
  cases h with
  | quiet hdb hhub haddr hq =>
      rw [(pots_quiet hq).1]
      exact Or.inl hid
  | sendGoto k pc pc' hub hs =>
      rcases List.mem_append.mp hid with hpot | hrest
      · cases hs with
        | found d hd => exact Or.inl hid
        | full d hopen' hfull =>
            -- the client found was `c`, and `c` has room
            obtain ⟨hto, hat⟩ := toID_of_pot hk hpot ha
            have hd : d = c := hat hto
            have hroom := of_decide_eq_true hsmooth hd
            rw [hd] at hfull
            omega
      · exact Or.inl (List.mem_append_right _ hrest)
  | sendReturned k pc hub ok hs =>
      rcases List.mem_append.mp hid with hpot | hrest
      · cases hs with
        | offline hno =>
            obtain ⟨hto, -⟩ := toID_of_pot hk hpot ha
            rw [hto] at hno
            refine Or.inr (Or.inr ⟨hno, ?_⟩)
            cases k with
            | dmLive call stored => exact (List.mem_singleton.mp hpot).symm
            | drain e v row rest =>
                rw [hk.1.2.1] at hno
                cases hno
            | _ => cases hpot
        | sent d ch hch =>
            obtain ⟨hto, hat⟩ := toID_of_pot hk hpot ha
            rw [← hat hto]
            exact Or.inr (Or.inl (enqueued_of_push w d ch hpot))
        | panic d hcl =>
            obtain ⟨hto, hat⟩ := toID_of_pot hk hpot ha
            have hd : d = c := hat hto
            rw [hd, hopen] at hcl
            cases hcl
        | evict d => cases hpot
      · left
        rw [pots_resume]
        exact hrest
  | drainMarked d row rest => exact Or.inl hid
  | _ => cases hid

theorem knows_quiet {c : ClientId} {u : UUID} {w : World} {t t' : Thread}
    {new : List Thread} (h : Quiet w t t' new) (huser : w.hub.userOf c = u)
    (hk : Knows c u w t) : Knows c u w t' ∧ ∀ v ∈ new, Knows c u w v := by
  cases h with
  | online d => exact ⟨hk, fun v hv => (by cases hv)⟩
  | opened d sub => exact ⟨hk, fun v hv => (by cases hv)⟩
  | filed d sub =>
      refine ⟨hk, ?_⟩
      intro v hv
      rw [List.mem_singleton.mp hv]
      trivial
  | drainNext d row rest =>
      obtain ⟨hd, hcl⟩ := hk
      refine ⟨⟨⟨hd, hcl, ?_⟩, trivial⟩, fun v hv => (by cases hv)⟩
      rw [hd]
      exact huser
  | _ => exact ⟨trivial, fun v hv => (by cases hv)⟩

/-- What a thread knows after its `Send` has returned. -/
theorem knows_resume {c : ClientId} {u : UUID} {w : World} {k : Kont} {pc : SendPc}
    {hub : Hub Frame} {ok : Bool} (hs : SendStep w.hub k.toID k.data pc hub (.returned ok))
    (hopen : (w.hub.chan c).closed = false) (hk : Knows c u w (.send k pc))
    (hheld : Held c u w { w with hub := hub }) :
    Knows c u { w with hub := hub } (k.resume ok) := by
  -- a `Send` that went through enqueued its frame on `c`
  have henq : ∀ d ch, k.toID = u → SendAt c u k (.select d) → ∀ id ∈ k.pot,
      Enqueued { w with hub := w.hub.push d ch k.data } c id := by
    intro d ch hto hat id hid
    rw [← hat hto]
    exact enqueued_of_push w d ch hid
  cases k with
  | dmLive call stored =>
      obtain ⟨⟨hkey, hrecv⟩, hat⟩ := hk
      cases hs with
      | sent d ch hch =>
          refine ⟨hkey, fun ha => ?_⟩
          exact henq d ch (hrecv ha) hat stored.id (List.mem_singleton.mpr rfl)
      | offline hno => trivial
      | panic d hcl => trivial
      | evict d => trivial
  | drain d v row rest =>
      obtain ⟨⟨hd, hcl, hv⟩, hat⟩ := hk
      refine ⟨hd, hheld.stays hcl, ?_⟩
      cases hs with
      | sent e ch hch => exact henq e ch hv hat row.message.id (List.mem_singleton.mpr rfl)
      | offline hno =>
          change w.hub.clients v = none at hno
          rw [hv, hcl] at hno
          cases hno
      | panic e hclosed =>
          have he : e = c := hat hv
          rw [he, hopen] at hclosed
          cases hclosed
      | evict e => exact absurd hv hat.2
  | ackNotify senderID messageID => cases ok <;> trivial
  | _ => trivial

theorem knows_of_step {c : ClientId} {u : UUID} {w w' : World} {env : Env} {t t' : Thread}
    {new : List Thread} (h : ThreadStep w env t w' t' new) (huser : w.hub.userOf c = u)
    (hslot : ∀ d, w.hub.clients u = some d → d = c)
    (hopen : (w.hub.chan c).closed = false)
    (hknown : ∀ p ∈ w.addressed, p.1 ∈ w.db.messages.keys) (hk : Knows c u w t)
    (hsmooth : smooth c w env t = true) :
    Knows c u w' t' ∧ ∀ v ∈ new, Knows c u w' v := by
  have hheld := held_of_step h huser hslot hopen hk hsmooth
  have hg := h.grows
  cases h with
  | quiet hdb hhub haddr hq =>
      obtain ⟨hself, hnew⟩ := knows_quiet hq huser hk
      exact ⟨hself.mono hg hheld.stays, fun v hv => (hnew v hv).mono hg hheld.stays⟩
  | stored call chatID db stored hi =>
      obtain ⟨-, hst⟩ := insertMessage_ok hi
      refine ⟨⟨⟨?_, ?_⟩, trivial⟩, fun v hv => (by cases hv)⟩
      · refine mem_keys.mpr ⟨stored, ?_, rfl⟩
        show stored ∈ db.messages.rows
        rw [hst.messages]
        exact List.mem_concat_self
      · intro ha
        rcases List.mem_append.mp ha with hold | hnew
        · exact absurd (hknown _ hold) hst.fresh
        · exact (congrArg Prod.snd (List.mem_singleton.mp hnew)).symm
  | sendGoto k pc pc' hub hs =>
      refine ⟨?_, fun v hv => (by cases hv)⟩
      have hat : SendAt c u k pc := by
        cases k with
        | dmLive call stored => exact hk.2
        | drain d v row rest => exact hk.2
        | _ => exact hk
      have hat' : SendAt c u k pc' := by
        cases hs with
        | found d hd =>
            intro hto
            rw [hto] at hd
            exact hslot d hd
        | full d hopen' hfull =>
            have hne : d ≠ c := by
              intro hd
              have hroom := of_decide_eq_true hsmooth hd
              rw [hd] at hfull
              omega
            exact ⟨hne, fun hto => hne (hat hto)⟩
      cases hs with
      | found d hd =>
          cases k with
          | dmLive call stored => exact ⟨hk.1, hat'⟩
          | drain d v row rest => exact ⟨hk.1, hat'⟩
          | _ => exact hat'
      | full d hopen' hfull =>
          cases k with
          | dmLive call stored => exact ⟨hk.1, hat'⟩
          | drain d v row rest => exact ⟨hk.1, hat'⟩
          | _ => exact hat'
  | sendReturned k pc hub ok hs =>
      exact ⟨knows_resume hs hopen hk hheld, fun v hv => (by cases hv)⟩
  | drainMarked d row rest => exact ⟨⟨hk.1, hheld.stays hk.2.1⟩, fun v hv => (by cases hv)⟩
  | registered d =>
      refine ⟨⟨hk, ?_⟩, fun v hv => (by cases hv)⟩
      have hd : d = c := hk
      show (w.hub.register d).clients u = some c
      rw [hd, ← huser]
      exact register_clients_self w.hub c
  | pending d rows hr => exact ⟨hk, fun v hv => (by cases hv)⟩
  | acked readerID call hok => exact False.elim hk
  | _ => exact ⟨trivial, fun v hv => (by cases hv)⟩

/-- The connection moves on towards its snapshot, or takes it. -/
theorem ahead_of_step {c : ClientId} {w w' : World} {env : Env} {t t' : Thread}
    {new : List Thread} (h : ThreadStep w env t w' t' new) (hsmooth : smooth c w env t = true)
    (hahead : t.ahead c) : t'.ahead c ∨ ∃ rows, t' = .drain c rows ∧ w' = w ∧
      (w.db.pendingRows (w.hub.userOf c)).length ≤ pendingLimit ∧
      w.db.getPendingMessages env (w.hub.userOf c) = .ok rows := by
  cases h with
  | quiet hdb hhub haddr hq =>
      left
      cases hq with
      | online d => exact hahead
      | opened d sub => exact hahead
      | filed d sub => exact hahead
      | _ => exact False.elim hahead
  | registered d => exact Or.inl hahead
  | pending d rows hr =>
      have hd : d = c := hahead
      rw [hd] at hr ⊢
      exact Or.inr ⟨rows, rfl, rfl, (of_decide_eq_true hsmooth).2, hr⟩
  | pendingFailed d hfail =>
      rw [(of_decide_eq_true hsmooth).1] at hfail
      cases hfail
  | _ => exact False.elim hahead

/-- The client that is being connected is `c`. -/
theorem Knows.connects {c d : ClientId} {u : UUID} {w : World} {t : Thread}
    (hk : Knows c u w t) (hd : t.connects = some d) : d = c := by
  cases t with
  | connRegister e => cases hd; exact hk
  | connOnline e => cases hd; exact hk.1
  | connOpen e => cases hd; exact hk.1
  | connFile e k => cases hd; exact hk.1
  | connPending e => cases hd; exact hk.1
  | drain e rows => cases hd; exact hk.1
  | drainMark e row rest => cases hd; exact hk.1
  | send k pc =>
      cases k with
      | drain e v row rest => cases hd; exact hk.1.1
      | _ => cases hd
  | _ => cases hd

/-- Whoever marks a message of `u` has enqueued it. -/
theorem Knows.enqueued_of_sets {c : ClientId} {u : UUID} {w : World} {t : Thread}
    (hk : Knows c u w t) {id : UUID} {st : Status} (hsets : t.sets = some (id, st))
    (ha : (id, u) ∈ w.addressed) : Enqueued w c id := by
  cases t with
  | dmMark call stored =>
      have heq : stored.id = id := congrArg Prod.fst (Option.some.inj hsets)
      rw [← heq] at ha ⊢
      exact hk.2 ha
  | drainMark d row rest =>
      have heq : row.message.id = id := congrArg Prod.fst (Option.some.inj hsets)
      rw [← heq]
      exact hk.2.2
  | ackUpdate readerID call => exact False.elim hk
  | _ => cases hsets

/-- A snapshot that is not cut off has every message that is not marked yet. -/
theorem pot_of_snapshot {db : Db} {env : Env} {c : ClientId} {u : UUID}
    {rows : List PendingMessage} (hr : db.getPendingMessages env u = .ok rows)
    (hle : (db.pendingRows u).length ≤ pendingLimit) {m : Message}
    (hm : m ∈ db.messages.rows) (hmember : db.Member m.chatID u) (hother : m.senderID ≠ u)
    (hst : m.status = .sent) : m.id ∈ (Thread.drain c rows).pots := by
  obtain ⟨p, hp, hpm⟩ := exists_pendingRow hm hmember hother hst
  rw [← hpm]
  exact List.mem_map_of_mem ((getPendingMessages_ok hr).2.2 hle p hp)

/-- A row that awaits after a step, and was there before, did so before. -/
theorem Awaits.back {db : Db} {u : UUID} {w w' : World} {m m' : Message}
    (ha : Awaits db w' u m') (hg : Grows w w') (hm : m ∈ w.db.messages.rows)
    (hid : m.id = m'.id) (hsender : m.senderID = m'.senderID) : Awaits db w u m := by
  have hkey : m'.id ∈ w.db.messages.keys := hid ▸ key_mem_keys hm
  refine ⟨?_, ?_, ?_⟩
  · rw [hid]
    exact hg.addressed_of hkey ha.addressed
  · rw [hsender]
    exact ha.other
  · rw [hid]
    exact ha.unsent

/-! ## Every run -/

variable {db : Db} {c : ClientId} {u : UUID}

theorem watched_start {s : Server} (h : Offline c s) (hu : s.world.hub.userOf c = u) :
    Watched s.world.db c u s := by
  subst hu
  have hsent : ∀ m ∈ s.world.db.messages.rows,
      Awaits s.world.db s.world (s.world.hub.userOf c) m → m.status = .sent :=
    fun m hm ha => ha.unsent m hm rfl
  refine ⟨rfl, ?_, h.opened, Or.inr (Or.inl h.fresh), ?_, ?_, ?_⟩
  · intro d hd
    rw [h.offline] at hd
    cases hd
  · intro t ht
    have hidle := h.idle t ht
    cases t with
    | live d => trivial
    | forward sub => trivial
    | done => trivial
    | _ => exact False.elim hidle
  · exact fun m hm ha hst => absurd (hsent m hm ha) hst
  · exact fun m hm ha => Or.inr (Or.inl (Or.inl h.fresh))

/-- What the pumps and Redis do changes nothing of it. -/
theorem watched_of_same {s t : Server} (hi : Watched db c u s)
    (hdb : t.world.db = s.world.db) (haddr : t.world.addressed = s.world.addressed)
    (hclients : t.world.hub.clients = s.world.hub.clients)
    (husers : ∀ d, t.world.hub.userOf d = s.world.hub.userOf d)
    (hclosed : (t.world.hub.chan c).closed = (s.world.hub.chan c).closed)
    (hlog : t.world.hub.log = s.world.hub.log) (hthreads : t.threads = s.threads)
    (hconns : t.conns = s.conns) : Watched db c u t := by
  have hg : Grows s.world t.world := by
    refine Grows.of_same (by rw [hdb]) (by rw [hdb]) husers ?_ haddr
    rw [hlog]
    exact fun _ he => he
  have hawaits : ∀ m, Awaits db t.world u m → Awaits db s.world u m := by
    intro m ha
    have haddressed := ha.addressed
    rw [haddr] at haddressed
    exact ⟨haddressed, ha.other, ha.unsent⟩
  refine ⟨(husers c).trans hi.user, ?_, hclosed.trans hi.opened, ?_, ?_, ?_, ?_⟩
  · rw [hclients]
    exact hi.slot
  · rw [hclients, hconns, hthreads]
    exact hi.here
  · rw [hthreads]
    intro v hv
    refine (hi.knows v hv).mono hg ?_
    rw [hclients]
    exact fun h => h
  · rw [hdb]
    exact fun m hm ha hst => (hi.marked m hm (hawaits m ha) hst).mono hg
  · rw [hdb, hconns, hthreads]
    exact fun m hm ha => (hi.placed m hm (hawaits m ha)).imp (fun h => h.mono hg) fun h => h

/-- A handler that starts. -/
theorem watched_spawn {s : Server} {t : Thread} {conns : List ClientId}
    (hi : Watched db c u s) (ht : Knows c u s.world t)
    (hhere : c ∉ conns ∨ c ∈ s.conns ∨ t = .connRegister c) :
    Watched db c u { s with threads := s.threads ++ [t], conns := conns } := by
  have hself : t ∈ s.threads ++ [t] := List.mem_concat_self
  refine ⟨hi.user, hi.slot, hi.opened, ?_, ?_, hi.marked, ?_⟩
  · rcases hi.here with hcl | hnew | hreg
    · exact Or.inl hcl
    · rcases hhere with h | h | h
      · exact Or.inr (Or.inl h)
      · exact absurd h hnew
      · rw [h] at hself ⊢
        exact Or.inr (Or.inr hself)
    · exact Or.inr (Or.inr (List.mem_append_left _ hreg))
  · intro v hv
    rcases List.mem_append.mp hv with hold | hnew
    · exact hi.knows v hold
    · rw [List.mem_singleton.mp hnew]
      exact ht
  · intro m hm ha
    rcases hi.placed m hm ha with henq | (hnew | ⟨v, hv, hahead⟩) | ⟨v, hv, hpot⟩
    · exact Or.inl henq
    · rcases hhere with h | h | h
      · exact Or.inr (Or.inl (Or.inl h))
      · exact absurd h hnew
      · refine Or.inr (Or.inl (Or.inr ⟨t, hself, ?_⟩))
        rw [h]
        exact rfl
    · exact Or.inr (Or.inl (Or.inr ⟨v, List.mem_append_left _ hv, hahead⟩))
    · exact Or.inr (Or.inr ⟨v, List.mem_append_left _ hv, hpot⟩)

/-- **WHERE A MESSAGE IS AFTER A STEP**: enqueued, ahead of the snapshot, or in a
    pot. -/
theorem placed_of_step {s : Server} {i : Nat} {env : Env} {t t' : Thread} {w' : World}
    {new : List Thread} (hl : Ledger s) (hi : Watched db c u s)
    (ht : s.threads[i]? = some t) (h : ThreadStep s.world env t w' t' new)
    (hsmooth : smooth c s.world env t = true) {m : Message}
    (hm : m ∈ s.world.db.messages.rows) (ha : Awaits db s.world u m) :
    Enqueued w' c m.id ∨ Ahead c s.conns (moved s.threads i t' new) ∨
      ∃ v ∈ moved s.threads i t' new, m.id ∈ v.pots := by
  have hmem : t ∈ s.threads := List.mem_of_getElem? ht
  have hk := hi.knows t hmem
  have hself : t' ∈ moved s.threads i t' new := self_mem_moved ht
  rcases hi.placed m hm ha with henq | (hnew | ⟨v, hv, hahead⟩) | ⟨v, hv, hpot⟩
  · exact Or.inl (henq.mono h.grows)
  · exact Or.inr (Or.inl (Or.inl hnew))
  · rcases mem_moved_of_mem ht hv with rfl | hin
    · rcases ahead_of_step h hsmooth hahead with hahead' | ⟨rows, rfl, rfl, hle, hr⟩
      · exact Or.inr (Or.inl (Or.inr ⟨t', hself, hahead'⟩))
      · -- the snapshot: whatever is not marked yet is among its rows
        by_cases hst : m.status = .sent
        · rw [hi.user] at hr hle
          exact Or.inr (Or.inr ⟨_, hself, pot_of_snapshot hr hle hm
            (hl.members m hm u ha.addressed) ha.other hst⟩)
        · exact Or.inl ((hi.marked m hm ha hst).mono h.grows)
    · exact Or.inr (Or.inl (Or.inr ⟨v, hin, hahead⟩))
  · rcases mem_moved_of_mem ht hv with rfl | hin
    · rcases pot_of_step h hi.opened hk hsmooth hpot ha.addressed with hpot' | henq | ⟨hnone, -⟩
      · exact Or.inr (Or.inr ⟨t', hself, hpot'⟩)
      · exact Or.inl henq
      · -- no client was there to be found, so the snapshot is still to come
        rcases hi.here with hcl | hnew | hreg
        · rw [hnone] at hcl
          cases hcl
        · exact Or.inr (Or.inl (Or.inl hnew))
        · rcases mem_moved_of_mem ht hreg with rfl | hin
          · cases hpot
          · exact Or.inr (Or.inl (Or.inr ⟨_, hin, rfl⟩))
    · exact Or.inr (Or.inr ⟨v, hin, hpot⟩)

theorem watched_run {s : Server} {i : Nat} {env : Env} {t t' : Thread} {w' : World}
    {new : List Thread} {sockets : ClientId → Socket} (hl : Ledger s)
    (hi : Watched db c u s) (ht : s.threads[i]? = some t) (h : ThreadStep s.world env t w' t' new)
    (hsmooth : smooth c s.world env t = true) :
    Watched db c u ⟨w', moved s.threads i t' new, sockets, s.conns⟩ := by
  have hmem : t ∈ s.threads := List.mem_of_getElem? ht
  have hk := hi.knows t hmem
  have hg := h.grows
  have hheld := held_of_step h hi.user hi.slot hi.opened hk hsmooth
  obtain ⟨hk', hnew⟩ :=
    knows_of_step h hi.user hi.slot hi.opened hl.known hk hsmooth
  refine ⟨(hg.users c).trans hi.user, hheld.slot, hheld.opened, ?_, ?_, ?_, ?_⟩
  · rcases hi.here with hcl | hfresh | hreg
    · exact Or.inl (hheld.stays hcl)
    · exact Or.inr (Or.inl hfresh)
    · rcases mem_moved_of_mem ht hreg with rfl | hin
      · cases h with
        | quiet hdb hhub haddr hq => cases hq
        | registered d => exact Or.inl hk'.2
      · exact Or.inr (Or.inr hin)
  · intro v hv
    rcases mem_moved hv with hold | rfl | hin
    · exact (hi.knows v hold).mono hg hheld.stays
    · exact hk'
    · exact hnew v hin
  · intro m' hm' ha hst
    rcases row_of_step h hm' with ⟨m, hm, hid, -, hsender, hkeep | hsets⟩ |
      ⟨call, -, -, -, hsent, -⟩
    · rw [← hid]
      refine (hi.marked m hm (ha.back hg hm hid hsender) ?_).mono hg
      rw [← hkeep]
      exact hst
    · have haddressed := (ha.back hg hm hid hsender).addressed
      rw [hid] at haddressed
      exact (hk.enqueued_of_sets hsets haddressed).mono hg
    · exact absurd hsent hst
  · intro m' hm' ha
    rcases row_of_step h hm' with ⟨m, hm, hid, -, hsender, -⟩ | ⟨call, -, rfl, -⟩
    · rw [← hid]
      exact placed_of_step hl hi ht h hsmooth hm (ha.back hg hm hid hsender)
    · exact Or.inr (Or.inr ⟨_, self_mem_moved ht, List.mem_singleton.mpr rfl⟩)

theorem watched_step {s t : Server} {a : Action} (hl : Ledger s) (hi : Watched db c u s)
    (hG : OneConnection c s a) (h : Stepped s a t) : Watched db c u t := by
  cases h with
  | dm call =>
      refine watched_spawn hi trivial ?_
      by_cases hc : c ∈ s.conns
      · exact Or.inr (Or.inl hc)
      · exact Or.inl hc
  | connect d hd =>
      have hdc : d = c := hG
      rw [hdc]
      exact watched_spawn hi rfl (Or.inr (Or.inr rfl))
  | ack readerID call => exact False.elim hG
  | run i env th w th' new hth hstep => exact watched_run hl hi hth hstep (hG th hth)
  | activate sub => exact watched_of_same hi rfl rfl rfl (fun _ => rfl) rfl rfl rfl rfl
  | pumpWrite d ok f rest _ _ =>
      exact watched_of_same hi rfl rfl rfl (fun e => popHub_userOf s.world.hub d e)
        (popHub_closed s.world.hub d c) rfl rfl rfl
  | pumpStop d _ => exact watched_of_same hi rfl rfl rfl (fun _ => rfl) rfl rfl rfl rfl

/-- A thread that has returned holds nothing. -/
theorem returned_holds_nothing {t : Thread} (h : t.returned = true) :
    ¬ t.ahead c ∧ t.pots = [] := by
  cases t with
  | send k pc =>
      cases k with
      | forward sub userID payload =>
          refine ⟨id, ?_⟩
          cases pc <;> rfl
      | _ => cases h
  | live d => exact ⟨id, rfl⟩
  | connOffline d => exact ⟨id, rfl⟩
  | connUnfile d => exact ⟨id, rfl⟩
  | connClose sub => exact ⟨id, rfl⟩
  | forward sub => exact ⟨id, rfl⟩
  | done => exact ⟨id, rfl⟩
  | _ => cases h

/-- **AT LEAST ONCE**: when a user who was offline has connected, once, and all
    handlers have returned, every message addressed to the user by another one,
    left 'sent' from before or stored meanwhile, has been enqueued on the
    connection. -/
theorem no_stranded_message {s₀ s : Server} (h₀ : Offline c s₀)
    (h : Reach step (OneConnection c) s₀ s) (hconn : c ∈ s.conns)
    (hreturned : ∀ t ∈ s.threads, t.returned = true) :
    ∀ m ∈ s.world.db.messages.rows,
      Awaits s₀.world.db s.world (s₀.world.hub.userOf c) m → Enqueued s.world c m.id := by
  have hi : Watched s₀.world.db c (s₀.world.hub.userOf c) s :=
    Reach.invariant_using
      (fun _ hr => Reach.invariant (fun _ _ _ hs _ ht => ledger_step hs (step_cases ht)) hr
        h₀.ledger)
      (fun _ _ _ hl hs hG ht => watched_step hl hs hG (step_cases ht)) h
      (watched_start h₀ rfl)
  intro m hm ha
  rcases hi.placed m hm ha with henq | (hnew | ⟨t, ht, hahead⟩) | ⟨t, ht, hpot⟩
  · exact henq
  · exact absurd hconn hnew
  · exact absurd hahead (returned_holds_nothing (hreturned t ht)).1
  · rw [(returned_holds_nothing (c := c) (hreturned t ht)).2] at hpot
    cases hpot

/-- Bob's call finds Alice offline; she connects before it has published. -/
theorem no_stranded_message_offline : ∃ s : Server,
    Reach step (OneConnection 0) (start threeUsers oneUser) s ∧
      ∃ m ∈ s.world.db.messages.rows, Awaits threeUsers s.world ⟨1⟩ m ∧
        Enqueued s.world 0 m.id := by
  have hoffline : Offline 0 (start threeUsers oneUser) :=
    ⟨fun _ ht => (by cases ht), by decide, rfl, rfl, ledger_of_reach (Reach.refl _)⟩
  obtain ⟨s, hs, hconn, hreturned, m, hm, haddr, hother⟩ :=
    exists_reach_of_replayGuarded step (OneConnection 0) (start threeUsers oneUser)
      (.dm bobsCall :: List.replicate 4 (.run 0 fineEnv) ++
        .connect 0 :: List.replicate 5 (.run 1 fineEnv) ++
        List.replicate 2 (.run 0 fineEnv) ++ List.replicate 5 (.run 1 fineEnv))
      (fun s => 0 ∈ s.conns ∧ (∀ t ∈ s.threads, t.returned = true) ∧
        ∃ m ∈ s.world.db.messages.rows, (m.id, ⟨1⟩) ∈ s.world.addressed ∧
          m.senderID ≠ ⟨1⟩) (by decide +kernel)
  have hawaits : Awaits threeUsers s.world ⟨1⟩ m :=
    ⟨haddr, hother, fun _ hm₀ => by cases hm₀⟩
  exact ⟨s, hs, m, hm, hawaits, no_stranded_message hoffline hs hconn hreturned m hm hawaits⟩

end PeerServer
