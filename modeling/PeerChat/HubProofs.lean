import PeerChat.EnvProofs
import PeerChat.BufferedChanProofs

/-! # The hub of `ws/hub.go`

    One map from user to client under a lock, and a buffered send channel in
    every client.  `Send` is not one critical section: it looks the client up
    under `RLock`, and sends on its channel after the lock is released, so its
    steps are kept apart here (`SendPc`, `stepSend`) and `Hub.send` is the three
    of them in one go.

    The payload type is a parameter: the hub never reads what it carries.  A
    history variable `log` records every channel send that went through. -/

namespace PeerHub

open PeerEnv BufferedChan

/-- A `*Client`. -/
abbrev ClientId := Nat

/-- `Client`: the object a `*Client` points to. -/
structure Client (β : Type) where
  userID : UUID
  username : String
  send : Chan β

/-- The buffer size of `newRealClient` and `NewTestClient`. -/
def sendBuffer : Nat := 256

/-- `newRealClient`. -/
def newRealClient {β : Type} (userID : UUID) (username : String) : Client β :=
  ⟨userID, username, make sendBuffer⟩

/-- The runtime panics that end the process. -/
inductive Panic where
  | sendOnClosed
  | closeOfClosed
  deriving DecidableEq, Repr

/-- `Hub`, with the heap its pointers go to.  `Register` files a client under
    its own user, so no map entry ever points to somebody else's client. -/
structure Hub (β : Type) where
  clients : UUID → Option ClientId
  heap : ClientId → Client β
  log : List (ClientId × β)
  panic : Option Panic
  owned : ∀ u c, clients u = some c → (heap c).userID = u

variable {β : Type}

/-- The user a client belongs to. -/
def Hub.userOf (h : Hub β) (c : ClientId) : UUID := (h.heap c).userID

/-- The channel of a client. -/
def Hub.chan (h : Hub β) (c : ClientId) : Chan β := (h.heap c).send

/-- `NewHub`, over a heap of clients that are not registered yet. -/
def newHub (heap : ClientId → Client β) : Hub β :=
  ⟨fun _ => none, heap, [], none, by intro u c h; cases h⟩

/-- One user behind every connection; the concrete runs start from it. -/
def oneUser (_ : ClientId) : UUID × String := (⟨1⟩, "alice")

/-- The hub with the channel of `c` replaced. -/
def Hub.setChan (h : Hub β) (c : ClientId) (ch : Chan β) : Hub β :=
  { h with
    heap := Function.update h.heap c { h.heap c with send := ch }
    owned := by
      intro u d hd
      have huser : (Function.update h.heap c { h.heap c with send := ch } d).userID
          = (h.heap d).userID := by
        by_cases hdc : d = c
        · rw [hdc, Function.update_self]
        · rw [Function.update_of_ne hdc]
      rw [huser]
      exact h.owned u d hd }

/-- `Register`. -/
def Hub.register (h : Hub β) (c : ClientId) : Hub β :=
  { h with
    clients := Function.update h.clients (h.userOf c) (some c)
    owned := by
      intro u d hd
      by_cases hu : u = h.userOf c
      · rw [hu, Function.update_self] at hd
        rw [hu, ← Option.some.inj hd]
        rfl
      · rw [Function.update_of_ne hu] at hd
        exact h.owned u d hd }

/-- The map entry that `Unregister(c)` deletes. -/
def Hub.dropEntry (h : Hub β) (u : UUID) : Hub β :=
  { h with
    clients := Function.update h.clients u none
    owned := by
      intro v d hd
      by_cases hv : v = u
      · rw [hv, Function.update_self] at hd
        cases hd
      · rw [Function.update_of_ne hv] at hd
        exact h.owned v d hd }

/-- `existing, ok := h.clients[c.UserID]; ok && existing == c`. -/
def Hub.holds (h : Hub β) (c : ClientId) : Prop := h.clients (h.userOf c) = some c

instance (h : Hub β) (c : ClientId) : Decidable (h.holds c) :=
  inferInstanceAs (Decidable (_ = _))

/-- `Unregister`: delete the entry and close the channel, only if the entry is
    this very client. -/
def Hub.unregister (h : Hub β) (c : ClientId) : Hub β :=
  if h.holds c then
    let dropped := (h.dropEntry (h.userOf c)).setChan c (h.chan c).close
    { dropped with
      panic := if (h.chan c).closed then some .closeOfClosed else h.panic }
  else h

/-- Where a `Send` call stands. -/
inductive SendPc where
  | lookup
  | select (c : ClientId)
  | evict (c : ClientId)
  deriving DecidableEq, Repr

/-- A `Send` call goes on, or has returned. -/
inductive SendNext where
  | goto (pc : SendPc)
  | returned (ok : Bool)
  deriving DecidableEq, Repr

/-- The channel send that went through. -/
def Hub.push (h : Hub β) (c : ClientId) (ch : Chan β) (data : β) : Hub β :=
  { h.setChan c ch with log := h.log ++ [(c, data)] }

/-- One atomic step of `Send(toID, data)`. -/
def stepSend (h : Hub β) (toID : UUID) (data : β) : SendPc → Hub β × SendNext
  -- the map read under RLock
  | .lookup => match h.clients toID with
    | none => (h, .returned false)
    | some c => (h, .goto (.select c))
  -- the select, after RUnlock
  | .select c => match (h.chan c).offer data with
    | .sent ch => (h.push c ch data, .returned true)
    | .full => (h, .goto (.evict c))
    | .panic => ({ h with panic := some .sendOnClosed }, .returned false)
  -- the default branch: drop connection
  | .evict c => (h.unregister c, .returned false)

/-- `Send` with nothing in between its steps. -/
def Hub.send (h : Hub β) (toID : UUID) (data : β) : Hub β × Bool :=
  match h.clients toID with
  | none => (h, false)
  | some c => match (h.chan c).offer data with
    | .sent ch => (h.push c ch data, true)
    | .full => (h.unregister c, false)
    | .panic => ({ h with panic := some .sendOnClosed }, false)

/-- `IsOnline`. -/
def Hub.isOnline (h : Hub β) (userID : UUID) : Bool := (h.clients userID).isSome

/-! ## What the operations change -/

@[simp] theorem newHub_clients (heap : ClientId → Client β) (u : UUID) :
    (newHub heap).clients u = none := rfl

@[simp] theorem setChan_clients (h : Hub β) (c : ClientId) (ch : Chan β) :
    (h.setChan c ch).clients = h.clients := rfl

/-- A channel that is set is the client's. -/
@[simp] theorem setChan_chan_self (h : Hub β) (c : ClientId) (ch : Chan β) :
    (h.setChan c ch).chan c = ch := by
  simp [Hub.setChan, Hub.chan]

/-- Setting a channel sets no other client's. -/
theorem setChan_chan_ne (h : Hub β) {c d : ClientId} (ch : Chan β) (hd : d ≠ c) :
    (h.setChan c ch).chan d = h.chan d := by
  simp [Hub.setChan, Hub.chan, Function.update_of_ne hd]

@[simp] theorem setChan_userOf (h : Hub β) (c d : ClientId) (ch : Chan β) :
    (h.setChan c ch).userOf d = h.userOf d := by
  simp only [Hub.userOf, Hub.setChan]
  by_cases hd : d = c
  · simp [hd]
  · simp [Function.update_of_ne hd]

@[simp] theorem register_userOf (h : Hub β) (c d : ClientId) :
    (h.register c).userOf d = h.userOf d := rfl

@[simp] theorem register_chan (h : Hub β) (c : ClientId) :
    (h.register c).chan = h.chan := rfl

@[simp] theorem register_log (h : Hub β) (c : ClientId) :
    (h.register c).log = h.log := rfl

@[simp] theorem register_panic (h : Hub β) (c : ClientId) :
    (h.register c).panic = h.panic := rfl

/-- A client that registers takes its user's place. -/
@[simp] theorem register_clients_self (h : Hub β) (c : ClientId) :
    (h.register c).clients (h.userOf c) = some c := by
  simp [Hub.register]

/-- Registering takes no other user's place. -/
theorem register_clients_ne (h : Hub β) {c : ClientId} {u : UUID}
    (hu : u ≠ h.userOf c) : (h.register c).clients u = h.clients u := by
  simp [Hub.register, Function.update_of_ne hu]

@[simp] theorem push_clients (h : Hub β) (c : ClientId) (ch : Chan β) (x : β) :
    (h.push c ch x).clients = h.clients := rfl

@[simp] theorem push_userOf (h : Hub β) (c d : ClientId) (ch : Chan β) (x : β) :
    (h.push c ch x).userOf d = h.userOf d :=
  setChan_userOf h c d ch

@[simp] theorem push_log (h : Hub β) (c : ClientId) (ch : Chan β) (x : β) :
    (h.push c ch x).log = h.log ++ [(c, x)] := rfl

@[simp] theorem push_panic (h : Hub β) (c : ClientId) (ch : Chan β) (x : β) :
    (h.push c ch x).panic = h.panic := rfl

/-- An enqueued message is in the client's channel. -/
@[simp] theorem push_chan_self (h : Hub β) (c : ClientId) (ch : Chan β) (x : β) :
    (h.push c ch x).chan c = ch :=
  setChan_chan_self h c ch

/-- An enqueued message is in no other channel. -/
theorem push_chan_ne (h : Hub β) {c d : ClientId} (ch : Chan β) (x : β) (hd : d ≠ c) :
    (h.push c ch x).chan d = h.chan d :=
  setChan_chan_ne h ch hd

/-- A channel send opens and closes nothing. -/
theorem push_closed {h : Hub β} {c : ClientId} {ch : Chan β} {x : β}
    (hch : (h.chan c).offer x = .sent ch) (d : ClientId) :
    ((h.push c ch x).chan d).closed = (h.chan d).closed := by
  by_cases hd : d = c
  · rw [hd, push_chan_self, (offer_sent hch).2.2]
  · rw [push_chan_ne h ch x hd]

/-- `Unregister` of a client the map does not hold does nothing. -/
theorem unregister_of_not_holds {h : Hub β} {c : ClientId} (hc : ¬ h.holds c) :
    h.unregister c = h := by
  rw [Hub.unregister]
  rw [if_neg hc]

@[simp] theorem unregister_log (h : Hub β) (c : ClientId) :
    (h.unregister c).log = h.log := by
  rw [Hub.unregister]
  split <;> rfl

@[simp] theorem unregister_userOf (h : Hub β) (c d : ClientId) :
    (h.unregister c).userOf d = h.userOf d := by
  rw [Hub.unregister]
  split
  · exact setChan_userOf (h.dropEntry (h.userOf c)) c d _
  · rfl

/-- A client that was held gives its user's place up. -/
theorem unregister_clients_self {h : Hub β} {c : ClientId} (hc : h.holds c) :
    (h.unregister c).clients (h.userOf c) = none := by
  rw [Hub.unregister]
  rw [if_pos hc]
  simp [Hub.dropEntry]

/-- Unregistering frees no other user's place. -/
theorem unregister_clients_ne (h : Hub β) {c : ClientId} {u : UUID}
    (hu : u ≠ h.userOf c) : (h.unregister c).clients u = h.clients u := by
  rw [Hub.unregister]
  split
  · simp [Hub.dropEntry, Function.update_of_ne hu]
  · rfl

/-- After `Unregister` the map holds a subset of what it held. -/
theorem clients_of_unregister {h : Hub β} {c d : ClientId} {u : UUID}
    (hd : (h.unregister c).clients u = some d) : h.clients u = some d ∧ d ≠ c := by
  by_cases hc : h.holds c
  · by_cases hu : u = h.userOf c
    · rw [hu, unregister_clients_self hc] at hd
      cases hd
    · rw [unregister_clients_ne h hu] at hd
      refine ⟨hd, ?_⟩
      intro hdc
      rw [hdc] at hd
      exact hu (h.owned u c hd).symm
  · rw [unregister_of_not_holds hc] at hd
    refine ⟨hd, ?_⟩
    intro hdc
    rw [hdc] at hd
    refine hc ?_
    rw [Hub.holds, Hub.userOf, h.owned u c hd]
    exact hd

/-- `Unregister` of one client leaves the entry of another. -/
theorem clients_unregister_of_ne {h : Hub β} {c d : ClientId} {u : UUID}
    (hc : h.clients u = some c) (hd : d ≠ c) : (h.unregister d).clients u = some c := by
  by_cases hu : u = h.userOf d
  · rw [unregister_of_not_holds]
    · exact hc
    · intro hholds
      rw [Hub.holds, ← hu, hc] at hholds
      exact hd (Option.some.inj hholds).symm
  · rw [unregister_clients_ne h hu]
    exact hc

/-- The channel of a client that was held is closed. -/
theorem unregister_chan_self {h : Hub β} {c : ClientId} (hc : h.holds c) :
    (h.unregister c).chan c = (h.chan c).close := by
  rw [Hub.unregister]
  rw [if_pos hc]
  exact setChan_chan_self _ c _

/-- Unregistering closes no other channel. -/
theorem unregister_chan_ne (h : Hub β) {c d : ClientId} (hd : d ≠ c) :
    (h.unregister c).chan d = h.chan d := by
  rw [Hub.unregister]
  split
  · exact setChan_chan_ne (h.dropEntry (h.userOf c)) _ hd
  · rfl

/-- `Unregister` never touches what is buffered. -/
theorem unregister_buf (h : Hub β) (c d : ClientId) :
    ((h.unregister c).chan d).buf = (h.chan d).buf := by
  by_cases hd : d = c
  · by_cases hc : h.holds c
    · rw [hd, unregister_chan_self hc]
      rfl
    · rw [unregister_of_not_holds hc]
  · rw [unregister_chan_ne h hd]

/-- An entry of the map names its own client. -/
theorem holds_of_clients {h : Hub β} {u : UUID} {c : ClientId}
    (hc : h.clients u = some c) : h.holds c := by
  rw [Hub.holds, Hub.userOf]
  rw [h.owned u c hc]
  exact hc

/-! ## One step of a `Send` -/

/-- **What one step of `Send` can do**, with everything the step has checked. -/
inductive SendStep (h : Hub β) (toID : UUID) (data : β) :
    SendPc → Hub β → SendNext → Prop where
  | offline (hno : h.clients toID = none) :
      SendStep h toID data .lookup h (.returned false)
  | found (c : ClientId) (hc : h.clients toID = some c) :
      SendStep h toID data .lookup h (.goto (.select c))
  | sent (c : ClientId) (ch : Chan β) (hch : (h.chan c).offer data = .sent ch) :
      SendStep h toID data (.select c) (h.push c ch data) (.returned true)
  | full (c : ClientId) (hopen : (h.chan c).closed = false)
      (hfull : (h.chan c).cap ≤ (h.chan c).buf.length) :
      SendStep h toID data (.select c) h (.goto (.evict c))
  | panic (c : ClientId) (hclosed : (h.chan c).closed = true) :
      SendStep h toID data (.select c) { h with panic := some .sendOnClosed }
        (.returned false)
  | evict (c : ClientId) :
      SendStep h toID data (.evict c) (h.unregister c) (.returned false)

/-- **WHAT A STEP OF `Send` DOES**, statement by statement. -/
theorem stepSend_sendStep (h : Hub β) (toID : UUID) (data : β) (pc : SendPc) :
    SendStep h toID data pc (stepSend h toID data pc).1 (stepSend h toID data pc).2 := by
  cases pc with
  | lookup =>
      cases hc : h.clients toID with
      | none =>
          simp only [stepSend, hc]
          exact .offline hc
      | some c =>
          simp only [stepSend, hc]
          exact .found c hc
  | select c =>
      cases ho : (h.chan c).offer data with
      | sent ch =>
          simp only [stepSend, ho]
          exact .sent c ch ho
      | full =>
          simp only [stepSend, ho]
          obtain ⟨hopen, hfull⟩ := offer_full ho
          exact .full c hopen hfull
      | panic =>
          simp only [stepSend, ho]
          exact .panic c (offer_panic.mp ho)
  | evict c => exact .evict c

/-- The cases are exactly the steps. -/
theorem stepSend_of_sendStep {h h' : Hub β} {toID : UUID} {data : β} {pc : SendPc}
    {next : SendNext} (hs : SendStep h toID data pc h' next) :
    stepSend h toID data pc = (h', next) := by
  cases hs with
  | offline hno => simp only [stepSend, hno]
  | found c hc => simp only [stepSend, hc]
  | sent c ch hch => simp only [stepSend, hch]
  | full c hopen hfull =>
      have hoffer : (h.chan c).offer data = .full := by
        rw [Chan.offer, hopen, if_neg Bool.false_ne_true, if_neg (Nat.not_lt.mpr hfull)]
      simp only [stepSend, hoffer]
  | panic c hclosed => simp only [stepSend, offer_panic.mpr hclosed]
  | evict c => rfl

/-- No step of a `Send` changes whose client an object is. -/
theorem SendStep.userOf {h h' : Hub β} {toID : UUID} {data : β} {pc : SendPc}
    {next : SendNext} (hs : SendStep h toID data pc h' next) (d : ClientId) :
    h'.userOf d = h.userOf d := by
  cases hs with
  | offline _ => rfl
  | found _ _ => rfl
  | sent c ch _ => exact push_userOf h c d ch data
  | full _ _ _ => rfl
  | panic _ _ => rfl
  | evict c => exact unregister_userOf h c d

/-- No step of a `Send` takes anything out of the log. -/
theorem SendStep.log_mono {h h' : Hub β} {toID : UUID} {data : β} {pc : SendPc}
    {next : SendNext} (hs : SendStep h toID data pc h' next) :
    ∀ e ∈ h.log, e ∈ h'.log := by
  intro e he
  cases hs with
  | offline _ => exact he
  | found _ _ => exact he
  | sent c ch _ =>
      rw [push_log]
      exact List.mem_append_left _ he
  | full _ _ _ => exact he
  | panic _ _ => exact he
  | evict c =>
      rw [unregister_log]
      exact he

/-- **`Send` IS ITS STEPS**: the one-piece `Send` runs `lookup`, `select` and,
    on overflow, `evict`, and returns what the last of them returns. -/
theorem send_eq_steps (h : Hub β) (toID : UUID) (data : β) :
    h.send toID data =
      match stepSend h toID data .lookup with
      | (h₁, .returned ok) => (h₁, ok)
      | (h₁, .goto pc₁) =>
          match stepSend h₁ toID data pc₁ with
          | (h₂, .returned ok) => (h₂, ok)
          | (h₂, .goto pc₂) =>
              match stepSend h₂ toID data pc₂ with
              | (h₃, .returned ok) => (h₃, ok)
              | (h₃, .goto _) => (h₃, false) := by
  rw [Hub.send]
  cases hl : h.clients toID with
  | none => simp [stepSend, hl]
  | some c =>
      cases hs : (h.chan c).offer data with
      | sent ch => simp [stepSend, hl, hs]
      | full => simp [stepSend, hl, hs]
      | panic => simp [stepSend, hl, hs]

end PeerHub
