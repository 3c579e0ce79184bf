import Mathlib

/-! # The socket of `useWebSocket`

    One mounted component: the sockets its effect has created, the refs they share
    and the effect instances, of which every cleanup cancels the last.

    `close` leaves an open socket CLOSING until its close event; there is at most
    one pending reconnect timer, since `onclose` clears the one it replaces. -/

namespace PeerWeb

/-- `WebSocket.readyState`: CONNECTING, OPEN, CLOSING, CLOSED. -/
inductive ReadyState where
  | connecting
  | opened
  | closing
  | closed
  deriving DecidableEq, Repr

/-- A socket and the effect instance whose `connect` created it. -/
structure Socket where
  owner : Nat
  readyState : ReadyState
  deriving DecidableEq, Repr

/-- `ws.close()`. -/
def Socket.close (ws : Socket) : Socket :=
  match ws.readyState with
  | .connecting => { ws with readyState := .closing }
  | .opened => { ws with readyState := .closing }
  | .closing => ws
  | .closed => ws

/-- The refs of one mounted component.  A socket is its place in `sockets`; a pending
    timer is the instance whose `connect` it will call; `current` is the instance that
    is not cancelled. -/
structure Hook where
  sockets : List Socket
  wsRef : Option Nat
  reconnectTimer : Option Nat
  reconnectDelay : Nat
  instances : Nat
  current : Option Nat

namespace Hook

/-- On mounting. -/
def fresh : Hook := ⟨[], none, none, 1000, 0, none⟩

/-- `connect` of an effect instance. -/
def connect (h : Hook) (owner : Nat) : Hook :=
  if h.current = some owner then
    { h with
      sockets := h.sockets ++ [⟨owner, .connecting⟩]
      wsRef := some h.sockets.length }
  else h

/-- The effect, with a token. -/
def effect (h : Hook) : Hook :=
  connect { h with instances := h.instances + 1, current := some h.instances } h.instances

/-- The cleanup of the effect. -/
def cleanup (h : Hook) : Hook :=
  { h with
    sockets := match h.wsRef with
      | some i => h.sockets.modify i Socket.close
      | none => h.sockets
    reconnectTimer := none
    current := none }

/-- Is this socket OPEN? -/
def isOpen (h : Hook) (i : Nat) : Bool :=
  (h.sockets[i]?).any fun ws => ws.readyState = .opened

/-- `wsRef.current?.readyState === WebSocket.OPEN`. -/
def refOpen (h : Hook) : Bool := h.wsRef.any h.isOpen

def setReadyState (h : Hook) (i : Nat) (st : ReadyState) : Hook :=
  { h with sockets := h.sockets.modify i fun ws => { ws with readyState := st } }

/-- `ws.onopen`. -/
def onopen (h : Hook) (i : Nat) : Option Hook :=
  match h.sockets[i]? with
  | some ⟨_, .connecting⟩ => some { h.setReadyState i .opened with reconnectDelay := 1000 }
  | _ => none

/-- The other side, or the network, starts to close an open socket. -/
def closing (h : Hook) (i : Nat) : Option Hook :=
  match h.sockets[i]? with
  | some ⟨_, .opened⟩ => some (h.setReadyState i .closing)
  | _ => none

/-- `ws.onclose`: the close event, which a socket that never opened has as well. -/
def onclose (h : Hook) (i : Nat) : Option Hook :=
  match h.sockets[i]? with
  | none => none
  | some ⟨_, .closed⟩ => none
  | some ws => some { h.setReadyState i .closed with reconnectTimer := some ws.owner }

/-- The reconnect timer fires. -/
def onTimer (h : Hook) : Option Hook :=
  h.reconnectTimer.map fun owner =>
    connect { h with
      reconnectTimer := none
      reconnectDelay := min (h.reconnectDelay * 2) 30000 } owner

/-- After the cleanup nothing can be written through the ref. -/
theorem refOpen_cleanup (h : Hook) : h.cleanup.refOpen = false := by
  rw [refOpen]
  cases hw : h.wsRef with
  | none =>
      have href : h.cleanup.wsRef = none := hw
      rw [href]
      rfl
  | some i =>
      have href : h.cleanup.wsRef = some i := hw
      have hsockets : h.cleanup.sockets = h.sockets.modify i Socket.close := by
        rw [cleanup, hw]
      rw [href, Option.any_some, isOpen, hsockets, List.getElem?_modify_eq]
      cases h.sockets[i]? with
      | none => rfl
      | some ws =>
          obtain ⟨owner, st⟩ := ws
          cases st <;> rfl

/-- An opened socket is OPEN. -/
theorem isOpen_onopen {h h' : Hook} {i : Nat} (hopen : h.onopen i = some h') :
    h'.isOpen i = true := by
  rw [onopen] at hopen
  split at hopen
  · rename_i owner hget
    cases hopen
    show ((h.sockets.modify i _)[i]?).any _ = true
    rw [List.getElem?_modify_eq, hget]
    rfl
  · cases hopen

end Hook

end PeerWeb
