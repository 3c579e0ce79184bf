import Mathlib

/-! # What the program does not decide itself

    The identifiers of the program, and the ENVIRONMENT a handler runs in:
    which database and Redis calls succeed, the row a `LIMIT 1` happens to
    return, the identifiers Postgres generates, and the clock.  Every handler
    is a function of its environment, so a theorem about all environments is a
    theorem about all failures and all choices. -/

namespace PeerEnv

/-- A `uuid.UUID`: sixteen bytes. -/
structure UUID where
  bits : BitVec 128
  deriving DecidableEq, Repr

/-- The calls to Postgres and Redis that can fail, by call site. -/
inductive Stmt where
  | findChat | beginTx | insertChat | insertMembers | commit
  | insertMessage | updateStatus | pending | history
  | isGroupMember | addGroupMember | removeGroupMember | getGroupMembers
  | insertGroupMessage | beginGroupTx | insertGroup | insertAdmin | commitGroup
  | publish | allow | setOnline | setOffline | setTyping
  | exists_ (i : Nat)
  deriving DecidableEq, Repr

/-- One handler call's environment. -/
structure Env where
  /-- Does the call at this site succeed? -/
  ok : Stmt → Bool
  /-- Which row an unordered `LIMIT 1` returns. -/
  pick : Nat
  /-- The identifiers `uuid_generate_v4()` returns to the inserts. -/
  newChat : UUID
  newMessage : UUID
  newGroup : UUID
  newGroupMessage : UUID
  /-- The clock, for `NOW()` and for Redis expiry. -/
  now : Nat

/-- An environment in which every call succeeds. -/
def Env.fine (chat message : UUID) (now : Nat) : Env :=
  ⟨fun _ => true, 0, chat, message, chat, message, now⟩

end PeerEnv
