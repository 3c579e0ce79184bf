import PeerChat.EnvProofs

/-! # The Redis keys — rate counters, presence and typing

    `ratelimit/limiter.go`, `presence/presence.go` and `presence/typing.go` over
    keys that expire: a key is there until the moment of its expiry.  Times are
    in milliseconds, as Redis keeps them; the program's durations are in seconds. -/

namespace PeerRedis

open PeerEnv

/-- A value with its expiry, if it has one. -/
structure Entry (α : Type) where
  value : α
  expiry : Option Nat
  deriving Repr

/-- The keys `rate:<user>`, `presence:<user>` and `typing:<chat>:<user>`. -/
structure Redis where
  rate : UUID → Option (Entry Nat)
  presence : UUID → Option (Entry String)
  typing : UUID × UUID → Option (Entry String)

def Redis.empty : Redis := ⟨fun _ => none, fun _ => none, fun _ => none⟩

/-- `time.Second`. -/
def second : Nat := 1000

/-- The entry as it is at time `now`. -/
def alive {α : Type} (now : Nat) (e : Option (Entry α)) : Option (Entry α) :=
  e.filter fun e => match e.expiry with
    | some t => now < t
    | none => true

/-- A key lives until its expiry. -/
theorem alive_of_lt {α : Type} {now t : Nat} (x : α) (h : now < t) :
    alive now (some ⟨x, some t⟩) = some ⟨x, some t⟩ := by
  rw [alive, Option.filter_some]
  simp [h]

/-- At its expiry a key is gone. -/
theorem alive_of_le {α : Type} {now t : Nat} (x : α) (h : t ≤ now) :
    alive now (some ⟨x, some t⟩) = none := by
  rw [alive, Option.filter_some]
  simp [h]

/-- `Limiter`. -/
structure Limiter where
  max : Nat
  windowS : Nat

/-- `ratelimit.New(rdb, 30, 60)`. -/
def newLimiter : Limiter := ⟨30, 60⟩

/-- The `MULTI` of `Allow`: `INCR`, then `EXPIRE … NX`. -/
def incrExpire (l : Limiter) (now : Nat) (e : Option (Entry Nat)) : Entry Nat :=
  match alive now e with
  | none => ⟨1, some (now + l.windowS * second)⟩
  | some ⟨n, none⟩ => ⟨n + 1, some (now + l.windowS * second)⟩
  | some ⟨n, some t⟩ => ⟨n + 1, some t⟩

/-- `Allow`: open on a Redis failure. -/
def Redis.allow (r : Redis) (l : Limiter) (env : Env) (userID : UUID) : Redis × Bool :=
  if env.ok .allow then
    let e := incrExpire l env.now (r.rate userID)
    ({ r with rate := Function.update r.rate userID (some e) }, e.value ≤ l.max)
  else (r, true)

/-- `ttl` of a presence key. -/
def presenceTTL : Nat := 30 * second

/-- `SetOnline`; `none` on failure. -/
def Redis.setOnline (r : Redis) (env : Env) (userID : UUID) : Option Redis :=
  if env.ok .setOnline then
    let e : Entry String := ⟨"online", some (env.now + presenceTTL)⟩
    some { r with presence := Function.update r.presence userID (some e) }
  else none

/-- `SetOffline`. -/
def Redis.setOffline (r : Redis) (env : Env) (userID : UUID) : Option Redis :=
  if env.ok .setOffline then
    some { r with presence := Function.update r.presence userID none }
  else none

/-- `presence.IsOnline`, for the `i`-th id of a request. -/
def Redis.isOnline (r : Redis) (env : Env) (i : Nat) (userID : UUID) : Bool :=
  env.ok (.exists_ i) && (alive env.now (r.presence userID)).isSome

/-- `typingTTL`. -/
def typingTTL : Nat := 5 * second

/-- The `SET` of `SetTyping`. -/
def Redis.setTyping (r : Redis) (env : Env) (chatID userID : UUID) : Option Redis :=
  if env.ok .setTyping then
    let e : Entry String := ⟨"1", some (env.now + typingTTL)⟩
    some { r with typing := Function.update r.typing (chatID, userID) (some e) }
  else none

end PeerRedis
