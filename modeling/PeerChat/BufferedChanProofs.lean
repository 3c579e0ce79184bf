import Mathlib

/-! # Go's buffered channels, in the operations `select` with a default makes

    A send that must not block has three outcomes: the value goes into the
    buffer, the buffer is full and the default branch runs, or the channel is
    closed and the goroutine panics.  Closing keeps what is buffered: a receiver
    still drains it. -/

namespace BufferedChan

structure Chan (β : Type) where
  cap : Nat
  buf : List β
  closed : Bool
  deriving Repr

/-- What a non-blocking send does. -/
inductive Offer (β : Type) where
  | sent (ch : Chan β)
  | full
  | panic

variable {β : Type}

/-- `make(chan β, cap)`. -/
def make (cap : Nat) : Chan β := ⟨cap, [], false⟩

/-- `select { case ch <- x: … default: … }`. -/
def Chan.offer (ch : Chan β) (x : β) : Offer β :=
  if ch.closed then .panic
  else if ch.buf.length < ch.cap then .sent { ch with buf := ch.buf ++ [x] }
  else .full

/-- `close(ch)`, on a channel that is open. -/
def Chan.close (ch : Chan β) : Chan β := { ch with closed := true }

/-- The channel after its oldest value was received. -/
def Chan.tail (ch : Chan β) : Chan β := { ch with buf := ch.buf.tail }

/-- A send goes through on an open channel with room, to its end. -/
theorem offer_sent {ch ch' : Chan β} {x : β} (h : ch.offer x = .sent ch') :
    ch.closed = false ∧ ch.buf.length < ch.cap ∧
      ch' = { ch with buf := ch.buf ++ [x] } := by
  rw [Chan.offer] at h
  cases hc : ch.closed with
  | true =>
      rw [hc, if_pos rfl] at h
      cases h
  | false =>
      rw [hc, if_neg Bool.false_ne_true] at h
      split at h
      · rename_i hroom
        exact ⟨rfl, hroom, (Offer.sent.inj h).symm⟩
      · cases h

/-- The `default` case is taken on an open channel without room. -/
theorem offer_full {ch : Chan β} {x : β} (h : ch.offer x = .full) :
    ch.closed = false ∧ ch.cap ≤ ch.buf.length := by
  rw [Chan.offer] at h
  cases hc : ch.closed with
  | true =>
      rw [hc, if_pos rfl] at h
      cases h
  | false =>
      rw [hc, if_neg Bool.false_ne_true] at h
      split at h
      · cases h
      · rename_i hroom
        exact ⟨rfl, Nat.le_of_not_lt hroom⟩

/-- A send panics on a closed channel, and only there. -/
theorem offer_panic {ch : Chan β} {x : β} : ch.offer x = .panic ↔ ch.closed = true := by
  rw [Chan.offer]
  cases hc : ch.closed with
  | true => simp
  | false =>
      simp only [Bool.false_eq_true, if_false, iff_false]
      split
      · exact fun h => by cases h
      · exact fun h => by cases h

/-- An open channel with room takes the value. -/
theorem offer_of_room {ch : Chan β} (x : β) (ho : ch.closed = false)
    (hroom : ch.buf.length < ch.cap) :
    ch.offer x = .sent { ch with buf := ch.buf ++ [x] } := by
  rw [Chan.offer]
  rw [ho, if_neg Bool.false_ne_true, if_pos hroom]

end BufferedChan
