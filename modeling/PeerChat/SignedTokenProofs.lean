import Mathlib

/-! # Signed tokens — what a key has signed, and what it opens

    A scheme signs claims under a key and opens a token at a time, after it has
    checked the token's signature under the key.  A token may be spelled in more
    than one way: what counts is its CONTENT, what is signed and the signature.

    The LEDGER of a key lists what has been signed under it.  As long as nobody
    else holds the key, whatever a token opens to is in the ledger and has not
    expired (`open_signed`); and every spelling of a token of the ledger opens to
    its claims until they expire (`opens_signed`). -/

namespace SignedToken

variable {κ K τ μ : Type}

/-- Claims `κ`, keys `K`, tokens `τ` and what they say `μ`. -/
structure Scheme (κ K τ μ : Type) where
  sign : κ → K → Option τ
  /-- What is signed and the signature, however they are spelled. -/
  content : τ → μ
  verifies : K → μ → Bool
  /-- The claims of a token that is accepted under the key at the time. -/
  openAt : K → Nat → τ → Option κ

/-- **What a scheme promises**: signed claims open until they expire, in every spelling, and
    nothing opens whose signature does not verify. -/
structure Scheme.Lawful (S : Scheme κ K τ μ) (expires : κ → Nat) : Prop where
  opens : ∀ {c k t t'}, S.sign c k = some t → S.content t' = S.content t → ∀ now,
    S.openAt k now t' = if now < expires c then some c else none
  expired : ∀ {c k t t' now}, S.sign c k = some t → S.openAt k now t' = some c → now < expires c
  checks : ∀ {k now t c}, S.openAt k now t = some c → S.verifies k (S.content t) = true

/-- Every entry of the ledger has been signed under the key. -/
def Signed (S : Scheme κ K τ μ) (k : K) (ledger : List (κ × τ)) : Prop :=
  ∀ e ∈ ledger, S.sign e.1 k = some e.2

/-- The token is not a forgery: if its signature verifies, it opens to nothing but claims of
    the ledger. -/
def Unforged (S : Scheme κ K τ μ) (k : K) (ledger : List (κ × τ)) (t : τ) : Prop :=
  S.verifies k (S.content t) = true → ∀ now c, S.openAt k now t = some c → ∃ e ∈ ledger, e.1 = c

variable {S : Scheme κ K τ μ} {expires : κ → Nat} {k : K} {ledger : List (κ × τ)}

/-- Nothing is signed yet. -/
theorem Signed.nil (S : Scheme κ K τ μ) (k : K) : Signed S k [] := by
  intro e he
  cases he

/-- More is signed. -/
theorem Signed.append {more : List (κ × τ)} (h : Signed S k ledger) (hmore : Signed S k more) :
    Signed S k (ledger ++ more) := by
  intro e he
  rcases List.mem_append.mp he with hold | hnew
  · exact h e hold
  · exact hmore e hnew

/-- **WHAT OPENS HAS BEEN SIGNED** and has not expired. -/
theorem open_signed (hS : S.Lawful expires) (hledger : Signed S k ledger) {t : τ}
    (ht : Unforged S k ledger t) {now : Nat} {c : κ} (hopen : S.openAt k now t = some c) :
    (∃ e ∈ ledger, e.1 = c) ∧ now < expires c := by
  obtain ⟨e, he, rfl⟩ := ht (hS.checks hopen) now c hopen
  exact ⟨⟨e, he, rfl⟩, hS.expired (hledger e he) hopen⟩

/-- **WHAT HAS BEEN SIGNED OPENS**, in every spelling, until it expires. -/
theorem opens_signed (hS : S.Lawful expires) (hledger : Signed S k ledger) {e : κ × τ}
    (he : e ∈ ledger) {t : τ} (ht : S.content t = S.content e.2) {now : Nat} {c : κ} :
    S.openAt k now t = some c ↔ e.1 = c ∧ now < expires e.1 := by
  rw [hS.opens (hledger e he) ht now]
  by_cases hnow : now < expires e.1
  · rw [if_pos hnow, Option.some.injEq]
    exact ⟨fun heq => ⟨heq, hnow⟩, fun h => h.1⟩
  · rw [if_neg hnow]
    exact ⟨fun heq => (by cases heq), fun h => absurd h.2 hnow⟩

/-- A spelling of a token of the ledger is no forgery. -/
theorem unforged_signed (hS : S.Lawful expires) (hledger : Signed S k ledger) {e : κ × τ}
    (he : e ∈ ledger) {t : τ} (ht : S.content t = S.content e.2) : Unforged S k ledger t := by
  intro _ now c hopen
  exact ⟨e, he, ((opens_signed hS hledger he ht).mp hopen).1⟩

end SignedToken
