import Mathlib

/-! # Password hashing with a bounded key

    A HASHER turns a password into a hash that later passwords are compared
    with.  The one described here reads a bounded prefix of its input: it
    refuses to hash more than `limit` bytes and compares the first `limit`
    bytes of what it is given.

    A hash made of fewer than `limit` bytes fits its password alone; one made
    of exactly `limit` bytes also fits every password that continues it.  So a
    system that wants one password for one hash has to keep its passwords
    BELOW the limit, not just at it: `tells_iff`. -/

namespace PasswordHash

/-- Hashing and comparing.  `generate salt password` is `none` when the hasher
    refuses. -/
structure Hasher (σ β ω : Type) where
  generate : σ → List β → Option ω
  compare : ω → List β → Bool

variable {σ β ω α : Type}

/-- **What is relied on**: the length limit, and that a hash of a password in
    `plain` is compared exactly on the first `limit` bytes. -/
structure Hasher.Lawful (H : Hasher σ β ω) (limit : Nat) (plain : List β → Prop) : Prop where
  refuses : ∀ salt p, limit < p.length → H.generate salt p = none
  hashes : ∀ salt p, p.length ≤ limit → ∃ hash, H.generate salt p = some hash
  compares : ∀ salt p hash, plain p → H.generate salt p = some hash →
    ∀ q, H.compare hash q = true ↔ q.take limit = p

/-- Among the texts in `S`, written as bytes by `enc`, the hash fits `a` and no other. -/
def Hasher.Tells (H : Hasher σ β ω) (enc : α → List β) (S : Set α) (hash : ω) (a : α) : Prop :=
  ∀ b ∈ S, (H.compare hash (enc b) = true ↔ b = a)

variable {H : Hasher σ β ω} {limit : Nat} {plain : List β → Prop}

theorem Hasher.Lawful.generate_iff (hH : H.Lawful limit plain) (salt : σ) (p : List β) :
    (∃ hash, H.generate salt p = some hash) ↔ p.length ≤ limit := by
  constructor
  · rintro ⟨hash, hhash⟩
    by_contra hlong
    rw [hH.refuses salt p (Nat.lt_of_not_le hlong)] at hhash
    cases hhash
  · intro hle
    exact hH.hashes salt p hle

/-- Below the limit nothing is cut off that could be mistaken for the password. -/
theorem Hasher.Lawful.compare_iff (hH : H.Lawful limit plain) {salt : σ} {p : List β}
    {hash : ω} (hp : plain p) (hhash : H.generate salt p = some hash)
    (hlt : p.length < limit) (q : List β) : H.compare hash q = true ↔ q = p := by
  rw [hH.compares salt p hash hp hhash q]
  constructor
  · intro htake
    have hlen : min limit q.length = p.length := by
      rw [← htake, List.length_take]
    have hq : q.length ≤ limit := by omega
    rw [← htake, List.take_of_length_le hq]
  · intro heq
    rw [heq, List.take_of_length_le (Nat.le_of_lt hlt)]

/-- At the limit whatever follows is not looked at. -/
theorem Hasher.Lawful.compare_append (hH : H.Lawful limit plain) {salt : σ} {p : List β}
    {hash : ω} (hp : plain p) (hhash : H.generate salt p = some hash)
    (heq : p.length = limit) (rest : List β) : H.compare hash (p ++ rest) = true := by
  rw [hH.compares salt p hash hp hhash (p ++ rest)]
  rw [← heq]
  exact List.take_left

/-- **A HASH TELLS ITS TEXT APART EXACTLY BELOW THE LIMIT**, if distinct texts have
    distinct bytes and the text can be continued. -/
theorem Hasher.Lawful.tells_iff (hH : H.Lawful limit plain) {enc : α → List β}
    (henc : Function.Injective enc) {S : Set α} {a : α}
    (hmore : ∃ b ∈ S, b ≠ a ∧ ∃ rest, enc b = enc a ++ rest) {salt : σ} {hash : ω}
    (hp : plain (enc a)) (hhash : H.generate salt (enc a) = some hash) :
    H.Tells enc S hash a ↔ (enc a).length < limit := by
  have hle : (enc a).length ≤ limit := (hH.generate_iff salt (enc a)).mp ⟨hash, hhash⟩
  constructor
  · intro htells
    by_contra hnot
    have heq : (enc a).length = limit := by omega
    obtain ⟨b, hS, hne, rest, hb⟩ := hmore
    have hfits : H.compare hash (enc b) = true := by
      rw [hb]
      exact hH.compare_append hp hhash heq rest
    exact hne ((htells b hS).mp hfits)
  · intro hlt b _
    rw [hH.compare_iff hp hhash hlt (enc b)]
    exact henc.eq_iff

/-! ## A hasher that obeys the law -/

/-- Write the password down with `render`, within the limit. -/
def keeping [DecidableEq ω] (limit : Nat) (render : List β → ω) : Hasher Unit β ω where
  generate _ p := if limit < p.length then none else some (render p)
  compare hash q := render (q.take limit) = hash

theorem keeping_lawful [DecidableEq ω] (limit : Nat) {render : List β → ω}
    (hrender : Function.Injective render) (plain : List β → Prop) :
    (keeping limit render).Lawful limit plain where
  refuses _ p hlong := if_pos hlong
  hashes _ p hle := ⟨render p, if_neg (Nat.not_lt.mpr hle)⟩
  compares salt p hash _ hhash q := by
    have hsome : (if limit < p.length then none else some (render p)) = some hash := hhash
    split at hsome
    · cases hsome
    · show decide (render (q.take limit) = hash) = true ↔ q.take limit = p
      rw [← Option.some.inj hsome, decide_eq_true_iff]
      exact hrender.eq_iff

end PasswordHash
