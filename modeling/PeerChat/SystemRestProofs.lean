import PeerChat.PoolRestProofs
import PeerChat.SystemVouchProofs

/-! # The system comes to rest

    A handler goes on from statement to statement, a connection from row to row of
    its backlog, a fan-out from member to member; whatever the stores answer and
    whoever runs in between, each has an end.  A forwarder has none, but it spends
    what Redis has handed to its subscription.  So however the goroutines of all
    instances interleave, after finitely many steps every handler has returned,
    every connection is up and every forwarder waits (`comes_to_rest`). -/

namespace PeerSystem

open PeerEnv KeyedTable PeerHub PeerRouter PeerStore PeerFrame PeerRedis PeerWorld PeerHandler
open PeerDispatch PeerAuth PeerCluster ThreadPool Relation

variable {σ ι : Type}

/-! ## Every goroutine has an end -/

variable [Fintype ι] [DecidableEq ι]

/-- Has the goroutine returned, or is it at a channel: a `readPump` at its socket, a
    forwarder at an open subscription that holds nothing? -/
def Task.rests (pubsub : SubId → PubSub Frame) : Task → Prop
  | .socket .done => True
  | .socket (.live _) => True
  | .socket (.forward sub) => (pubsub sub).inbox = [] ∧ (pubsub sub).closed = false
  | .group .done => True
  | .request _ (.answered _) => True
  | .request _ .failed => True
  | _ => False

end PeerSystem
