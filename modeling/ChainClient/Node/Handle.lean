import ChainClient.Node

/-!
# `ChainClient.Node.Handle` — many ways to reach one node

Nobody holds a node. What it was told and what it heard stay in a network, in places of their own,
and a handle says in which. A copy of a handle reaches the same node, so what one copy does there
the other one finds.

## Contents
- **Handles.** `Handle`, with `share`; `Network`, with `create` for a new node.
- **Reaching a node.** `Network.node` takes a node as a handle finds it, `Network.put` leaves it as
  it is now; `setResponse`, `clearResponses` and `run` do what a node does.
-/

namespace ChainClient

/-- A handle of a node. -/
structure Handle where
  /-- The place of its answers. -/
  responses : Nat
  /-- The place of its requests. -/
  log : Nat
  deriving DecidableEq, Repr

/-- The nodes there are, by their parts. -/
structure Network where
  /-- The answers that were set, by place. -/
  responses : List (NameMap Json) := []
  /-- The requests, by place. -/
  logs : List (List (String × Json)) := []

/-- Another handle of the same node. -/
def Handle.share (handle : Handle) : Handle := ⟨handle.responses, handle.log⟩

namespace Network

/-! ## Handles -/

/-- A handle of a new node, in places that nothing has. -/
def create (network : Network) : Handle × Network :=
  (⟨network.responses.length, network.logs.length⟩,
    ⟨network.responses ++ [[]], network.logs ++ [[]]⟩)

/-! ## Reaching a node -/

/-- The node of a handle. -/
def node (network : Network) (handle : Handle) : Node where
  responses := network.responses[handle.responses]?.getD []
  log := network.logs[handle.log]?.getD []

/-- The network with another state of a node. -/
def put (network : Network) (handle : Handle) (node : Node) : Network where
  responses := network.responses.set handle.responses node.responses
  logs := network.logs.set handle.log node.log

/-- Sets the answer of a node to a method. -/
def setResponse (network : Network) (handle : Handle) (method : String) (response : Json) :
    Network :=
  network.put handle ((network.node handle).setResponse method response)

/-- Takes the answers that were set from a node. -/
def clearResponses (network : Network) (handle : Handle) : Network :=
  network.put handle (network.node handle).clearResponses

/-- The outcome of a computation that talks to the node of a handle, and the network after it. -/
def run {α : Type} (network : Network) (handle : Handle) (steps : NodeM α) :
    Except ClientError α × Network :=
  let (outcome, node) := (network.node handle).run steps
  (outcome, network.put handle node)

end Network

end ChainClient
