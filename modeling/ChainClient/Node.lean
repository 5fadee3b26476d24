import ChainClient.Error
import ChainClient.Json.Value

/-!
# `ChainClient.Node` — a node that answers from a list

The node keeps the answer that was set for each method, falls back on a few answers of its own, and
logs every request, whatever its outcome.

## Contents
- **Methods.** `Node.splitMethod` splits a method name that carries a path.
- **Nodes.** `Node`, with `setResponse`, `clearResponses` and `requestCount`.
- **Requests.** `Node.request` is a step of a `NodeM` computation, which may fail and still changes
  the node; `Node.run` runs one.
-/

namespace ChainClient

/-- A node. -/
structure Node where
  /-- The answers that were set, by method. -/
  responses : NameMap Json := []
  /-- The requests in their order: methods and parameters. -/
  log : List (String × Json) := []

/-- A computation that talks to a node. -/
abbrev NodeM := ExceptT ClientError (StateM Node)

namespace Node

/-! ## Methods -/

/-- The path and the name of a method that has one colon, and no path for any other. -/
def splitMethod (method : String) : String × String :=
  match method.toList.splitOn ':' with
  | [path, name] => (String.ofList path, String.ofList name)
  | _ => ("", method)

/-! ## Nodes -/

/-- The answers of a node that was told nothing. -/
def usualResponses : NameMap Json :=
  .ofList [
    ("GetAccount", .object [
      ("address", .string "0x0000000000000000000000000000000000000000"),
      ("balance", .ofNat 0), ("nonce", .ofNat 0)]),
    ("SendTx", .object [
      ("TXhash", .string "0x26ec7b670d1466ff523c9ec8fd8dc2750483ce7c429130c8a4aed7a650f57810")]),
    ("CallTransaction", .object [("out", .string "0x"), ("status", .ofNat 1)])]

/-- The node with an answer to a method. -/
def setResponse (node : Node) (method : String) (response : Json) : Node :=
  { node with responses := node.responses.insert method response }

/-- The node without the answers that were set. -/
def clearResponses (node : Node) : Node := { node with responses := [] }

/-- The number of requests for a method. -/
def requestCount (node : Node) (method : String) : Nat := node.log.countP (·.1 == method)

/-- The answer of a node to a method. -/
def response? (node : Node) (method : String) : Option Json :=
  (node.responses.find? method).or (usualResponses.find? method)

/-! ## Requests -/

/-- The answer to a request, which is logged first. -/
def request (method : String) (params : Json) : NodeM Json := do
  modify fun node => { node with log := node.log ++ [(method, params)] }
  match (← get).response? method with
  | some response => return response
  | none => throw (.transport ("no mock response for " ++ method))

/-- The outcome of a computation, and the node after it. -/
def run {α : Type} (node : Node) (steps : NodeM α) : Except ClientError α × Node :=
  Id.run (steps.run.run node)

end Node

end ChainClient
