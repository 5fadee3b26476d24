import ChainClient.Client

/-!
# `ChainClient.Proofs.Client` — what a request does to a node

Every request leaves one line in the log of the node, whatever the node answers and whatever becomes
of the answer. Nothing else about the node changes.

## Contents
- **Logging.** `Node.logging` is the node with more lines in its log.
- **Steps.** `Node.run_bind` and `Node.run_liftM` take a computation apart.
- **Requests.** `Client.outcome` is what an answer comes to; `run_request` and `run_ask` are the
  laws of a request and of a question.
-/

namespace ChainClient

/-- A request: a method and its parameters. -/
abbrev Request := String × Json

namespace Node

variable {α β : Type}

/-! ## Logging -/

/-- The node with more requests in its log. -/
def logging (node : Node) (requests : List Request) : Node :=
  { node with log := node.log ++ requests }

@[simp] theorem logging_nil (node : Node) : node.logging [] = node := by
  rw [logging, List.append_nil]

@[simp] theorem logging_logging (node : Node) (front back : List Request) :
    (node.logging front).logging back = node.logging (front ++ back) := by
  simp only [logging, List.append_assoc]

/-! ## Steps -/

/-- The second step starts from the node that the first one left, unless the first one failed. -/
theorem run_bind (node : Node) (x : NodeM α) (f : α → NodeM β) :
    node.run (x >>= f) =
      match node.run x with
      | (.ok a, after) => after.run (f a)
      | (.error e, after) => (.error e, after) := by
  unfold run
  rw [ExceptT.run_bind, StateT.run_bind, Id.run_bind]
  rcases Id.run (x.run.run node) with ⟨_ | _, after⟩
  · rfl
  · rfl

/-- A step that only computes does not touch the node. -/
theorem run_liftM (node : Node) (x : Except ClientError α) :
    node.run (liftM x : NodeM α) = (x, node) := by
  cases x <;> rfl

theorem run_map (node : Node) (x : NodeM α) (f : α → β) :
    node.run (do return f (← x)) = ((node.run x).1.map f, (node.run x).2) := by
  rw [run_bind]
  cases node.run x with
  | mk outcome after => cases outcome <;> rfl

theorem run_request (node : Node) (method : String) (params : Json) :
    node.run (request method params) =
      (match node.response? method with
        | some response => .ok response
        | none => .error (.transport ("no mock response for " ++ method)),
      node.logging [(method, params)]) := by
  have hlog : node.run (request method params) =
      (node.logging [(method, params)]).run
        (match node.response? method with
          | some response => return response
          | none => throw (.transport ("no mock response for " ++ method))) := rfl
  rw [hlog]
  cases node.response? method with
  | none => rfl
  | some response => rfl

end Node

namespace Client

/-! ## Requests -/

/-- What the answer to a request comes to. -/
def outcome {α : Type} (read : JsonReader α) (method : String) (answer? : Option Json) :
    Except ClientError α :=
  match answer? with
  | none => .error (.transport ("no mock response for " ++ method))
  | some answer =>
    match refusal? answer with
    | some reason => .error (.rpc method reason)
    | none =>
      match JsonReader.ofValue read answer with
      | some a => .ok a
      | none => .error .serialization

/-- **Requests.** The request is logged, and the outcome is what the answer of the node comes to. -/
theorem run_ask {α : Type} (node : Node) (read : JsonReader α) (method : String) (params : Json) :
    node.run (ask read method params) =
      (outcome read method (node.response? method), node.logging [(method, params.canonical)]) := by
  unfold ask exchange
  rw [Node.run_bind, Node.run_bind, Node.run_request]
  unfold outcome
  cases node.response? method with
  | none => rfl
  | some answer =>
    simp only
    cases refusal? answer with
    | some reason => rfl
    | none =>
      simp only
      cases hread : JsonReader.ofValue read answer with
      | none => simp [Node.run, hread]
      | some a => simp [Node.run, hread]

end Client

end ChainClient
