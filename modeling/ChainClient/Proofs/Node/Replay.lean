import ChainClient.Node.Handle
import ChainClient.Proofs.Client.Operation

/-!
# `ChainClient.Proofs.Node.Replay` — a node repeats what it was told

What a node does next is a matter of its history: the answer to a method is the one that it was told
last, unless all was cleared since, and its log has every request there was. Through which handle a
node was reached leaves no trace.

## Contents
- **Actions.** `Action` is what can be done through a handle, `Network.act` does it and
  `Network.actAll` does one after the other.
- **Histories.** `Told` says which answer counts after a history, `Answers` adds the usual ones;
  `Knows` is the invariant of a node.
- **Replays.** `Comes` lists what can come of an action, `Replays` of a run; `act_comes` is the law
  of one action, `actAll_comes` of a run.
- **Handles.** `Handle.Shares`: the copies of a handle. `handles_replay` puts all together.
-/

namespace ChainClient

namespace Node

/-! ## Actions -/

/-- What can be done through a handle. -/
inductive Action where
  | setResponse (method : String) (response : Json)
  | clearResponses
  | request (method : String) (params : Json)
  | ask (operation : Client.Operation)

/-- The request that an action makes. -/
def Action.request? : Action → Option Request
  | .setResponse .. | .clearResponses => none
  | .request method params => some (method, params)
  | .ask operation => some operation.request

/-- What is returned. -/
inductive Reply where
  | done
  | json (json : Json)
  | result (result : Client.Result)

end Node

namespace Network

open Node (Action Reply)

/-- Does one thing through a handle: its outcome, and the network after it. -/
def act (network : Network) (handle : Handle) : Action → Except ClientError Reply × Network
  | .setResponse method response => (.ok .done, network.setResponse handle method response)
  | .clearResponses => (.ok .done, network.clearResponses handle)
  | .request method params =>
    network.run handle (do return .json (← Node.request method params))
  | .ask operation => network.run handle (do return .result (← Client.perform operation))

/-- Does one thing after the other, each through a handle and whatever came of those before. -/
def actAll (network : Network) : List (Handle × Action) → List (Except ClientError Reply) × Network
  | [] => ([], network)
  | (handle, action) :: steps =>
    let (outcome, after) := network.act handle action
    let (outcomes, last) := after.actAll steps
    (outcome :: outcomes, last)

end Network

namespace Node

/-! ## Histories -/

/-- **The answer that counts**: it was set, then neither set again nor cleared. -/
def Told (history : List Action) (method : String) (response : Json) : Prop :=
  ∃ front back, history = front ++ .setResponse method response :: back ∧
    .clearResponses ∉ back ∧ ∀ other, .setResponse method other ∉ back

/-- The answer to a method after a history, if there is one. -/
inductive Answers (history : List Action) (method : String) : Option Json → Prop where
  | told {response : Json} (h : Told history method response) :
      Answers history method (some response)
  | usual (h : ∀ response, ¬ Told history method response) :
      Answers history method (usualResponses.find? method)

theorem not_told_nil {method : String} {response : Json} : ¬ Told [] method response := by
  rintro ⟨front, back, h, -⟩
  exact List.append_ne_nil_of_right_ne_nil front (List.cons_ne_nil _ back) h.symm

/-- One more action: it sets the answer, or it leaves the one that counted. -/
theorem told_concat_iff {history : List Action} {action : Action} {method : String}
    {response : Json} :
    Told (history ++ [action]) method response ↔
      action = .setResponse method response ∨
        (action ≠ .clearResponses ∧ ∀ other, action ≠ .setResponse method other) ∧
          Told history method response := by
  constructor
  · rintro ⟨front, back, h, hclear, hset⟩
    rcases List.eq_nil_or_concat back with rfl | ⟨back, last, rfl⟩
    · obtain ⟨-, hlast⟩ := List.append_inj' h rfl
      exact .inl (List.singleton_inj.mp hlast)
    · rw [List.concat_eq_append, ← List.cons_append, ← List.append_assoc] at h
      obtain ⟨hhistory, hlast⟩ := List.append_inj' h rfl
      obtain rfl := List.singleton_inj.mp hlast
      simp only [List.concat_eq_append, List.mem_append, List.mem_singleton, not_or] at hclear hset
      exact .inr ⟨⟨fun h => hclear.2 h.symm, fun other h => (hset other).2 h.symm⟩,
        front, back, hhistory, hclear.1, fun other => (hset other).1⟩
  · rintro (rfl | ⟨⟨hclear, hset⟩, front, back, rfl, hback, hother⟩)
    · exact ⟨history, [], rfl, List.not_mem_nil, fun _ => List.not_mem_nil⟩
    · refine ⟨front, back ++ [action], by rw [List.append_assoc, List.cons_append], ?_⟩
      simp only [List.mem_append, List.mem_singleton, not_or]
      exact ⟨⟨hback, fun h => hclear h.symm⟩,
        fun other => ⟨hother other, fun h => hset other h.symm⟩⟩

/-- **What a node knows** of its history: the answers that count, and all the requests. -/
structure Knows (history : List Action) (node : Node) : Prop where
  told_iff : ∀ method response,
    node.responses.find? method = some response ↔ Told history method response
  log_eq : node.log = history.filterMap Action.request?

theorem knows_nil : Knows [] {} where
  told_iff _ _ := iff_of_false nofun not_told_nil
  log_eq := rfl

namespace Knows

variable {history : List Action} {node : Node}

theorem answers (h : Knows history node) (method : String) :
    Answers history method (node.response? method) := by
  unfold response?
  cases hfind : node.responses.find? method with
  | some response => exact .told ((h.told_iff method response).mp hfind)
  | none =>
    refine .usual fun response htold => ?_
    rw [(h.told_iff method response).mpr htold] at hfind
    cases hfind

theorem setResponse (h : Knows history node) (method : String) (response : Json) :
    Knows (history ++ [.setResponse method response]) (node.setResponse method response) where
  told_iff key value := by
    rw [told_concat_iff, ← h.told_iff]
    unfold Node.setResponse
    rw [NameMap.find?_insert]
    by_cases hkey : key = method
    · subst hkey
      simp [eq_comm]
    · simp [hkey, Ne.symm hkey]
  log_eq := by
    rw [List.filterMap_append, ← h.log_eq]
    exact (List.append_nil _).symm

theorem clearResponses (h : Knows history node) :
    Knows (history ++ [.clearResponses]) node.clearResponses where
  told_iff method response := by
    rw [told_concat_iff]
    simp [Node.clearResponses, NameMap.find?]
  log_eq := by
    rw [List.filterMap_append, ← h.log_eq]
    exact (List.append_nil _).symm

/-- A request changes the log, and none of the answers. -/
theorem logging (h : Knows history node) {action : Action} {request : Request}
    (hrequest : action.request? = some request) :
    Knows (history ++ [action]) (node.logging [request]) where
  told_iff method response := by
    show node.responses.find? method = some response ↔ _
    rw [told_concat_iff, h.told_iff]
    cases action with
    | setResponse | clearResponses => cases hrequest
    | request | ask => simp
  log_eq := by
    rw [List.filterMap_append, ← h.log_eq, List.filterMap_cons_some hrequest]
    rfl

end Knows

/-! ## Replays -/

/-- **What comes of an action** after a history. Only the answer that counts decides what a request
    comes to. -/
inductive Comes (history : List Action) : Action → Except ClientError Reply → Prop where
  | setResponse {method : String} {response : Json} :
      Comes history (.setResponse method response) (.ok .done)
  | clearResponses : Comes history .clearResponses (.ok .done)
  | unanswered {method : String} {params : Json} (h : Answers history method none) :
      Comes history (.request method params)
        (.error (.transport ("no mock response for " ++ method)))
  | answered {method : String} {params reply : Json} (h : Answers history method (some reply)) :
      Comes history (.request method params) (.ok (.json reply))
  | ask {operation : Client.Operation} {answer? : Option Json}
      {outcome : Except ClientError Client.Result} (h : Answers history operation.method answer?)
      (hends : Client.Ends operation answer? outcome) :
      Comes history (.ask operation) (outcome.map .result)

/-- **What comes of a run**: each action comes after those before it. -/
inductive Replays :
    List Action → List Action → List (Except ClientError Reply) → Prop where
  | nil {history : List Action} : Replays history [] []
  | cons {history actions : List Action} {action : Action} {outcome : Except ClientError Reply}
      {outcomes : List (Except ClientError Reply)} (h : Comes history action outcome)
      (hrest : Replays (history ++ [action]) actions outcomes) :
      Replays history (action :: actions) (outcome :: outcomes)

end Node

namespace Network

open Node (Action Reply Answers Knows Comes Replays)

/-- There is a node for the handle. -/
structure Has (network : Network) (handle : Handle) : Prop where
  responses_lt : handle.responses < network.responses.length
  log_lt : handle.log < network.logs.length

theorem has_create (network : Network) : network.create.2.Has network.create.1 where
  responses_lt := by
    rw [create, List.length_append]
    exact Nat.lt_succ_self _
  log_lt := by
    rw [create, List.length_append]
    exact Nat.lt_succ_self _

/-- A new node was told nothing and heard nothing. -/
theorem node_create (network : Network) : network.create.2.node network.create.1 = {} := by
  simp only [node, create, List.getElem?_concat_length, Option.getD_some]

variable {network : Network} {handle : Handle}

theorem Has.put (h : network.Has handle) (node : Node) : (network.put handle node).Has handle where
  responses_lt := by
    rw [Network.put, List.length_set]
    exact h.responses_lt
  log_lt := by
    rw [Network.put, List.length_set]
    exact h.log_lt

theorem node_put (h : network.Has handle) (node : Node) :
    (network.put handle node).node handle = node := by
  simp only [Network.node, Network.put, List.getElem?_set_self h.responses_lt,
    List.getElem?_set_self h.log_lt, Option.getD_some]

theorem run_eq {α : Type} (steps : NodeM α) :
    network.run handle steps =
      (((network.node handle).run steps).1,
        network.put handle ((network.node handle).run steps).2) :=
  rfl

/-- **One action.** It comes of the history of the node, which it becomes a part of. -/
theorem act_comes {history : List Action} (h : Knows history (network.node handle))
    (action : Action) :
    ∃ outcome after, Comes history action outcome ∧ Knows (history ++ [action]) after ∧
      network.act handle action = (outcome, network.put handle after) := by
  cases action with
  | setResponse method response =>
    exact ⟨_, _, .setResponse, h.setResponse method response, rfl⟩
  | clearResponses => exact ⟨_, _, .clearResponses, h.clearResponses, rfl⟩
  | request method params =>
    have hafter : Knows (history ++ [.request method params]) _ := h.logging rfl
    have hanswers := h.answers method
    have hrun := Node.run_map (network.node handle) (Node.request method params) Reply.json
    rw [Node.run_request] at hrun
    cases hanswer : (network.node handle).response? method with
    | none =>
      rw [hanswer] at hanswers hrun
      refine ⟨_, _, .unanswered hanswers, hafter, ?_⟩
      rw [act, run_eq, hrun]
      rfl
    | some reply =>
      rw [hanswer] at hanswers hrun
      refine ⟨_, _, .answered hanswers, hafter, ?_⟩
      rw [act, run_eq, hrun]
      rfl
  | ask operation =>
    obtain ⟨outcome, hends, hrun⟩ := Client.perform_ends (network.node handle) operation
    refine ⟨_, _, .ask (h.answers operation.method) hends, h.logging rfl, ?_⟩
    rw [act, run_eq, Node.run_map, hrun]

/-- **A run** through one handle: all that comes of it comes of the history, and so does the
    node. -/
theorem actAll_comes {history : List Action} (hhas : network.Has handle)
    (h : Knows history (network.node handle)) (steps : List (Handle × Action))
    (hsame : ∀ step ∈ steps, step.1 = handle) :
    Replays history (steps.map Prod.snd) (network.actAll steps).1 ∧
      Knows (history ++ steps.map Prod.snd) ((network.actAll steps).2.node handle) := by
  induction steps generalizing network history with
  | nil =>
    rw [List.map_nil, List.append_nil]
    exact ⟨.nil, h⟩
  | cons step steps ih =>
    obtain ⟨other, action⟩ := step
    obtain rfl : other = handle := hsame _ List.mem_cons_self
    obtain ⟨outcome, after, hcomes, hknows, hact⟩ := act_comes h action
    rw [← node_put hhas after] at hknows
    obtain ⟨hreplays, hlast⟩ :=
      ih (hhas.put after) hknows fun step hstep => hsame step (List.mem_cons_of_mem _ hstep)
    rw [actAll, hact, List.map_cons]
    refine ⟨.cons hcomes hreplays, ?_⟩
    rw [List.append_assoc, List.singleton_append] at hlast
    exact hlast

end Network

/-! ## Handles -/

/-- The handle, its copies, their copies, and so on. -/
inductive Handle.Shares (handle : Handle) : Handle → Prop where
  | refl : Shares handle handle
  | share {other : Handle} (h : Shares handle other) : Shares handle other.share

theorem Handle.Shares.eq {handle other : Handle} (h : handle.Shares other) : other = handle := by
  induction h with
  | refl => rfl
  | share _ ih => exact ih

/-- **A node replays what it was told**, and no error passes for a result. Whatever is done through
    the copies of the first handle of a node comes of the history of all of them. Every copy finds
    the same log, which has the requests in their order. An operation that is answered with an error
    message fails with this message. -/
theorem handles_replay (network : Network) (steps : List (Handle × Node.Action))
    (hshares : ∀ step ∈ steps, network.create.1.Shares step.1) :
    Node.Replays [] (steps.map Prod.snd) (network.create.2.actAll steps).1 ∧
      (∀ handle, network.create.1.Shares handle →
        ((network.create.2.actAll steps).2.node handle).log =
          (steps.map Prod.snd).filterMap Node.Action.request?) ∧
      ∀ (node : Node) (operation : Client.Operation) (reply : Json) (reason : String),
        node.response? operation.method = some reply → Client.Refuses reply reason →
          node.run (Client.perform operation) =
            (.error (.rpc operation.method reason), node.logging [operation.request]) := by
  have hknows : Node.Knows [] (network.create.2.node network.create.1) := by
    rw [Network.node_create]
    exact Node.knows_nil
  obtain ⟨hreplays, hlast⟩ := Network.actAll_comes network.has_create hknows steps
    fun step hstep => (hshares step hstep).eq
  refine ⟨hreplays, ?_, ?_⟩
  · intro handle hhandle
    rw [hhandle.eq]
    exact hlast.log_eq
  · intro node operation reply reason hreply hrefuses
    obtain ⟨outcome, hends, hrun⟩ := Client.perform_ends node operation
    rw [hreply] at hends
    rw [hrun, hends.eq_of_refuses hrefuses]

/-- Two handles. A request fails and stays in the log; an answer with both error messages is found
    by the other handle, and the first message counts; what is left after clearing is usual. -/
theorem handles_replay_of_two_messages :
    let reply : Json := .object
      [("ErrMsg", .string "down"), ("chainId", .ofNat 2), ("errMsg", .string "late")]
    let steps : List (Handle × Node.Action) :=
      [(⟨0, 0⟩, .request "Ping" .null), (⟨0, 0⟩, .setResponse "GetStats" reply),
        (Handle.share ⟨0, 0⟩, .ask (.stats "2")), (Handle.share ⟨0, 0⟩, .clearResponses),
        (⟨0, 0⟩, .request "CallTransaction" .null)]
    let node := Node.setResponse {} "GetStats" reply
    (∀ step ∈ steps, (Network.create {}).1.Shares step.1) ∧
      Node.Replays [] (steps.map Prod.snd)
        [.error (.transport "no mock response for Ping"), .ok .done,
          .error (.rpc "GetStats" "down"), .ok .done,
          .ok (.json (.object [("out", .string "0x"), ("status", .ofNat 1)]))] ∧
      (((Network.create {}).2.actAll steps).2.node (Handle.share ⟨0, 0⟩)).log =
        [("Ping", .null), ("GetStats", .object [("chainId", .string "2")]),
          ("CallTransaction", .null)] ∧
      node.response? "GetStats" = some reply ∧ Client.Refuses reply "down" ∧
      node.run (Client.perform (.stats "2")) =
        (.error (.rpc "GetStats" "down"),
          node.logging [("GetStats", .object [("chainId", .string "2")])]) := by
  intro reply steps node
  have hshares : ∀ step ∈ steps, (Network.create {}).1.Shares step.1 := by
    simp only [steps, List.forall_mem_cons]
    exact ⟨.refl, .refl, .share .refl, .share .refl, .refl, nofun⟩
  have hreply : node.response? "GetStats" = some reply := rfl
  have hrefuses : Client.Refuses reply "down" := .first ⟨rfl, by decide⟩
  obtain ⟨hreplays, hlog, hrefused⟩ := handles_replay {} steps hshares
  exact ⟨hshares, hreplays, hlog _ (.share .refl), hreply, hrefuses,
    hrefused node (.stats "2") reply "down" hreply hrefuses⟩

end ChainClient
