import ChainClient.Proofs.Client

/-!
# `ChainClient.Proofs.Client.Operation` — what an answer comes to

Nine operations of a client send a request. All of them look for an error message in the answer
before they read it, so an answer with one is never read, however well it would read.

## Contents
- **Refusals.** `Refuses` says which answers have an error message; `refusal?_eq_some_iff` ties the
  search to it.
- **Operations.** `Operation`, with `perform` and its `request`.
- **Answers.** `Ends` lists what an answer can come to; `perform_ends` is the law of an operation.
-/

namespace ChainClient

namespace Client

/-! ## Refusals -/

/-- A member of an answer is a text that is not empty. -/
def Complains (reply : Json) (key reason : String) : Prop :=
  reply.member? key = some (.string reason) ∧ reason ≠ ""

/-- **Refusals.** The answer has an error message under one of two names. If it has both, the first
    one counts. What else it has does not matter. -/
inductive Refuses (reply : Json) : String → Prop where
  | first {reason : String} (h : Complains reply "ErrMsg" reason) : Refuses reply reason
  | second {reason : String} (hfirst : ∀ other, ¬ Complains reply "ErrMsg" other)
      (h : Complains reply "errMsg" reason) : Refuses reply reason

/-- The text of a member, if it is not empty. -/
theorem filter_string?_eq_some_iff {reply : Json} {key reason : String} :
    ((reply.member? key).bind Json.string?).filter (· ≠ "") = some reason ↔
      Complains reply key reason := by
  unfold Complains
  rw [Option.filter_eq_some_iff, Option.bind_eq_some_iff, decide_eq_true_iff]
  refine and_congr_left fun _ => ⟨?_, fun h => ⟨_, h, rfl⟩⟩
  rintro ⟨json, hmember, hstring⟩
  cases json with
  | string s =>
    obtain rfl : s = reason := Option.some.inj hstring
    exact hmember
  | _ => cases hstring

theorem filter_string?_eq_none_iff {reply : Json} {key : String} :
    ((reply.member? key).bind Json.string?).filter (· ≠ "") = none ↔
      ∀ reason, ¬ Complains reply key reason := by
  simp only [← filter_string?_eq_some_iff, Option.eq_none_iff_forall_ne_some, ne_eq]

/-- The search finds the error message that counts. -/
theorem refusal?_eq_some_iff {reply : Json} {reason : String} :
    refusal? reply = some reason ↔ Refuses reply reason := by
  unfold refusal?
  rw [List.findSome?_cons]
  cases hfirst : ((reply.member? "ErrMsg").bind Json.string?).filter (· ≠ "") with
  | some found =>
    have hfound := filter_string?_eq_some_iff.mp hfirst
    constructor
    · intro h
      obtain rfl : found = reason := Option.some.inj h
      exact .first hfound
    · rintro (h | ⟨hnone, -⟩)
      · rw [← filter_string?_eq_some_iff.mpr h, hfirst]
      · exact absurd hfound (hnone found)
  | none =>
    have hnone := filter_string?_eq_none_iff.mp hfirst
    rw [List.findSome?_cons, List.findSome?_nil]
    constructor
    · intro h
      refine .second hnone (filter_string?_eq_some_iff.mp ?_)
      revert h
      cases ((reply.member? "errMsg").bind Json.string?).filter (· ≠ "") <;> exact id
    · rintro (h | ⟨-, h⟩)
      · exact absurd h (hnone reason)
      · rw [filter_string?_eq_some_iff.mpr h]

theorem refusal?_eq_none_iff {reply : Json} :
    refusal? reply = none ↔ ∀ reason, ¬ Refuses reply reason := by
  simp only [← refusal?_eq_some_iff, Option.eq_none_iff_forall_ne_some, ne_eq]

/-! ## Operations -/

/-- An operation that sends a request, with what its caller hands over. -/
inductive Operation where
  | account (address chain : String)
  | balance (address chain : String)
  | nonce (address chain : String)
  | receipt (chain hash : String)
  | stats (chain : String)
  | send (tx : Transaction)
  | call (tx : Transaction)
  | issueProof (cheque : ChequeForm)
  | settlementProof (cheque : ChequeForm)

/-- What an operation returns. -/
inductive Result where
  | account (account : Account)
  | balance (balance : Word)
  | nonce (nonce : UInt64)
  | receipt (receipt : Receipt)
  | stats (stats : ChainStats)
  | hash (hash : String)
  | proof (proof : Json)

/-- Performs an operation. -/
def perform : Operation → NodeM Result
  | .account address chain => return .account (← account address chain)
  | .balance address chain => return .balance (← balance address chain)
  | .nonce address chain => return .nonce (← nonce address chain)
  | .receipt chain hash => return .receipt (← receipt chain hash)
  | .stats chain => return .stats (← stats chain)
  | .send tx => return .hash (← send tx)
  | .call tx => return .receipt (← call tx)
  | .issueProof cheque => return .proof (← issueProof cheque)
  | .settlementProof cheque => return .proof (← settlementProof cheque)

namespace Operation

/-- The method that an operation asks for. -/
def method : Operation → String
  | .account .. | .balance .. | .nonce .. => "GetAccount"
  | .receipt .. => "GetTransactionByHash"
  | .stats _ => "GetStats"
  | .send _ => "SendTx"
  | .call _ => "CallTransaction"
  | .issueProof _ => "RpcMakeVccProof"
  | .settlementProof _ => "MakeCCCExistenceProof"

/-- The parameters of an operation, as they are written. -/
def params : Operation → Json
  | .account address chain | .balance address chain | .nonce address chain =>
    .object [("address", .string address), ("chainId", .string chain)]
  | .receipt chain hash => .object [("chainId", .string chain), ("hash", .string hash)]
  | .stats chain => .object [("chainId", .string chain)]
  | .send tx | .call tx => tx.toJson
  | .issueProof cheque | .settlementProof cheque => cheque.toJson

/-- The request of an operation, with its members in order. -/
def request (operation : Operation) : Request := (operation.method, operation.params.canonical)

/-- What an operation makes of an answer that is no error. -/
def read : Operation → Json → Option Result
  | .account .., reply => (JsonReader.ofValue Account.read reply).map .account
  | .balance .., reply => (JsonReader.ofValue Account.read reply).map (.balance ·.balance)
  | .nonce .., reply => (JsonReader.ofValue Account.read reply).map (.nonce ·.nonce)
  | .receipt .., reply | .call _, reply => (JsonReader.ofValue Receipt.read reply).map .receipt
  | .stats _, reply => (JsonReader.ofValue ChainStats.read reply).map .stats
  | .send _, reply => (JsonReader.ofValue Submission.read reply).map (.hash ·.hash)
  | .issueProof _, reply | .settlementProof _, reply =>
    (JsonReader.ofValue proofReader reply).map .proof

end Operation

/-! ## Answers -/

/-- **What an answer comes to.** It is read only if it has no error message. -/
inductive Ends (operation : Operation) : Option Json → Except ClientError Result → Prop where
  | unanswered :
      Ends operation none (.error (.transport ("no mock response for " ++ operation.method)))
  | refused {reply : Json} {reason : String} (h : Refuses reply reason) :
      Ends operation (some reply) (.error (.rpc operation.method reason))
  | unread {reply : Json} (h : ∀ reason, ¬ Refuses reply reason)
      (hread : operation.read reply = none) : Ends operation (some reply) (.error .serialization)
  | read {reply : Json} {result : Result} (h : ∀ reason, ¬ Refuses reply reason)
      (hread : operation.read reply = some result) : Ends operation (some reply) (.ok result)

/-- An operation that reads a record, and takes from it what it returns. -/
theorem ends_outcome {α : Type} {operation : Operation} {record : JsonReader α} {take : α → Result}
    (hread : ∀ reply, operation.read reply = (JsonReader.ofValue record reply).map take)
    (answer? : Option Json) :
    Ends operation answer? ((outcome record operation.method answer?).map take) := by
  unfold outcome
  cases answer? with
  | none => exact .unanswered
  | some reply =>
    cases hrefusal : refusal? reply with
    | some reason =>
      simp only [hrefusal]
      exact .refused (refusal?_eq_some_iff.mp hrefusal)
    | none =>
      have hkind := refusal?_eq_none_iff.mp hrefusal
      have hreply := hread reply
      cases hrecord : JsonReader.ofValue record reply with
      | none =>
        simp only [hrefusal, hrecord]
        exact .unread hkind (by rw [hreply, hrecord, Option.map_none])
      | some a =>
        simp only [hrefusal, hrecord]
        exact .read hkind (by rw [hreply, hrecord, Option.map_some])

/-- A question whose answer is read as a record, from which the result is taken. -/
theorem ends_ask {α : Type} (operation : Operation) (record : JsonReader α) (take : α → Result)
    (hread : ∀ reply, operation.read reply = (JsonReader.ofValue record reply).map take)
    (node : Node) :
    ∃ outcome, Ends operation (node.response? operation.method) outcome ∧
      node.run (do return take (← ask record operation.method operation.params)) =
        (outcome, node.logging [operation.request]) :=
  ⟨_, ends_outcome hread _, by rw [Node.run_map, run_ask]; rfl⟩

/-- A question of which the caller gets a part, in two steps. -/
theorem ends_ask_part {α β : Type} (operation : Operation) (record : JsonReader α) (part : α → β)
    (take : β → Result)
    (hread : ∀ reply, operation.read reply =
      (JsonReader.ofValue record reply).map fun a => take (part a))
    (node : Node) :
    ∃ outcome, Ends operation (node.response? operation.method) outcome ∧
      node.run (do
          let steps : NodeM β := do
            return part (← ask record operation.method operation.params)
          return take (← steps)) =
        (outcome, node.logging [operation.request]) := by
  obtain ⟨outcome, hends, hrun⟩ :=
    ends_ask operation record (fun a => take (part a)) hread node
  refine ⟨outcome, hends, ?_⟩
  rw [bind_assoc]
  simp only [pure_bind]
  exact hrun

/-- **One operation.** It makes its request, and its outcome is what the answer comes to. -/
theorem perform_ends (node : Node) (operation : Operation) :
    ∃ outcome, Ends operation (node.response? operation.method) outcome ∧
      node.run (perform operation) = (outcome, node.logging [operation.request]) := by
  cases operation with
  | account address chain =>
    exact ends_ask (.account address chain) Account.read .account (fun _ => rfl) node
  | balance address chain =>
    exact ends_ask_part (.balance address chain) Account.read (·.balance) .balance (fun _ => rfl)
      node
  | nonce address chain =>
    exact ends_ask_part (.nonce address chain) Account.read (·.nonce) .nonce (fun _ => rfl) node
  | receipt chain hash =>
    exact ends_ask (.receipt chain hash) Receipt.read .receipt (fun _ => rfl) node
  | stats chain => exact ends_ask (.stats chain) ChainStats.read .stats (fun _ => rfl) node
  | send tx => exact ends_ask_part (.send tx) Submission.read (·.hash) .hash (fun _ => rfl) node
  | call tx => exact ends_ask (.call tx) Receipt.read .receipt (fun _ => rfl) node
  | issueProof cheque => exact ends_ask (.issueProof cheque) proofReader .proof (fun _ => rfl) node
  | settlementProof cheque =>
    exact ends_ask (.settlementProof cheque) proofReader .proof (fun _ => rfl) node

/-- **Refused operations.** Only the error comes of an answer that has an error message. -/
theorem Ends.eq_of_refuses {operation : Operation} {reply : Json} {reason : String}
    {outcome : Except ClientError Result} (h : Ends operation (some reply) outcome)
    (hrefuses : Refuses reply reason) : outcome = .error (.rpc operation.method reason) := by
  cases h with
  | refused hother =>
    have hsame := (refusal?_eq_some_iff.mpr hother).symm.trans (refusal?_eq_some_iff.mpr hrefuses)
    rw [Option.some.inj hsame]
  | unread hkind | read hkind => exact absurd hrefuses (hkind reason)

end Client

end ChainClient
