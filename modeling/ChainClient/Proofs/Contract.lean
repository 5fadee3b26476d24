import ChainClient.Contract
import ChainClient.Proofs.Client
import ChainClient.Proofs.Transaction.Signing

/-!
# `ChainClient.Proofs.Contract` — what a node hears of the operations on a contract

Packing and signing come before the one request that an operation makes. If either of them fails,
the node hears nothing and the caller gets the error; if not, what the node hears is the transaction
that was signed. The answer of the node has no say in that.

## Contents
- **Preparation.** `Contract.Prepares` lists the ways in which packing and signing can end.
- **Operations.** `Operation`, with `Contract.perform`; `Contract.Effect` says of each of them what
  it returns and what the node hears. `perform_effect` is the law of one operation.
- **Runs.** `Contract.run` performs one operation after the other, and `run_effects` is its law.
-/

namespace ChainClient

open Abi

namespace Contract

/-! ## Preparation -/

/-- **Preparation of a transaction.** Its input is the text of what was packed. Then it is hashed,
    with the base of chain numbers, and the signer signs the hash. Each of the three can fail. The
    outcome of the last constructor differs from the transaction in three fields only, and its own
    hash is the one that was signed. -/
inductive Prepares (packed : Except AbiError Bytes) (inputText : Bytes → String) (tx : Transaction)
    (base : UInt64) (signer : Signer) : Except ClientError Transaction → Prop where
  | notPacked {e : AbiError} (hpacked : packed = .error e) :
      Prepares packed inputText tx base signer (.error (.abi e))
  | notHashed {data : Bytes} {e : ClientError} (hpacked : packed = .ok data)
      (hhash : { tx with input := inputText data }.signingHash base = .error e) :
      Prepares packed inputText tx base signer (.error e)
  | notSigned {data : Bytes} {hash : Digest} {e : ClientError} (hpacked : packed = .ok data)
      (hhash : { tx with input := inputText data }.signingHash base = .ok hash)
      (hsign : signer.sign hash = .error e) :
      Prepares packed inputText tx base signer (.error e)
  | signed {data signature : Bytes} {hash : Digest} {signed : Transaction}
      (hpacked : packed = .ok data)
      (hsigned : signed = { tx with
        input := inputText data
        signature := Hex.marked signature
        publicKey := Hex.marked signer.publicKey })
      (hhash : signed.signingHash base = .ok hash)
      (hsign : signer.sign hash = .ok signature) :
      Prepares packed inputText tx base signer (.ok signed)

/-- A lone signer: the hash is made, then signed, and two fields are set. -/
theorem sign_alone (tx : Transaction) (base : UInt64) (signer : Signer) :
    tx.sign base signer [] =
      match tx.signingHash base with
      | .error e => .error e
      | .ok hash =>
        match signer.sign hash with
        | .error e => .error e
        | .ok signature => .ok { tx with
            signature := Hex.marked signature
            publicKey := Hex.marked signer.publicKey } := by
  unfold Transaction.sign
  rw [Transaction.signInPlace_eq]
  cases tx.signingHash base with
  | error e => rfl
  | ok hash =>
    simp only
    cases signer.sign hash with
    | error e => rfl
    | ok signature =>
      simp only [Transaction.signEach, List.map_nil, List.append_nil]

/-- Packing and signing end in one of the four ways. -/
theorem prepares_sign (packed : Except AbiError Bytes) (inputText : Bytes → String)
    (client : Client) (tx : Transaction) (signer : Signer) :
    Prepares packed inputText tx client.config.chainBase signer
      (do client.signTransaction { tx with input := inputText (← liftAbi packed) } signer []) := by
  cases hpacked : packed with
  | error e => exact .notPacked rfl
  | ok data =>
    show Prepares _ _ _ _ _ (Transaction.sign _ client.config.chainBase signer [])
    rw [sign_alone]
    cases hhash : { tx with input := inputText data }.signingHash client.config.chainBase with
    | error e => exact .notHashed rfl hhash
    | ok hash =>
      simp only
      cases hsign : signer.sign hash with
      | error e => exact .notSigned rfl hhash hsign
      | ok signature => exact .signed rfl rfl hhash hsign

theorem prepares_signCall (contract : Contract) (client : Client) (tx : Transaction)
    (method : String) (signer : Signer) (arguments : List AbiValue) :
    Prepares (contract.interface.pack method arguments) Hex.marked tx client.config.chainBase signer
      (contract.signCall client tx method signer arguments) := by
  have hsteps : contract.signCall client tx method signer arguments =
      (do client.signTransaction
            { tx with input := Hex.marked (← liftAbi (contract.interface.pack method arguments)) }
            signer []) := by
    unfold signCall input
    cases contract.interface.pack method arguments <;> rfl
  rw [hsteps]
  exact prepares_sign _ _ client tx signer

theorem prepares_signDeployment (contract : Contract) (client : Client) (tx : Transaction)
    (bytecode : String) (signer : Signer) (arguments : List AbiValue) :
    Prepares (contract.interface.pack "" arguments) (fun packed => bytecode ++ Hex.text packed) tx
      client.config.chainBase signer
      (contract.signDeployment client tx bytecode signer arguments) :=
  prepares_sign _ _ client tx signer

/-! ## Operations -/

/-- An operation on a contract, with what its caller hands over. -/
inductive Operation where
  | input (method : String) (arguments : List AbiValue)
  | call (tx : Transaction) (method : String) (arguments : List AbiValue)
  | signCall (tx : Transaction) (method : String) (signer : Signer) (arguments : List AbiValue)
  | send (tx : Transaction) (method : String) (signer : Signer) (arguments : List AbiValue)
  | deploy (tx : Transaction) (bytecode : String) (signer : Signer) (arguments : List AbiValue)
  | parse (out method : String)
  | submit (tx : Transaction)

/-- What an operation returns. -/
inductive Result where
  | text (s : String)
  | transaction (tx : Transaction)
  | receipt (receipt : Receipt)
  | values (values : List AbiValue)

/-- Performs an operation. -/
def perform (contract : Contract) (client : Client) : Operation → NodeM Result
  | .input method arguments => return .text (← contract.input method arguments)
  | .call tx method arguments => return .receipt (← contract.call tx method arguments)
  | .signCall tx method signer arguments =>
    return .transaction (← contract.signCall client tx method signer arguments)
  | .send tx method signer arguments =>
    return .text (← contract.send client tx method signer arguments)
  | .deploy tx bytecode signer arguments =>
    return .text (← contract.deploy client tx bytecode signer arguments)
  | .parse out method => return .values (← contract.parse out method)
  | .submit tx => return .text (← contract.submit tx)

/-- What comes of an operation: its outcome, and the requests that the node hears. -/
structure Entry where
  /-- The outcome. -/
  outcome : Except ClientError Result
  /-- The requests. -/
  requests : List Request

/-- What the answer of a node to a submission comes to. -/
def submissionOutcome (answer? : String → Option Json) : Except ClientError Result :=
  (Client.outcome Submission.read "SendTx" (answer? "SendTx")).map (.text ·.hash)

/-- What the answer of a node to a call comes to. -/
def callOutcome (answer? : String → Option Json) : Except ClientError Result :=
  (Client.outcome Receipt.read "CallTransaction" (answer? "CallTransaction")).map .receipt

/-- **Effects**, with a node that gives certain answers. An operation that submits or calls makes
    one request, once its transaction is prepared. Before that, an error is its outcome and there is
    no request. The other operations make none. The answers decide the outcome of a request, and not
    the request. -/
inductive Effect (contract : Contract) (client : Client) (answer? : String → Option Json) :
    Operation → Entry → Prop where
  | input {method : String} {arguments : List AbiValue} :
      Effect contract client answer? (.input method arguments)
        ⟨(contract.input method arguments).map .text, []⟩
  | parse {out method : String} :
      Effect contract client answer? (.parse out method)
        ⟨(contract.parse out method).map .values, []⟩
  | signCall {tx : Transaction} {method : String} {signer : Signer} {arguments : List AbiValue}
      {prepared : Except ClientError Transaction}
      (h : Prepares (contract.interface.pack method arguments) Hex.marked tx
        client.config.chainBase signer prepared) :
      Effect contract client answer? (.signCall tx method signer arguments)
        ⟨prepared.map .transaction, []⟩
  | callFails {tx : Transaction} {method : String} {arguments : List AbiValue} {e : AbiError}
      (h : contract.interface.pack method arguments = .error e) :
      Effect contract client answer? (.call tx method arguments) ⟨.error (.abi e), []⟩
  | call {tx : Transaction} {method : String} {arguments : List AbiValue} {data : Bytes}
      (h : contract.interface.pack method arguments = .ok data) :
      Effect contract client answer? (.call tx method arguments) ⟨callOutcome answer?,
        [("CallTransaction", { tx with input := Hex.marked data }.toJson.canonical)]⟩
  | sendFails {tx : Transaction} {method : String} {signer : Signer} {arguments : List AbiValue}
      {e : ClientError}
      (h : Prepares (contract.interface.pack method arguments) Hex.marked tx
        client.config.chainBase signer (.error e)) :
      Effect contract client answer? (.send tx method signer arguments) ⟨.error e, []⟩
  | send {tx : Transaction} {method : String} {signer : Signer} {arguments : List AbiValue}
      {signed : Transaction}
      (h : Prepares (contract.interface.pack method arguments) Hex.marked tx
        client.config.chainBase signer (.ok signed)) :
      Effect contract client answer? (.send tx method signer arguments)
        ⟨submissionOutcome answer?, [("SendTx", signed.toJson.canonical)]⟩
  | deployFails {tx : Transaction} {bytecode : String} {signer : Signer}
      {arguments : List AbiValue} {e : ClientError}
      (h : Prepares (contract.interface.pack "" arguments)
        (fun packed => bytecode ++ Hex.text packed) tx client.config.chainBase signer (.error e)) :
      Effect contract client answer? (.deploy tx bytecode signer arguments) ⟨.error e, []⟩
  | deploy {tx : Transaction} {bytecode : String} {signer : Signer} {arguments : List AbiValue}
      {signed : Transaction}
      (h : Prepares (contract.interface.pack "" arguments)
        (fun packed => bytecode ++ Hex.text packed) tx client.config.chainBase signer
        (.ok signed)) :
      Effect contract client answer? (.deploy tx bytecode signer arguments)
        ⟨submissionOutcome answer?, [("SendTx", signed.toJson.canonical)]⟩
  | submit {tx : Transaction} :
      Effect contract client answer? (.submit tx)
        ⟨submissionOutcome answer?, [("SendTx", tx.toJson.canonical)]⟩

/-- A step that only computes has no request. -/
theorem run_liftM_map {α : Type} (node : Node) (x : Except ClientError α) (f : α → Result) :
    node.run (do return f (← x)) = (x.map f, node.logging []) := by
  rw [Node.run_map, Node.run_liftM, Node.logging_nil]

/-- A submission is one request. -/
theorem run_send (node : Node) (tx : Transaction) :
    node.run (do return .text (← Client.send tx)) =
      (submissionOutcome node.response?, node.logging [("SendTx", tx.toJson.canonical)]) := by
  rw [Node.run_map]
  unfold Client.send
  rw [Node.run_map, Client.run_ask]
  unfold submissionOutcome
  cases Client.outcome Submission.read "SendTx" (node.response? "SendTx") <;> rfl

/-- What is prepared is submitted. If preparation failed, its error is the outcome and there is no
    request. -/
theorem run_prepared (node : Node) (prepared : Except ClientError Transaction) :
    node.run (do return .text (← (do Client.send (← prepared) : NodeM String))) =
      match prepared with
      | .error e => (.error e, node.logging [])
      | .ok signed =>
        (submissionOutcome node.response?,
          node.logging [("SendTx", signed.toJson.canonical)]) := by
  cases prepared with
  | error e => rw [Node.logging_nil]; rfl
  | ok signed => exact run_send node signed

/-- A call is one request, if its input is packed. -/
theorem run_call (contract : Contract) (node : Node) (tx : Transaction) (method : String)
    (arguments : List AbiValue) :
    node.run (do return .receipt (← contract.call tx method arguments)) =
      match contract.interface.pack method arguments with
      | .error e => (.error (.abi e), node.logging [])
      | .ok data =>
        (callOutcome node.response?, node.logging
          [("CallTransaction", { tx with input := Hex.marked data }.toJson.canonical)]) := by
  unfold call input
  cases contract.interface.pack method arguments with
  | error e => rw [Node.logging_nil]; rfl
  | ok data =>
    have hsteps : node.run (Client.call { tx with input := Hex.marked data }) = _ :=
      Client.run_ask node Receipt.read "CallTransaction" _
    rw [Node.run_map]
    show ((node.run (Client.call _)).1.map _, (node.run (Client.call _)).2) = _
    rw [hsteps]
    rfl

/-- **One operation.** It has its effect, and leaves the node with the requests in its log. -/
theorem perform_effect (contract : Contract) (client : Client) (node : Node)
    (operation : Operation) :
    ∃ entry, Effect contract client node.response? operation entry ∧
      node.run (contract.perform client operation) =
        (entry.outcome, node.logging entry.requests) := by
  cases operation with
  | input method arguments => exact ⟨_, .input, run_liftM_map node _ _⟩
  | parse out method => exact ⟨_, .parse, run_liftM_map node _ _⟩
  | signCall tx method signer arguments =>
    exact ⟨_, .signCall (prepares_signCall contract client tx method signer arguments),
      run_liftM_map node _ _⟩
  | call tx method arguments =>
    have hrun := run_call contract node tx method arguments
    cases hpacked : contract.interface.pack method arguments with
    | error e =>
      rw [hpacked] at hrun
      exact ⟨_, .callFails hpacked, hrun⟩
    | ok data =>
      rw [hpacked] at hrun
      exact ⟨_, .call hpacked, hrun⟩
  | send tx method signer arguments =>
    have hprepares := prepares_signCall contract client tx method signer arguments
    have hrun : node.run (contract.perform client (.send tx method signer arguments)) = _ :=
      run_prepared node (contract.signCall client tx method signer arguments)
    cases hprepared : contract.signCall client tx method signer arguments with
    | error e =>
      rw [hprepared] at hprepares hrun
      exact ⟨_, .sendFails hprepares, hrun⟩
    | ok signed =>
      rw [hprepared] at hprepares hrun
      exact ⟨_, .send hprepares, hrun⟩
  | deploy tx bytecode signer arguments =>
    have hprepares := prepares_signDeployment contract client tx bytecode signer arguments
    have hrun : node.run (contract.perform client (.deploy tx bytecode signer arguments)) = _ :=
      run_prepared node (contract.signDeployment client tx bytecode signer arguments)
    cases hprepared : contract.signDeployment client tx bytecode signer arguments with
    | error e =>
      rw [hprepared] at hprepares hrun
      exact ⟨_, .deployFails hprepares, hrun⟩
    | ok signed =>
      rw [hprepared] at hprepares hrun
      exact ⟨_, .deploy hprepares, hrun⟩
  | submit tx => exact ⟨_, .submit, run_send node tx⟩

/-! ## Runs -/

/-- Performs operations one after the other, whatever comes of each: their outcomes, and the node
    after them. -/
def run (contract : Contract) (client : Client) (node : Node) :
    List Operation → List (Except ClientError Result) × Node
  | [] => ([], node)
  | operation :: operations =>
    let (outcome, after) := node.run (contract.perform client operation)
    let (outcomes, last) := contract.run client after operations
    (outcome :: outcomes, last)

/-- **Runs.** Whatever a node was told before, every operation of a run has its effect, and the node
    hears what the effects say, in their order, and nothing else. -/
theorem run_effects (contract : Contract) (client : Client) (node : Node)
    (operations : List Operation) :
    ∃ entries, List.Forall₂ (Effect contract client node.response?) operations entries ∧
      contract.run client node operations =
        (entries.map Entry.outcome, node.logging (entries.flatMap Entry.requests)) := by
  induction operations generalizing node with
  | nil => exact ⟨[], .nil, by rw [List.flatMap_nil, Node.logging_nil]; rfl⟩
  | cons operation operations ih =>
    obtain ⟨entry, heffect, hstep⟩ := perform_effect contract client node operation
    -- what the node heard does not change its answers
    obtain ⟨entries, heffects, hrun⟩ := ih (node.logging entry.requests)
    refine ⟨entry :: entries, .cons heffect heffects, ?_⟩
    rw [run, hstep]
    simp only
    rw [hrun, Node.logging_logging, List.map_cons, List.flatMap_cons]

end Contract

end ChainClient
