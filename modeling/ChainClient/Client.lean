import ChainClient.Cheque.Form
import ChainClient.Config
import ChainClient.Message
import ChainClient.Node
import ChainClient.Node.Account
import ChainClient.Node.Receipt
import ChainClient.Node.Stats
import ChainClient.Transaction.Signing

/-!
# `ChainClient.Client` — requests to a node, and what its answers mean

A node that refuses a request answers with an object that has an error message. No such answer is
taken for a result.

## Contents
- **Requests.** `Client.exchange` sends a request and looks for an error message; `Client.ask` also
  reads the answer.
- **Queries.** Accounts, statistics and receipts.
- **Transactions.** `Client.send` submits one, `Client.call` only runs it, `Client.signTransaction`
  signs one with the base of chain numbers from the configuration.
- **Cheques.** The proofs that a node makes about one.
-/

namespace ChainClient

/-- A client. -/
structure Client where
  /-- Its configuration. -/
  config : Config

namespace Client

/-! ## Requests -/

/-- The error message in an answer, if there is one that says something. -/
def refusal? (response : Json) : Option String :=
  ["ErrMsg", "errMsg"].findSome? fun key =>
    ((response.member? key).bind Json.string?).filter (· ≠ "")

/-- The answer to a request, if it is no error. -/
def exchange (method : String) (params : Json) : NodeM Json := do
  let response ← Node.request method params.canonical
  match refusal? response with
  | some reason => throw (.rpc method reason)
  | none => return response

/-- What a reader takes from the answer to a request. -/
def ask {α : Type} (read : JsonReader α) (method : String) (params : Json) : NodeM α := do
  match JsonReader.ofValue read (← exchange method params) with
  | some a => return a
  | none => throw .serialization

/-! ## Queries -/

/-- The account of an address on a chain. -/
def account (address chain : String) : NodeM Account :=
  ask Account.read "GetAccount" (.object [("address", .string address), ("chainId", .string chain)])

/-- The balance of an address on a chain. -/
def balance (address chain : String) : NodeM Word := return (← account address chain).balance

/-- The nonce of the next transaction of an address on a chain. -/
def nonce (address chain : String) : NodeM UInt64 := return (← account address chain).nonce

/-- The receipt of the transaction with a hash. -/
def receipt (chain hash : String) : NodeM Receipt :=
  ask Receipt.read "GetTransactionByHash"
    (.object [("chainId", .string chain), ("hash", .string hash)])

/-- The statistics of a chain. -/
def stats (chain : String) : NodeM ChainStats :=
  ask ChainStats.read "GetStats" (.object [("chainId", .string chain)])

/-! ## Transactions -/

/-- The hash of a transaction that is submitted. -/
def send (tx : Transaction) : NodeM String :=
  return (← ask Submission.read "SendTx" tx.toJson).hash

/-- The receipt of a transaction that is run and not submitted. -/
def call (tx : Transaction) : NodeM Receipt := ask Receipt.read "CallTransaction" tx.toJson

/-- The signed transaction. -/
def signTransaction (client : Client) (tx : Transaction) (signer : Signer)
    (cosigners : List Signer) : Except ClientError Transaction :=
  tx.sign client.config.chainBase signer cosigners

/-! ## Cheques -/

/-- Takes an object as it is. -/
def proofReader : JsonReader Json := fun place source =>
  (JsonReader.object place source).map .object

/-- The proof that a cheque was issued. -/
def issueProof (cheque : ChequeForm) : NodeM Json := ask proofReader "RpcMakeVccProof" cheque.toJson

/-- The proof that a cheque was cashed, or that it expired. -/
def settlementProof (cheque : ChequeForm) : NodeM Json :=
  ask proofReader "MakeCCCExistenceProof" cheque.toJson

end Client

end ChainClient
