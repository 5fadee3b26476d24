import ChainClient.Abi.Interface
import ChainClient.Client

/-!
# `ChainClient.Contract` — calling, paying and deploying contracts

Input is packed and signed before anything is submitted; if either fails, the node hears nothing.

## Contents
- **Input.** `Contract.input` packs a call.
- **Calls.** `Contract.call` runs a call, `signCall` signs it, and `send` signs and submits it;
  `submit` submits what is signed already.
- **Deployment.** `Contract.deploy` submits code with the arguments of the constructor behind it.
- **Output.** `Contract.parse` unpacks the output of a call.
-/

namespace ChainClient

open Abi

/-- A contract, known by its interface. -/
structure Contract where
  /-- The interface. -/
  interface : Interface

/-- The same result, with the errors of contract types, values and descriptions among those of
    clients. -/
def liftAbi {α : Type} (result : Except AbiError α) : Except ClientError α := result.mapError .abi

namespace Contract

/-- The contract of a description. -/
def ofJson (description : String) : Except ClientError Contract :=
  (liftAbi (Interface.ofJson description)).map Contract.mk

/-- The function of a name. -/
def function? (contract : Contract) (name : String) : Option Function :=
  contract.interface.functions.find? name

/-! ## Input -/

/-- The input of a call. -/
def input (contract : Contract) (method : String) (arguments : List AbiValue) :
    Except ClientError String :=
  (liftAbi (contract.interface.pack method arguments)).map Hex.marked

/-! ## Calls -/

/-- The receipt of a call that is run and not submitted. -/
def call (contract : Contract) (tx : Transaction) (method : String) (arguments : List AbiValue) :
    NodeM Receipt := do
  let input ← contract.input method arguments
  Client.call { tx with input }

/-- The signed transaction of a call. -/
def signCall (contract : Contract) (client : Client) (tx : Transaction) (method : String)
    (signer : Signer) (arguments : List AbiValue) : Except ClientError Transaction := do
  let input ← contract.input method arguments
  client.signTransaction { tx with input } signer []

/-- The hash of a call that is signed and submitted. -/
def send (contract : Contract) (client : Client) (tx : Transaction) (method : String)
    (signer : Signer) (arguments : List AbiValue) : NodeM String := do
  let signed ← contract.signCall client tx method signer arguments
  Client.send signed

/-- The hash of a signed transaction that is submitted. The interface does not matter. -/
def submit (_contract : Contract) (tx : Transaction) : NodeM String := Client.send tx

/-! ## Deployment -/

/-- The signed transaction that deploys code, with the arguments of the constructor behind it. -/
def signDeployment (contract : Contract) (client : Client) (tx : Transaction) (bytecode : String)
    (signer : Signer) (arguments : List AbiValue) : Except ClientError Transaction := do
  let packed ← liftAbi (contract.interface.pack "" arguments)
  client.signTransaction { tx with input := bytecode ++ Hex.text packed } signer []

/-- The hash of the transaction that deploys code. -/
def deploy (contract : Contract) (client : Client) (tx : Transaction) (bytecode : String)
    (signer : Signer) (arguments : List AbiValue) : NodeM String := do
  let signed ← contract.signDeployment client tx bytecode signer arguments
  Client.send signed

/-! ## Output -/

/-- The bytes of an output, marked or not. -/
def outputBytes (out : String) : Except ClientError Bytes :=
  if Hex.hasMark out.toList then (Hex.decodeMarked out).mapError fun e => .invalidHex e.message
  else (Hex.decode (Utf8.bytes out)).mapError fun fault => .invalidHex fault.message

/-- The values in the output of a function. -/
def parse (contract : Contract) (out method : String) : Except ClientError (List AbiValue) := do
  let data ← outputBytes out
  liftAbi (contract.interface.unpack method data)

end Contract

end ChainClient
