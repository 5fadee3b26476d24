import ChainClient.Abi.Decode
import ChainClient.Abi.Encode
import ChainClient.Abi.Entry
import ChainClient.Abi.Error
import ChainClient.Abi.Interface
import ChainClient.Abi.Type
import ChainClient.Abi.Type.Notation
import ChainClient.Abi.Value
import ChainClient.Address
import ChainClient.Address.Checksum
import ChainClient.Address.Iban
import ChainClient.Bytes
import ChainClient.Cheque.Binary
import ChainClient.Cheque.Error
import ChainClient.Cheque.Form
import ChainClient.Client
import ChainClient.Config
import ChainClient.Contract
import ChainClient.Contract.Erc20
import ChainClient.Crypto.Curve
import ChainClient.Crypto.Ecdsa
import ChainClient.Crypto.Keccak
import ChainClient.Crypto.Modular
import ChainClient.Crypto.Secp256k1
import ChainClient.Crypto.SecretNumber
import ChainClient.Crypto.Sha256
import ChainClient.Digest
import ChainClient.Error
import ChainClient.Gas
import ChainClient.Hex
import ChainClient.Json.Number
import ChainClient.Json.Reader
import ChainClient.Json.Source
import ChainClient.Json.Value
import ChainClient.Message
import ChainClient.NameMap
import ChainClient.Node
import ChainClient.Node.Account
import ChainClient.Node.Handle
import ChainClient.Node.Receipt
import ChainClient.Node.Stats
import ChainClient.Proofs.Abi.Abbreviation
import ChainClient.Proofs.Abi.Balance
import ChainClient.Proofs.Abi.Checked
import ChainClient.Proofs.Abi.Decode
import ChainClient.Proofs.Abi.Description
import ChainClient.Proofs.Abi.Extension
import ChainClient.Proofs.Abi.Fault
import ChainClient.Proofs.Abi.Fields
import ChainClient.Proofs.Abi.Inhabits
import ChainClient.Proofs.Abi.Inline
import ChainClient.Proofs.Abi.Interface
import ChainClient.Proofs.Abi.Layout
import ChainClient.Proofs.Abi.Notation
import ChainClient.Proofs.Abi.Region
import ChainClient.Proofs.Abi.Room
import ChainClient.Proofs.Abi.RoundTrip
import ChainClient.Proofs.Abi.Spelling
import ChainClient.Proofs.Abi.Static
import ChainClient.Proofs.Abi.Suffix
import ChainClient.Proofs.Abi.WellFormed
import ChainClient.Proofs.Address.Canonical
import ChainClient.Proofs.Address.CheckDigits
import ChainClient.Proofs.Address.Checksum
import ChainClient.Proofs.Address.Iban
import ChainClient.Proofs.Amount
import ChainClient.Proofs.Bytes.Arithmetic
import ChainClient.Proofs.Bytes.Number
import ChainClient.Proofs.Bytes.Width
import ChainClient.Proofs.Cheque.Amount
import ChainClient.Proofs.Cheque.Form
import ChainClient.Proofs.Cheque.Layout
import ChainClient.Proofs.Cheque.Metadata
import ChainClient.Proofs.Cheque.Truncation
import ChainClient.Proofs.Client
import ChainClient.Proofs.Client.Operation
import ChainClient.Proofs.Config
import ChainClient.Proofs.Contract
import ChainClient.Proofs.Contract.Data
import ChainClient.Proofs.Contract.Deployment
import ChainClient.Proofs.Contract.Refusal
import ChainClient.Proofs.Crypto.Ecdsa
import ChainClient.Proofs.Crypto.Modular
import ChainClient.Proofs.Crypto.Prime
import ChainClient.Proofs.Crypto.Secp256k1.Group
import ChainClient.Proofs.Crypto.Secp256k1.Ladder
import ChainClient.Proofs.Crypto.Secp256k1.Order
import ChainClient.Proofs.Gas
import ChainClient.Proofs.Hex
import ChainClient.Proofs.Hex.Agreement
import ChainClient.Proofs.Json.Record
import ChainClient.Proofs.Json.Reread
import ChainClient.Proofs.Json.Text
import ChainClient.Proofs.Json.Tree
import ChainClient.Proofs.Message
import ChainClient.Proofs.NameMap
import ChainClient.Proofs.Node.Records
import ChainClient.Proofs.Node.Replay
import ChainClient.Proofs.Outcome
import ChainClient.Proofs.Rlp
import ChainClient.Proofs.Signature
import ChainClient.Proofs.Signature.LowForm
import ChainClient.Proofs.SignedWord
import ChainClient.Proofs.Text.Numeral
import ChainClient.Proofs.Text.Utf8
import ChainClient.Proofs.Toml.Document
import ChainClient.Proofs.Toml.Quotation
import ChainClient.Proofs.Toml.Reader
import ChainClient.Proofs.Toml.Scalar
import ChainClient.Proofs.Transaction.Building
import ChainClient.Proofs.Transaction.Json
import ChainClient.Proofs.Transaction.Legible
import ChainClient.Proofs.Transaction.Payload
import ChainClient.Proofs.Transaction.Recovery
import ChainClient.Proofs.Transaction.Signing
import ChainClient.Proofs.TwosComplement
import ChainClient.Proofs.Word
import ChainClient.Proofs.Word.Numeral
import ChainClient.Proofs.Word.Power
import ChainClient.Rlp
import ChainClient.Signature
import ChainClient.SignedWord
import ChainClient.Text.Blank
import ChainClient.Text.Lowercase
import ChainClient.Text.Numeral
import ChainClient.Text.Printable
import ChainClient.Text.Quoted
import ChainClient.Text.Shortest
import ChainClient.Text.Utf8
import ChainClient.Toml.Document
import ChainClient.Toml.Quotation
import ChainClient.Toml.Reader
import ChainClient.Toml.Scalar
import ChainClient.Toml.Value
import ChainClient.Transaction.Basic
import ChainClient.Transaction.Signing
import ChainClient.Wallet
import ChainClient.Width
import ChainClient.Word
