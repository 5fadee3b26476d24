import ChainClient.Address
import ChainClient.Cheque.Error
import ChainClient.Word

/-!
# `ChainClient.Cheque.Binary` — cheques from one chain to another, as bytes

A cheque is written with big-endian numbers of fixed width and an amount behind a byte that counts
its bytes. Older writers could put metadata in front, announced by four zero bytes where the first
chain stands, and by a version. Reading tells the forms apart and ignores what follows a cheque;
writing makes the plain form only.

## Contents
- **Cheques.** `Cheque`, with older metadata as `Cheque.Metadata`.
- **Reading.** `Cheque.ofBytes`, from readers that name the part in which the bytes end; an amount
  may have leading zeros.
- **Writing.** `Cheque.toBytes` refuses the chain number that announces metadata.
- **Text.** `Cheque.text` describes a cheque.
-/

namespace ChainClient

/-- What older writers put in front of a cheque. -/
structure Cheque.Metadata where
  /-- Whether it is paid in the currency of the chain. -/
  useLocal : Bool := false
  /-- The parent of the chain that issued it. -/
  parentChain : UInt32 := 0
  /-- Whether a shard issued it. -/
  isShard : Bool := false
  /-- The number of the currency. -/
  currency : UInt16 := 0
  deriving DecidableEq, Repr

/-- A cheque. -/
structure Cheque where
  /-- The chain it comes from. -/
  fromChain : UInt32
  /-- The address it comes from. -/
  fromAddress : Address
  /-- The nonce of that address. -/
  nonce : UInt64
  /-- The chain it goes to. -/
  toChain : UInt32
  /-- The address it goes to. -/
  toAddress : Address
  /-- The last height at which it can be cashed. -/
  expireHeight : UInt64
  /-- The amount. -/
  amount : Word
  /-- Older metadata, if there is any. -/
  metadata? : Option Cheque.Metadata := none
  deriving DecidableEq

namespace Cheque

/-- The chain number that announces metadata. -/
def reservedChain : UInt32 := 0

/-! ## Reading -/

/-- A step of reading, which takes bytes from the front. -/
abbrev Reader := StateT Bytes (Except ChequeError)

/-- The next `n` bytes, which belong to a part. -/
def take (part : ChequePart) (n : Nat) : Reader Bytes := fun bs =>
  if bs.length < n then .error (.truncated part) else .ok (bs.take n, bs.drop n)

/-- The next byte. -/
def readByte (part : ChequePart) : Reader UInt8 := return UInt8.ofNat (Bytes.value (← take part 1))

/-- The next four bytes as a number. -/
def readUInt32 (part : ChequePart) : Reader UInt32 :=
  return UInt32.ofNat (Bytes.value (← take part 4))

/-- The next eight bytes as a number. -/
def readUInt64 (part : ChequePart) : Reader UInt64 :=
  return UInt64.ofNat (Bytes.value (← take part 8))

/-- The next twenty bytes as an address. -/
def readAddress (part : ChequePart) : Reader Address := return Address.fit (← take part 20)

/-- The number that the bytes of an amount spell. Leading zeros do not count. -/
def amountOf (bs : Bytes) : Except ChequeError Word :=
  let significant := bs.dropWhile (· == 0)
  if 32 < significant.length then .error (.amountTooLong significant.length)
  else .ok (Word.ofBytes significant)

/-- The amount: a byte that counts its bytes, and these. -/
def readAmount : Reader Word := do
  let length ← readByte .amountLength
  let bs ← take .amount length.toNat
  amountOf bs

/-- The metadata that the eight bytes behind version 1 spell. -/
def metadataOf (bs : Bytes) : Metadata where
  useLocal := bs.take 1 != [0]
  parentChain := UInt32.ofNat (Bytes.value ((bs.drop 1).take 4))
  isShard := (bs.drop 5).take 1 != [0]
  currency := UInt16.ofNat (Bytes.value ((bs.drop 6).take 2))

/-- The metadata of a version. Version 0 stands for payment in the currency of the chain and has no
    bytes of its own. -/
def readMetadata (version : UInt8) : Reader Metadata :=
  if version = 0 then return { useLocal := true }
  else if version = 1 then return metadataOf (← take .metadata 8)
  else throw (.unknownVersion version)

/-- The chain a cheque comes from, and the metadata in front of it. -/
def readOrigin : Reader (UInt32 × Option Metadata) := do
  let first ← readUInt32 .fromChain
  if first = reservedChain then
    let version ← readByte .version
    let metadata ← readMetadata version
    let fromChain ← readUInt32 .fromChain
    return (fromChain, some metadata)
  else return (first, none)

/-- A cheque. -/
def read : Reader Cheque := do
  let (fromChain, metadata?) ← readOrigin
  let fromAddress ← readAddress .fromAddress
  let nonce ← readUInt64 .nonce
  let toChain ← readUInt32 .toChain
  let toAddress ← readAddress .toAddress
  let expireHeight ← readUInt64 .expireHeight
  let amount ← readAmount
  return { fromChain, fromAddress, nonce, toChain, toAddress, expireHeight, amount, metadata? }

/-- The cheque at the front of a byte string. -/
def ofBytes (bs : Bytes) : Except ChequeError Cheque := (read.run bs).map (·.1)

/-! ## Writing -/

/-- The plain form of a cheque, without metadata. -/
def toBytes (cheque : Cheque) : Except ChequeError Bytes :=
  if cheque.fromChain = reservedChain then .error (.reservedChain cheque.fromChain)
  else
    let amount := cheque.amount.minimal
    .ok (Bytes.ofNat 4 cheque.fromChain.toNat ++ cheque.fromAddress.bytes
      ++ Bytes.ofNat 8 cheque.nonce.toNat
      ++ Bytes.ofNat 4 cheque.toChain.toNat ++ cheque.toAddress.bytes
      ++ Bytes.ofNat 8 cheque.expireHeight.toNat
      ++ UInt8.ofNat amount.length :: amount)

/-! ## Text -/

/-- The word for a truth value. -/
def boolText (b : Bool) : String := if b then "true" else "false"

/-- A chain and an address on it, between brackets. -/
def placeText (chain : UInt32) (address : Address) : String :=
  "[" ++ chain.toNat.repr ++ "," ++ address.text ++ "]"

/-- A description of a cheque. -/
def text (cheque : Cheque) : String :=
  let metadata := cheque.metadata?.getD {}
  "Check\x7bParentChain:" ++ metadata.parentChain.toNat.repr
    ++ " IsShard:" ++ boolText metadata.isShard
    ++ " From:" ++ placeText cheque.fromChain cheque.fromAddress
    ++ " Nonce:" ++ cheque.nonce.toNat.repr
    ++ " To:" ++ placeText cheque.toChain cheque.toAddress
    ++ " Expire:" ++ cheque.expireHeight.toNat.repr
    ++ " Local:" ++ boolText metadata.useLocal
    ++ " Amount:" ++ cheque.amount.text
    ++ " CoinID:" ++ metadata.currency.toNat.repr ++ "\x7d"

end Cheque

end ChainClient
