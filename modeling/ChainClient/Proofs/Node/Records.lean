import ChainClient.Cheque.Form
import ChainClient.Node.Account
import ChainClient.Node.Receipt
import ChainClient.Node.Stats
import ChainClient.Proofs.Gas
import ChainClient.Proofs.Json.Record
import ChainClient.Proofs.Transaction.Json

/-!
# `ChainClient.Proofs.Node.Records` — what goes to a node and comes from it, read a second time

Records whose fields are texts, numbers and truth values are read back from the text that they are
written as. Accounts and receipts also carry values that the client does not look into. Those are
read back unless sorting brought the mark of a number to the front of an object.

## Contents
- **Sent records.** `ChequeForm.ofText_render` and `ChainStats.ofText_render`, beside the laws for
  transactions and offers of gas.
- **Accounts.** `Account.ofText_render_eq_some_iff`.
- **Receipts.** `Receipt.ofText_render_eq_some_iff`.
- **Records.** `records_read_back` puts the laws together.
-/

namespace ChainClient

open JsonReader (fieldsOf sourceOf takeValue Settled)
open Outcome (bind_of_eq_some)

/-! ## Sent records -/

namespace ChequeForm

theorem writable_toJson (form : ChequeForm) : form.toJson.Writable := by
  refine .object fun member hmember => ?_
  simp only [List.mem_cons, List.not_mem_nil, or_false] at hmember
  rcases hmember with rfl | rfl | rfl | rfl | rfl | rfl | rfl | rfl
  all_goals exact .string _

theorem read_toJson (form : ChequeForm) : read .text (sourceOf form.toJson) = some form := rfl

/-- **Forms of cheques are read back.** -/
theorem ofText_render (form : ChequeForm) :
    JsonReader.ofText read (Utf8.bytes form.toJson.render) = some form := by
  rw [Json.ofText_render form.writable_toJson, read_toJson]

end ChequeForm

namespace ChainStats

theorem writable_toJson (stats : ChainStats) : stats.toJson.Writable := by
  refine .object fun member hmember => ?_
  simp only [List.mem_cons, List.not_mem_nil, or_false] at hmember
  rcases hmember with rfl | rfl | rfl | rfl | rfl | rfl | rfl | rfl | rfl | rfl | rfl | rfl | rfl |
    rfl | rfl | rfl
  all_goals first
    | exact Json.writable_ofNat _
    | exact .string _
    | exact Json.writable_strings _

/-- The fields that the reader finds in statistics. -/
def fields (stats : ChainStats) : JsonReader.Fields := fieldsOf .field stats.toJson

theorem fields_toJson (stats : ChainStats) :
    JsonReader.fields fieldNames .text (sourceOf stats.toJson) = some stats.fields := rfl

theorem read_toJson (stats : ChainStats) : read .text (sourceOf stats.toJson) = some stats := by
  have hcount {name : String} {n : UInt64}
      (h : stats.fields.find? name = some (.number n.toNat.repr)) :
      stats.fields.orElse name 0 JsonReader.uint64 = some n := by
    rw [JsonReader.Fields.orElse, h]
    exact JsonReader.uint64_repr n _
  have hchain : stats.fields.orElse "chainId" 0 JsonReader.uint32 = some stats.chain :=
    JsonReader.uint32_repr stats.chain _
  have hprice : stats.fields.orElse "gasprice" "" JsonReader.string = some stats.gasPrice := rfl
  have hcommittee : stats.fields.orElse "currentcomm" [] (JsonReader.list JsonReader.string) =
      some stats.committee := JsonReader.list_string stats.committee rfl
  rw [read, bind_of_eq_some stats.fields_toJson, bind_of_eq_some hchain,
    bind_of_eq_some (@hcount "currentheight" stats.currentHeight rfl),
    bind_of_eq_some (@hcount "epochduration" stats.epochDuration rfl),
    bind_of_eq_some (@hcount "epochlength" stats.epochLength rfl),
    bind_of_eq_some (@hcount "gaslimit" stats.gasLimit rfl), bind_of_eq_some hprice,
    bind_of_eq_some (@hcount "lastepochduration" stats.lastEpochDuration rfl),
    bind_of_eq_some (@hcount "lives" stats.lives rfl),
    bind_of_eq_some (@hcount "tps" stats.rate rfl),
    bind_of_eq_some (@hcount "tpsLastEpoch" stats.lastEpochRate rfl),
    bind_of_eq_some (@hcount "n" stats.window rfl),
    bind_of_eq_some (@hcount "tpsLastN" stats.windowRate rfl),
    bind_of_eq_some (@hcount "lastNduration" stats.windowDuration rfl),
    bind_of_eq_some (@hcount "txcount" stats.transactions rfl),
    bind_of_eq_some (@hcount "accountcount" stats.accounts rfl), bind_of_eq_some hcommittee]
  rfl

/-- **Statistics are read back.** -/
theorem ofText_render (stats : ChainStats) :
    JsonReader.ofText read (Utf8.bytes stats.toJson.render) = some stats := by
  rw [Json.ofText_render stats.writable_toJson, read_toJson]

end ChainStats

/-! ## Accounts -/

namespace Account

/-- Whether the free values of an account are as the reader takes them from texts. -/
structure FreeSettled (account : Account) : Prop where
  storageRoot : Settled .field account.storageRoot
  codeHash : Settled .field account.codeHash
  longStorageRoot : Settled .field account.longStorageRoot

/-- Whether no free value of an account has the mark of a number in front of an object. -/
structure FreeUndisguised (account : Account) : Prop where
  storageRoot : account.storageRoot.Undisguised
  codeHash : account.codeHash.Undisguised
  longStorageRoot : account.longStorageRoot.Undisguised

theorem writable_toJson {account : Account} (h : account.FreeSettled) :
    account.toJson.Writable := by
  refine .object fun member hmember => ?_
  simp only [List.mem_cons, List.not_mem_nil, or_false] at hmember
  rcases hmember with rfl | rfl | rfl | rfl | rfl | rfl | rfl
  · exact .string _
  · exact Json.writable_ofNat _
  · exact Json.writable_ofNat _
  · exact Json.writable_ofNat _
  · exact h.storageRoot.writable
  · exact h.codeHash.writable
  · exact h.longStorageRoot.writable

/-- The fields that the reader finds in an account. -/
def fields (account : Account) : JsonReader.Fields := fieldsOf .field account.toJson

theorem fields_toJson (account : Account) :
    JsonReader.fields fieldNames .text (sourceOf account.toJson) = some account.fields := rfl

/-- All fields are read back but the free values, which are taken as any value is. -/
theorem read_toJson (account : Account) : read .text (sourceOf account.toJson) =
    (takeValue .field (sourceOf account.storageRoot)).bind fun storageRoot =>
      (takeValue .field (sourceOf account.codeHash)).bind fun codeHash =>
        (takeValue .field (sourceOf account.longStorageRoot)).bind fun longStorageRoot =>
          some { account with storageRoot, codeHash, longStorageRoot } := by
  have haddress : account.fields.required "address" JsonReader.string = some account.address := rfl
  have hnonce : account.fields.orElse "nonce" 0 JsonReader.uint64 = some account.nonce :=
    JsonReader.uint64_repr account.nonce _
  have hbalance : account.fields.orElse "balance" 0 JsonReader.word = some account.balance :=
    JsonReader.word_repr account.balance rfl
  have hlocal : account.fields.orElse "localCurrency" 0 JsonReader.word =
      some account.localCurrency := JsonReader.word_repr account.localCurrency rfl
  rw [read, bind_of_eq_some account.fields_toJson, bind_of_eq_some haddress,
    bind_of_eq_some hnonce, bind_of_eq_some hbalance, bind_of_eq_some hlocal]
  rfl

theorem freeSettled_of_ofText {bs : Bytes} {account : Account}
    (h : JsonReader.ofText read bs = some account) : account.FreeSettled := by
  obtain ⟨source, hsource, hread⟩ := Option.bind_eq_some_iff.mp h
  simp only [read, Option.bind_eq_bind, Option.bind_eq_some_iff] at hread
  obtain ⟨record, hrecord, _, _, _, _, _, _, _, _, storageRoot, hstorage, codeHash, hcode,
    longStorageRoot, hlong, heq⟩ := hread
  obtain ⟨hinner, hkept⟩ := JsonReader.fields_kept (JsonSource.kept_of_parse hsource) hrecord
  obtain ⟨place, present⟩ := record
  obtain rfl : JsonReader.Place.field = place := Option.some.inj hinner
  cases heq
  exact ⟨JsonReader.Fields.settled_of_orElse rfl hkept hstorage,
    JsonReader.Fields.settled_of_orElse rfl hkept hcode,
    JsonReader.Fields.settled_of_orElse rfl hkept hlong⟩

/-- **Accounts.** An account that came from a text is read back from the text that it is written as
    if its free values are undisguised, and refused if they are not. -/
theorem ofText_render_eq_some_iff {bs : Bytes} {account again : Account}
    (h : JsonReader.ofText read bs = some account) :
    JsonReader.ofText read (Utf8.bytes account.toJson.render) = some again ↔
      account.FreeUndisguised ∧ again = account := by
  have hsettled := freeSettled_of_ofText h
  rw [Json.ofText_render (writable_toJson hsettled), read_toJson]
  simp only [Option.bind_eq_some_iff, hsettled.storageRoot.takeValue_eq_some_iff rfl,
    hsettled.codeHash.takeValue_eq_some_iff rfl, hsettled.longStorageRoot.takeValue_eq_some_iff rfl]
  constructor
  · rintro ⟨_, ⟨hstorage, rfl⟩, _, ⟨hcode, rfl⟩, _, ⟨hlong, rfl⟩, heq⟩
    exact ⟨⟨hstorage, hcode, hlong⟩, (Option.some.inj heq).symm⟩
  · rintro ⟨⟨hstorage, hcode, hlong⟩, rfl⟩
    exact ⟨_, ⟨hstorage, rfl⟩, _, ⟨hcode, rfl⟩, _, ⟨hlong, rfl⟩, rfl⟩

end Account

/-! ## Receipts -/

namespace ReceiptTransaction

theorem writable_toJson (tx : ReceiptTransaction) : tx.toJson.Writable := by
  refine .object fun member hmember => ?_
  simp only [List.mem_cons, List.not_mem_nil, or_false] at hmember
  rcases hmember with rfl | rfl | rfl | rfl | rfl | rfl | rfl | rfl | rfl | rfl
  all_goals first
    | exact Json.writable_ofNat _
    | exact .string _
    | exact .bool _

/-- The fields that the reader finds in a repeated transaction. -/
def fields (tx : ReceiptTransaction) : JsonReader.Fields := fieldsOf ⟨some 125, false⟩ tx.toJson

theorem fields_toJson (tx : ReceiptTransaction) :
    JsonReader.fields fieldNames .field (sourceOf tx.toJson) = some tx.fields := rfl

theorem read_toJson (tx : ReceiptTransaction) : read .field (sourceOf tx.toJson) = some tx := by
  have hchain : tx.fields.orElse "chainid" 0 JsonReader.uint32 = some tx.chain :=
    JsonReader.uint32_repr tx.chain _
  have hsender : tx.fields.orElse "from" "" JsonReader.string = some tx.sender := rfl
  have hrecipient : tx.fields.orElse "to" "" JsonReader.string = some tx.recipient := rfl
  have hnonce : tx.fields.orElse "nonce" 0 JsonReader.uint64 = some tx.nonce :=
    JsonReader.uint64_repr tx.nonce _
  have hvalue : tx.fields.orElse "value" 0 JsonReader.word = some tx.value :=
    JsonReader.word_repr tx.value rfl
  have hinput : tx.fields.orElse "input" "" JsonReader.string = some tx.input := rfl
  have hhash : tx.fields.orElse "hash" "" JsonReader.string = some tx.hash := rfl
  have hlocal : tx.fields.orElse "uselocal" false JsonReader.bool = some tx.useLocal := rfl
  have hextra : tx.fields.orElse "extra" "" JsonReader.string = some tx.extra := rfl
  have htime : tx.fields.orElse "timestamp" 0 JsonReader.uint64 = some tx.timestamp :=
    JsonReader.uint64_repr tx.timestamp _
  rw [read, bind_of_eq_some tx.fields_toJson, bind_of_eq_some hchain, bind_of_eq_some hsender,
    bind_of_eq_some hrecipient, bind_of_eq_some hnonce, bind_of_eq_some hvalue,
    bind_of_eq_some hinput, bind_of_eq_some hhash, bind_of_eq_some hlocal, bind_of_eq_some hextra,
    bind_of_eq_some htime]
  rfl

end ReceiptTransaction

namespace Receipt

theorem writable_toJson {receipt : Receipt} (h : Settled .field receipt.logs) :
    receipt.toJson.Writable := by
  refine .object fun member hmember => ?_
  simp only [List.mem_cons, List.not_mem_nil, or_false] at hmember
  rcases hmember with rfl | rfl | rfl | rfl | rfl | rfl | rfl | rfl | rfl | rfl | rfl
  all_goals first
    | exact receipt.transaction.writable_toJson
    | exact h.writable
    | exact Json.writable_ofNat _
    | exact Json.writable_ofInt _
    | exact .string _

/-- The fields that the reader finds in a receipt. -/
def fields (receipt : Receipt) : JsonReader.Fields := fieldsOf .field receipt.toJson

theorem fields_toJson (receipt : Receipt) :
    JsonReader.fields fieldNames .text (sourceOf receipt.toJson) = some receipt.fields := rfl

/-- All fields are read back but the logs, which are taken as any value is. -/
theorem read_toJson (receipt : Receipt) : read .text (sourceOf receipt.toJson) =
    (takeValue .field (sourceOf receipt.logs)).bind fun logs => some { receipt with logs } := by
  have htransaction : receipt.fields.orElse "tx" {} ReceiptTransaction.read =
      some receipt.transaction := receipt.transaction.read_toJson
  have hroot : receipt.fields.orElse "root" "" JsonReader.string = some receipt.root := rfl
  have hstatus : receipt.fields.orElse "status" 0 JsonReader.int64 = some receipt.status :=
    JsonReader.int64_ofInt receipt.status _
  have hhash : receipt.fields.orElse "transactionHash" "" JsonReader.string =
      some receipt.transactionHash := rfl
  have haddress : receipt.fields.orElse "contractAddress" "" JsonReader.string =
      some receipt.contractAddress := rfl
  have hout : receipt.fields.orElse "out" "" JsonReader.string = some receipt.out := rfl
  have hfee : receipt.fields.orElse "gasFee" "" JsonReader.string = some receipt.gasFee := rfl
  have hused : receipt.fields.orElse "gasUsed" 0 JsonReader.uint64 = some receipt.gasUsed :=
    JsonReader.uint64_repr receipt.gasUsed _
  have hheight : receipt.fields.orElse "blockHeight" 0 JsonReader.uint64 =
      some receipt.blockHeight := JsonReader.uint64_repr receipt.blockHeight _
  rw [read, bind_of_eq_some receipt.fields_toJson, bind_of_eq_some htransaction,
    bind_of_eq_some hroot, bind_of_eq_some hstatus]
  refine congrArg (Option.bind _) (funext fun logs => ?_)
  rw [bind_of_eq_some hhash, bind_of_eq_some haddress, bind_of_eq_some hout, bind_of_eq_some hfee,
    bind_of_eq_some hused, bind_of_eq_some hheight]
  rfl

theorem settled_of_ofText {bs : Bytes} {receipt : Receipt}
    (h : JsonReader.ofText read bs = some receipt) : Settled .field receipt.logs := by
  obtain ⟨source, hsource, hread⟩ := Option.bind_eq_some_iff.mp h
  simp only [read, Option.bind_eq_bind, Option.bind_eq_some_iff] at hread
  obtain ⟨record, hrecord, _, _, _, _, _, _, logs, hlogs, _, _, _, _, _, _, _, _, _, _, _, _, _, _,
    heq⟩ := hread
  obtain ⟨hinner, hkept⟩ := JsonReader.fields_kept (JsonSource.kept_of_parse hsource) hrecord
  obtain ⟨place, present⟩ := record
  obtain rfl : JsonReader.Place.field = place := Option.some.inj hinner
  cases heq
  exact JsonReader.Fields.settled_of_orElse rfl hkept hlogs

/-- **Receipts.** A receipt that came from a text is read back from the text that it is written as
    if its logs are undisguised, and refused if they are not. -/
theorem ofText_render_eq_some_iff {bs : Bytes} {receipt again : Receipt}
    (h : JsonReader.ofText read bs = some receipt) :
    JsonReader.ofText read (Utf8.bytes receipt.toJson.render) = some again ↔
      receipt.logs.Undisguised ∧ again = receipt := by
  have hsettled := settled_of_ofText h
  rw [Json.ofText_render (writable_toJson hsettled), read_toJson]
  simp only [Option.bind_eq_some_iff, hsettled.takeValue_eq_some_iff rfl]
  constructor
  · rintro ⟨_, ⟨hlogs, rfl⟩, heq⟩
    exact ⟨hlogs, (Option.some.inj heq).symm⟩
  · rintro ⟨hlogs, rfl⟩
    exact ⟨_, ⟨hlogs, rfl⟩, rfl⟩

end Receipt

/-! ## Records -/

/-- **Records are read back** from the texts that they are written as. For those with free values
    that came from a text this holds if the free values are undisguised, and their texts are refused
    if they are not. -/
theorem records_read_back :
    (∀ tx : Transaction,
      JsonReader.ofText Transaction.read (Utf8.bytes tx.toJson.render) = some tx) ∧
    (∀ form : ChequeForm,
      JsonReader.ofText ChequeForm.read (Utf8.bytes form.toJson.render) = some form) ∧
    (∀ gas : Gas, JsonReader.ofText Gas.read (Utf8.bytes gas.toJson.render) = some gas) ∧
    (∀ stats : ChainStats,
      JsonReader.ofText ChainStats.read (Utf8.bytes stats.toJson.render) = some stats) ∧
    (∀ (bs : Bytes) (account : Account), JsonReader.ofText Account.read bs = some account →
      ∀ again, JsonReader.ofText Account.read (Utf8.bytes account.toJson.render) = some again ↔
        account.FreeUndisguised ∧ again = account) ∧
    (∀ (bs : Bytes) (receipt : Receipt), JsonReader.ofText Receipt.read bs = some receipt →
      ∀ again, JsonReader.ofText Receipt.read (Utf8.bytes receipt.toJson.render) = some again ↔
        receipt.logs.Undisguised ∧ again = receipt) := by
  refine ⟨Transaction.ofText_render, ChequeForm.ofText_render, Gas.ofText_render,
    ChainStats.ofText_render, ?_, ?_⟩
  · intro bs account haccount again
    exact Account.ofText_render_eq_some_iff haccount
  · intro bs receipt hreceipt again
    exact Receipt.ofText_render_eq_some_iff hreceipt

/-- An account with an object for a storage root, and nothing else but an address. -/
def Account.rooted (members : List (String × Json)) : Account :=
  { address := "a", storageRoot := .object members }

/-- The JSON of such an account, in which defaults are left out. -/
def Account.rootedJson (members : List (String × Json)) : Json :=
  .object [("address", .string "a"), ("storageRoot", .object members)]

theorem Account.ofText_rootedJson {members : List (String × Json)}
    (h : ∀ member ∈ members, member.2.Writable) :
    JsonReader.ofText Account.read (Utf8.bytes (Account.rootedJson members).render) =
      Account.read .text (sourceOf (Account.rootedJson members)) := by
  refine Json.ofText_render (.object fun member hmember => ?_) Account.read
  simp only [List.mem_cons, List.not_mem_nil, or_false] at hmember
  rcases hmember with rfl | rfl
  · exact .string _
  · exact .object h

/-- A storage root whose members are written in another order. -/
theorem records_read_back_of_unsorted :
    JsonReader.ofText Account.read
        (Utf8.bytes (Account.rootedJson [("b", .number "1.50"), ("a", .array [.null])]).render) =
      some (Account.rooted [("a", .array [.null]), ("b", .number "1.50")]) ∧
    JsonReader.ofText Account.read (Utf8.bytes
        (Account.rooted [("a", .array [.null]), ("b", .number "1.50")]).toJson.render) =
      some (Account.rooted [("a", .array [.null]), ("b", .number "1.50")]) := by
  have hread : JsonReader.ofText Account.read
        (Utf8.bytes (Account.rootedJson [("b", .number "1.50"), ("a", .array [.null])]).render) =
      some (Account.rooted [("a", .array [.null]), ("b", .number "1.50")]) := by
    rw [Account.ofText_rootedJson]
    · rfl
    · simp only [List.forall_mem_cons]
      exact ⟨.number rfl, .array (List.forall_mem_singleton.mpr .null), List.forall_mem_nil _⟩
  obtain ⟨-, -, -, -, haccount, -⟩ := records_read_back
  refine ⟨hread, (haccount _ _ hread _).mpr ⟨⟨.object (by decide) ?_, .null, .null⟩, rfl⟩⟩
  simp only [List.forall_mem_cons]
  exact ⟨.array (List.forall_mem_singleton.mpr .null), .number _, List.forall_mem_nil _⟩

/-- Sorting brings the mark of a number to the front: the account is accepted, and what it is
    written as is not. -/
theorem account_refused :
    JsonReader.ofText Account.read (Utf8.bytes (Account.rootedJson
        [("x", .number "1"), ("$serde_json::private::Number", .string "12")]).render) =
      some (Account.rooted [("$serde_json::private::Number", .string "12"), ("x", .number "1")]) ∧
    JsonReader.ofText Account.read (Utf8.bytes (Account.rooted
        [("$serde_json::private::Number", .string "12"), ("x", .number "1")]).toJson.render) =
      none := by
  have hread : JsonReader.ofText Account.read (Utf8.bytes (Account.rootedJson
        [("x", .number "1"), ("$serde_json::private::Number", .string "12")]).render) =
      some (Account.rooted
        [("$serde_json::private::Number", .string "12"), ("x", .number "1")]) := by
    rw [Account.ofText_rootedJson]
    · rfl
    · simp only [List.forall_mem_cons]
      exact ⟨.number rfl, .string _, List.forall_mem_nil _⟩
  refine ⟨hread, ?_⟩
  rw [Json.ofText_render (Account.writable_toJson (Account.freeSettled_of_ofText hread))]
  rfl

end ChainClient
