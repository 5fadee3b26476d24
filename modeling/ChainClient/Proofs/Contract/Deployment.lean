import ChainClient.Proofs.Abi.Interface
import ChainClient.Proofs.Abi.RoundTrip
import ChainClient.Proofs.Contract
import ChainClient.Proofs.Hex

/-!
# `ChainClient.Proofs.Contract.Deployment` — code, and the arguments of its constructor behind it

The input of a deployment is a text: that of the code, as its author wrote it, with the digits of
the packed arguments behind it. What is signed are the bytes that the lossy reader makes of the
whole text. A mark is only looked for in front, and an odd number of digits gets its zero there, so
the arguments begin on a byte of their own.

## Contents
- **Code.** `Hex.lossy_append_text`: digits of bytes behind a text of digits are read as these
  bytes.
- **Payload.** `Transaction.payload_with_input`: of the payload, only the input depends on the
  input.
- **Deployment.** `signDeployment_eq` and `deploy_eq` say what a deployment comes to.
- **Arguments.** `deploy_signs_code_and_arguments` adds what becomes of the arguments.
-/

namespace ChainClient

open Abi Crypto

namespace Hex

/-! ## Code -/

theorem encode_injective {as bs : Bytes} (h : encode as = encode bs) : as = bs := by
  have has := decode_eq_ok_iff.mpr (map_toLower_encode as)
  rw [h, decode_eq_ok_iff.mpr (map_toLower_encode bs)] at has
  exact (Except.ok.inj has).symm

/-- Digits behind a text of digits do not make a mark of its front. -/
theorem dropMark_append {cs ds : List Char}
    (h : ∀ c ∈ dropMark cs ++ ds, (Numeral.digit? 16 c).isSome = true) :
    dropMark (cs ++ ds) = dropMark cs ++ ds := by
  by_cases hmark : hasMark cs = true
  · obtain ⟨mark, digits, rfl, hx⟩ := hasMark_iff.mp hmark
    have hwhole : hasMark ('0' :: mark :: digits ++ ds) = true :=
      hasMark_iff.mpr ⟨mark, digits ++ ds, rfl, hx⟩
    rw [dropMark, if_pos hwhole, dropMark, if_pos hmark]
    rfl
  · have hfront : dropMark cs = cs := if_neg hmark
    rw [hfront] at h ⊢
    refine if_neg fun hwhole => ?_
    obtain ⟨mark, digits, hsplit, hx⟩ := hasMark_iff.mp hwhole
    have hdigit : (Numeral.digit? 16 mark).isSome = true := by
      apply h
      rw [hsplit]
      exact List.mem_cons_of_mem _ List.mem_cons_self
    rcases hx with rfl | rfl
    · exact absurd hdigit (by decide)
    · exact absurd hdigit (by decide)

/-- **Bytes behind a text of digits** are read as they are, whatever the number of the digits. -/
theorem lossy_append_text {s : String} (h : OnlyDigits s) (bs : Bytes) :
    lossy (s ++ text bs) = lossy s ++ bs := by
  have hall : ∀ c ∈ dropMark s.toList ++ encode bs, (Numeral.digit? 16 c).isSome = true := by
    rw [List.forall_mem_append]
    refine ⟨h, fun c hc => isSome_digit?_iff.mpr ?_⟩
    obtain ⟨d, hd, rfl⟩ := exists_digit_of_mem_encode hc
    exact ⟨d, hd, Numeral.toLower_digitChar hd⟩
  have hbody : dropMark (s ++ text bs).toList = dropMark s.toList ++ encode bs := by
    rw [String.toList_append, text, String.toList_ofList]
    exact dropMark_append hall
  have hdigits : OnlyDigits (s ++ text bs) := by
    unfold OnlyDigits
    rwa [hbody]
  have hparity : ((dropMark s.toList).length + 2 * bs.length) % 2 =
      (dropMark s.toList).length % 2 := by omega
  apply encode_injective
  rw [show encode (lossy s ++ bs) = encode (lossy s) ++ encode bs from List.flatMap_append,
    encode_lossy_of_onlyDigits hdigits, encode_lossy_of_onlyDigits h, hbody, List.length_append,
    length_encode, hparity, List.map_append, map_toLower_encode]
  split
  · rfl
  · rfl

end Hex

/-! ## Payload -/

theorem Transaction.payload_with_input (tx : Transaction) (base : UInt64) (input : String) :
    { tx with input }.payload base =
      (tx.payload base).map fun payload => { payload with input := Hex.lossy input } := by
  have hchain : { tx with input }.chainNumber base = tx.chainNumber base := rfl
  unfold payload
  rw [hchain]
  cases tx.chainNumber base with
  | error e => rfl
  | ok chain =>
    cases readDecimalField "value" tx.value with
    | error e => rfl
    | ok value =>
      cases readCountField "nonce" tx.nonce with
      | error e => rfl
      | ok nonce =>
        show Except.bind (Gas.ofExtra tx.extra) _ =
          Except.map _ (Except.bind (Gas.ofExtra tx.extra) _)
        cases Gas.ofExtra tx.extra with
        | error e => rfl
        | ok gas => rfl

namespace Contract

/-! ## Deployment -/

/-- **A signed deployment.** The payload of the transaction is made, with the bytes of the code and
    of the packed arguments for its input, and the signer signs its hash. -/
theorem signDeployment_eq (contract : Contract) (client : Client) (tx : Transaction)
    {bytecode : String} (signer : Signer) {arguments : List AbiValue} {packed : Bytes}
    (hcode : Hex.OnlyDigits bytecode)
    (hpacked : contract.interface.pack "" arguments = .ok packed) :
    contract.signDeployment client tx bytecode signer arguments = (do
      let payload ← tx.payload client.config.chainBase
      let signature ← signer.sign
        (Keccak.keccak256 { payload with input := Hex.lossy bytecode ++ packed }.encode)
      return { tx with
        input := bytecode ++ Hex.text packed
        signature := Hex.marked signature
        publicKey := Hex.marked signer.publicKey }) := by
  have hsteps : contract.signDeployment client tx bytecode signer arguments =
      Transaction.sign { tx with input := bytecode ++ Hex.text packed } client.config.chainBase
        signer [] := by
    unfold signDeployment
    rw [hpacked]
    rfl
  rw [hsteps, sign_alone, Transaction.signingHash, Transaction.payload_with_input,
    Hex.lossy_append_text hcode]
  cases tx.payload client.config.chainBase with
  | error e => rfl
  | ok payload =>
    simp only [Except.map, bind, Except.bind, pure, Except.pure]
    cases signer.sign _ with
    | error e => rfl
    | ok signature => rfl

/-- What is signed is submitted. -/
theorem deploy_eq (contract : Contract) (client : Client) (tx : Transaction) {bytecode : String}
    (signer : Signer) {arguments : List AbiValue} {packed : Bytes}
    (hcode : Hex.OnlyDigits bytecode)
    (hpacked : contract.interface.pack "" arguments = .ok packed) :
    contract.deploy client tx bytecode signer arguments = (do
      let payload ← tx.payload client.config.chainBase
      let signature ← signer.sign
        (Keccak.keccak256 { payload with input := Hex.lossy bytecode ++ packed }.encode)
      Client.send { tx with
        input := bytecode ++ Hex.text packed
        signature := Hex.marked signature
        publicKey := Hex.marked signer.publicKey }) := by
  unfold deploy
  rw [signDeployment_eq contract client tx signer hcode hpacked]
  simp only [liftM_bind, bind_assoc]
  rfl

/-! ## Arguments -/

/-- The types of a described constructor have names. -/
theorem isNamed_constructorTypes {contract : Contract} {description : String}
    (h : ofJson description = .ok contract) {type : AbiType}
    (htype : type ∈ contract.interface.constructorTypes) : type.IsNamed := by
  obtain ⟨interface, hread, rfl⟩ := Outcome.map_eq_ok_iff.mp h
  have hwf := Interface.wellFormed_of_ofJson (Outcome.mapError_eq_ok_iff.mp hread)
  cases hconstructor : interface.constructor? with
  | none =>
    rw [Interface.constructorTypes, hconstructor] at htype
    cases htype
  | some f =>
    rw [Interface.constructorTypes, hconstructor] at htype
    exact AbiType.isNamed_iff.mpr ((hwf.constructor? f hconstructor).inputs type htype)

/-- Without a constructor there is nothing to pass. -/
theorem pack_of_no_constructor {interface : Interface} (h : interface.constructor? = none)
    {arguments : List AbiValue} {packed : Bytes} :
    interface.pack "" arguments = .ok packed ↔ arguments = [] ∧ packed = [] := by
  have htypes : interface.constructorTypes = [] := by
    rw [Interface.constructorTypes, h]
    rfl
  rw [Interface.pack, if_pos rfl, htypes, encode_eq_ok_iff]
  constructor
  · rintro ⟨hcount, -, rfl⟩
    obtain rfl := List.length_eq_zero_iff.mp hcount.symm
    exact ⟨rfl, rfl⟩
  · rintro ⟨rfl, rfl⟩
    exact ⟨rfl, List.forall_mem_nil _, rfl⟩

/-- **Code and arguments are signed.** Whatever the number of digits of the code, and with a mark or
    without, what is signed and submitted is the payload of the transaction with the bytes of the
    code for its input, and the packed arguments right behind them. The arguments are unpacked again
    if their types have names and their arrays take up room; the types of a description have names.
    A contract that describes no constructor takes no arguments. -/
theorem deploy_signs_code_and_arguments (contract : Contract) :
    (∀ (client : Client) (tx : Transaction) (bytecode : String) (signer : Signer)
        (arguments : List AbiValue) (packed : Bytes),
      Hex.OnlyDigits bytecode → contract.interface.pack "" arguments = .ok packed →
      contract.deploy client tx bytecode signer arguments = (do
        let payload ← tx.payload client.config.chainBase
        let signature ← signer.sign
          (Keccak.keccak256 { payload with input := Hex.lossy bytecode ++ packed }.encode)
        Client.send { tx with
          input := bytecode ++ Hex.text packed
          signature := Hex.marked signature
          publicKey := Hex.marked signer.publicKey })) ∧
    (∀ arguments packed, contract.interface.pack "" arguments = .ok packed →
      packed.length < 2 ^ 63 →
      (∀ type ∈ contract.interface.constructorTypes, type.IsNamed ∧ type.ArraysTakeRoom) →
      decode contract.interface.constructorTypes packed = .ok arguments) ∧
    (∀ description, ofJson description = .ok contract →
      ∀ type ∈ contract.interface.constructorTypes, type.IsNamed) ∧
    (contract.interface.constructor? = none → ∀ arguments packed,
      contract.interface.pack "" arguments = .ok packed ↔ arguments = [] ∧ packed = []) := by
  refine ⟨fun client tx bytecode signer arguments packed hcode hpacked =>
      deploy_eq contract client tx signer hcode hpacked,
    fun arguments packed hpacked hlen htypes => ?_,
    fun description h type htype => isNamed_constructorTypes h htype,
    fun h arguments packed => pack_of_no_constructor h⟩
  have hmax : packed.length ≤ AbiType.maxOffset := Nat.le_trans (Nat.le_of_lt hlen) (by decide)
  have hread := decode_packed_append
    (fun type htype => AbiType.wellFormed_of_isNamed (htypes type htype).1)
    (fun type htype => (htypes type htype).2) hpacked hmax []
  rwa [List.append_nil] at hread

/-- The description of a constructor that takes a truth value. -/
def constructorDescription : Json :=
  .array [.object [("type", .string "constructor"),
    ("inputs", .array [.object [("type", .string "bool")]])]]

theorem writable_constructorDescription : constructorDescription.Writable := by
  have hparam : Json.Writable (.object [("type", .string "bool")]) :=
    .object (List.forall_mem_singleton.mpr (.string "bool"))
  refine .array (List.forall_mem_singleton.mpr (.object (List.forall_mem_cons.mpr
    ⟨.string "constructor", List.forall_mem_singleton.mpr (.array ?_)⟩)))
  exact List.forall_mem_singleton.mpr hparam

theorem ofJson_constructorDescription :
    ofJson constructorDescription.render =
      .ok ⟨{ constructor? := some ⟨"", [⟨"", .bool, false⟩], [], false⟩ }⟩ := by
  have hbool : AbiType.parseWith [] "bool" = .ok .bool :=
    AbiType.parseWith_word (by decide) (by decide) (AbiType.parseChars_word (by decide) rfl)
  have hentries : Param.ofEntries [⟨"", "bool", [], false⟩] = .ok [⟨"", .bool, false⟩] :=
    Param.ofEntries_cons_eq_ok_iff.mpr
      ⟨_, Param.ofEntry_eq_ok_iff.mpr ⟨[], rfl, _, hbool, rfl⟩, [], rfl, rfl⟩
  have hread : Entry.readAll constructorDescription.render =
      some [{ kind := "constructor", inputs := [⟨"", "bool", [], false⟩] }] := by
    rw [Entry.readAll, Json.ofText_render writable_constructorDescription]
    rfl
  simp only [ofJson, Interface.ofJson, hread, Interface.ofEntries, List.foldlM_cons,
    Interface.addEntry, hentries]
  rfl

/-- Code with an odd number of digits behind a capital mark, a described constructor, and a contract
    that describes none. -/
theorem deploy_signs_code_and_arguments_of_odd_code :
    let contract : Contract := ⟨{ constructor? := some ⟨"", [⟨"", .bool, false⟩], [], false⟩ }⟩
    let client : Client := ⟨{}⟩
    let tx := Transaction.onChain "1"
    let signer : Signer := ⟨fun _ => .ok [1], [2]⟩
    let packed : Bytes := List.replicate 31 0 ++ [1]
    contract.deploy client tx "0X6fE" signer [.bool true] = (do
      let payload ← tx.payload client.config.chainBase
      let signature ← signer.sign
        (Keccak.keccak256 { payload with input := [0x06, 0xFE] ++ packed }.encode)
      Client.send { tx with
        input := "0X6fE" ++ Hex.text packed
        signature := Hex.marked signature
        publicKey := Hex.marked signer.publicKey }) ∧
    decode contract.interface.constructorTypes packed = .ok [.bool true] ∧
    (⟨{}⟩ : Contract).interface.pack "" [.bool true] ≠ .ok packed := by
  intro contract client tx signer packed
  obtain ⟨hdeploy, harguments, hnamed, -⟩ := deploy_signs_code_and_arguments contract
  obtain ⟨-, -, -, hnone⟩ := deploy_signs_code_and_arguments ⟨{}⟩
  have hpacked : contract.interface.pack "" [.bool true] = .ok packed := rfl
  have hbytes : Hex.lossy "0X6fE" = [0x06, 0xFE] := by decide
  refine ⟨?_, harguments [.bool true] packed hpacked (by decide) fun type htype => ⟨?_, ?_⟩, ?_⟩
  · rw [hdeploy client tx "0X6fE" signer [.bool true] packed (by decide) hpacked, hbytes]
  · exact hnamed constructorDescription.render ofJson_constructorDescription type htype
  · rw [List.mem_singleton.mp htype]
    exact .bool
  · intro hrefused
    exact absurd ((hnone rfl _ _).mp hrefused).1 (List.cons_ne_nil _ _)

end Contract

end ChainClient
