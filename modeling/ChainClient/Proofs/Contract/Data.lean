import ChainClient.Contract
import ChainClient.Proofs.Abi.Notation
import ChainClient.Proofs.Abi.RoundTrip
import ChainClient.Proofs.Hex

/-!
# `ChainClient.Proofs.Contract.Data` — what goes into a call and what comes out of it

A call carries the selector of its function in front of the packed arguments, and the node writes
what the call returns as hexadecimal, with a mark or without. Packing and unpacking are each other's
inverse underneath, so only the frames are left to look at: four bytes, and the spelling of digits.

## Contents
- **Call data.** `Function.decodeInput_encodeInput` unpacks the arguments of a call again, and
  `Function.decodeInput_of_not_isPrefix` refuses data without the selector.
- **Output.** `Contract.IsOutput` are the texts of an output; `Contract.outputBytes_eq_ok_iff` says
  that they are read, and no others.
- **Both.** `Contract.decodeInput_parse`, for every function of a contract.
-/

namespace ChainClient

namespace Abi

/-! ## Call data -/

theorem length_selector (signature : String) : (selector signature).length = 4 := by
  rw [selector, List.length_take]
  exact congrArg (min 4) (Crypto.Keccak.keccak256 (Utf8.bytes signature)).octets.length_bytes

namespace Function

variable {f : Function} {data : Bytes}

/-- **Functions whose data can be unpacked**: what they take and return has types with names, whose
    arrays take up room. -/
structure IsUnpackable (f : Function) : Prop where
  isNamed : ∀ type ∈ f.inputTypes ++ f.outputTypes, type.IsNamed
  takesRoom : ∀ type ∈ f.inputTypes ++ f.outputTypes, type.ArraysTakeRoom

theorem IsUnpackable.wellFormed (hf : f.IsUnpackable) {type : AbiType}
    (h : type ∈ f.inputTypes ++ f.outputTypes) : type.WellFormed :=
  AbiType.wellFormed_of_isNamed (hf.isNamed type h)

theorem encodeInput_eq_ok_iff {arguments : List AbiValue} :
    f.encodeInput arguments = .ok data ↔
      ∃ packed, encode f.inputTypes arguments = .ok packed ∧ f.selector ++ packed = data :=
  Outcome.map_eq_ok_iff

/-- **Arguments** come back from the data of a call, whatever stands behind the data. -/
theorem decodeInput_encodeInput (hf : f.IsUnpackable) {arguments : List AbiValue}
    (h : f.encodeInput arguments = .ok data) (hlen : data.length < 2 ^ 63) (trailing : Bytes) :
    f.decodeInput (data ++ trailing) = .ok arguments := by
  obtain ⟨packed, hpacked, rfl⟩ := encodeInput_eq_ok_iff.mp h
  have hselector : f.selector.length = 4 := length_selector f.signature
  rw [List.length_append] at hlen
  rw [decodeInput, List.append_assoc, List.take_left' hselector, if_pos rfl,
    List.drop_left' hselector]
  have hmax : packed.length ≤ AbiType.maxOffset :=
    Nat.le_trans (Nat.le_of_lt (Nat.lt_of_le_of_lt (Nat.le_add_left _ _) hlen)) (by decide)
  exact decode_packed_append
    (fun type htype => hf.wellFormed (List.mem_append_left _ htype))
    (fun type htype => hf.takesRoom type (List.mem_append_left _ htype)) hpacked hmax trailing

/-- **Data of other calls** is refused. -/
theorem decodeInput_of_not_isPrefix (h : ¬ f.selector <+: data) :
    f.decodeInput data =
      .error (.invalidData ("call data does not start with the selector of " ++ f.signature)) := by
  refine if_neg fun hfront => h ?_
  rw [← hfront]
  exact List.take_prefix 4 data

/-- Data that starts with a selector has the four bytes of it. -/
theorem not_isPrefix_of_length_lt (h : data.length < 4) : ¬ f.selector <+: data := by
  intro hprefix
  have hle := hprefix.length_le
  rw [selector, length_selector] at hle
  omega

end Function

end Abi

open Abi

namespace Contract

/-! ## Output -/

/-- **The texts of an output**: its digits in letters of any case, behind a mark of either form or
    behind none. -/
def IsOutput (out : String) (data : Bytes) : Prop :=
  Hex.IsMarked out data ∨ out.toList.map Char.toLower = Hex.encode data

/-- Digits without a mark do not look as if they had one. -/
theorem hasMark_of_digits {cs : List Char} {data : Bytes}
    (h : cs.map Char.toLower = Hex.encode data) : Hex.hasMark cs = false := by
  refine Bool.eq_false_iff.mpr fun hmark => ?_
  obtain ⟨mark, digits, rfl, hx⟩ := Hex.hasMark_iff.mp hmark
  have hmem : mark.toLower ∈ Hex.encode data := by
    rw [← h]
    exact List.mem_map_of_mem (List.mem_cons_of_mem _ List.mem_cons_self)
  obtain ⟨d, hd, hdigit⟩ := Hex.exists_digit_of_mem_encode hmem
  have hall : ∀ d : Fin 16, 'x'.toLower ≠ d.val.digitChar ∧ 'X'.toLower ≠ d.val.digitChar := by
    decide
  rcases hx with rfl | rfl
  · exact (hall ⟨d, hd⟩).1 hdigit
  · exact (hall ⟨d, hd⟩).2 hdigit

/-- **The bytes of an output** are read from its texts, and from no others. -/
theorem outputBytes_eq_ok_iff {out : String} {data : Bytes} :
    outputBytes out = .ok data ↔ IsOutput out data := by
  unfold outputBytes
  split
  · next hmark =>
    rw [Outcome.mapError_eq_ok_iff, Hex.decodeMarked_eq_ok_iff]
    refine ⟨.inl, fun h => h.resolve_right fun hdigits => ?_⟩
    rw [hasMark_of_digits hdigits] at hmark
    cases hmark
  · next hmark =>
    rw [Outcome.mapError_eq_ok_iff, Utf8.bytes, Hex.decode_eq_ok_iff]
    refine ⟨.inr, fun h => h.resolve_left ?_⟩
    rintro ⟨mark, digits, hout, hx, _⟩
    exact hmark (Hex.hasMark_iff.mpr ⟨mark, digits, hout, hx⟩)

/-- The output of a function is unpacked as the function says. -/
theorem parse_of_isOutput {contract : Contract} {f : Function} {out method : String} {data : Bytes}
    (hf : contract.function? method = some f) (h : IsOutput out data) :
    contract.parse out method = liftAbi (f.decodeOutput data) := by
  have hfind : contract.interface.functions.find? method = some f := hf
  rw [parse, outputBytes_eq_ok_iff.mpr h]
  show liftAbi (contract.interface.unpack method data) = _
  rw [Interface.unpack, Interface.function, hfind]
  rfl

/-! ## Both -/

/-- **Calls and their output.** The arguments of a function come back from the data of a call,
    whatever stands behind it, and data that does not start with the selector is refused. Results
    that have the types of the function can be packed, and come back from every text of the packed
    data. -/
theorem decodeInput_parse (f : Function) (hf : f.IsUnpackable) :
    (∀ arguments data trailing, f.encodeInput arguments = .ok data → data.length < 2 ^ 63 →
      f.decodeInput (data ++ trailing) = .ok arguments) ∧
    (∀ data : Bytes, data.length < 4 ∨ ¬ f.selector <+: data →
      f.decodeInput data = .error
        (.invalidData ("call data does not start with the selector of " ++ f.signature))) ∧
    (∀ (contract : Contract) method values, contract.function? method = some f →
      List.Forall₂ Inhabits f.outputTypes values →
      ∃ data, encode f.outputTypes values = .ok data ∧
        (data.length < 2 ^ 63 →
          ∀ out, IsOutput out data → contract.parse out method = .ok values)) := by
  refine ⟨fun arguments data trailing h hlen => Function.decodeInput_encodeInput hf h hlen trailing,
    fun data hdata => Function.decodeInput_of_not_isPrefix ?_,
    fun contract method values hmethod hvalues => ?_⟩
  · rcases hdata with hshort | hother
    · exact Function.not_isPrefix_of_length_lt hshort
    · exact hother
  · obtain ⟨hcount, hfit⟩ := List.forall₂_iff_zip.mp hvalues
    have hpacked := encode_eq_ok_iff.mpr ⟨hcount, fun pair hpair => hfit hpair, rfl⟩
    refine ⟨_, hpacked, fun hlen out hout => ?_⟩
    have hread := decode_packed_append
      (fun type htype => hf.wellFormed (List.mem_append_right _ htype))
      (fun type htype => hf.takesRoom type (List.mem_append_right _ htype)) hpacked
      (Nat.le_trans (Nat.le_of_lt hlen) (by decide)) []
    rw [List.append_nil] at hread
    rw [parse_of_isOutput hmethod hout, Function.decodeOutput, hread]
    rfl

/-- A function that takes and returns dynamic values, and an output in capitals behind a capital
    mark. -/
theorem decodeInput_parse_of_capitals :
    let f : Function := ⟨"f", [⟨"", .array (.uint 8), false⟩], [⟨"", .fixedBytes 2, false⟩], true⟩
    let contract : Contract := ⟨{ functions := [("f", f)] }⟩
    f.IsUnpackable ∧
    (∃ data, f.encodeInput [.array [.uint 7]] = .ok data ∧ data.length < 2 ^ 63 ∧
      ∀ trailing, f.decodeInput (data ++ trailing) = .ok [.array [.uint 7]]) ∧
    f.decodeInput [1, 2, 3] = .error
      (.invalidData ("call data does not start with the selector of " ++ f.signature)) ∧
    contract.parse
      "0XABcd000000000000000000000000000000000000000000000000000000000000" "f" =
        .ok [.fixedBytes [0xAB, 0xCD]] := by
  intro f contract
  have hf : f.IsUnpackable := by
    have hwf : ∀ type ∈ f.inputTypes ++ f.outputTypes,
        type.WellFormed ∧ type.ArraysTakeRoom := by
      intro type htype
      rcases List.mem_pair.mp htype with rfl | rfl
      · exact ⟨.array (.uint ⟨by decide, by decide, by decide⟩), .array (by decide) (.uint 8)⟩
      · exact ⟨.fixedBytes ⟨by decide, by decide⟩, .fixedBytes 2⟩
    exact ⟨fun type htype => AbiType.isNamed_iff.mpr (hwf type htype).1,
      fun type htype => (hwf type htype).2⟩
  obtain ⟨harguments, hother, houtput⟩ := decodeInput_parse f hf
  have hinput : f.encodeInput [.array [.uint 7]] = .ok _ := rfl
  have hlen : (f.selector ++ layout (partsOfFields f.inputTypes [.array [.uint 7]])).length
      < 2 ^ 63 := by
    rw [List.length_append, Function.selector, length_selector]
    decide +kernel
  refine ⟨hf, ⟨_, hinput, hlen, fun trailing => harguments _ _ trailing hinput hlen⟩,
    hother [1, 2, 3] (.inl (by decide)), ?_⟩
  obtain ⟨data, hdata, hparse⟩ := houtput contract "f" [.fixedBytes [0xAB, 0xCD]] rfl
    (.cons (.fixedBytes rfl) .nil)
  have hpacked : data = Bytes.padRight 32 [0xAB, 0xCD] := by
    cases hdata
    rfl
  subst hpacked
  exact hparse (by decide) _ (.inl ⟨'X', _, rfl, .inr rfl, by decide⟩)

end Contract

end ChainClient
