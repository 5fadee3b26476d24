import ChainClient.Proofs.Abi.Decode
import ChainClient.Proofs.Contract.Data

/-!
# `ChainClient.Proofs.Contract.Refusal` — the reasons of contracts that refuse a call

A contract that refuses a call returns a text behind a selector of its own. The output is read by
the lossy reader, which keeps what it can, so any text at all is looked at: a refusal is a text
whose bytes start with the selector, and of the texts that a node writes the reason is read off
exactly.

## Contents
- **Texts.** `lossy_of_isOutput`: the lossy reader reads every text of an output.
- **Reasons.** `encode_reason` and `decode_reason`: a text in packed form, and back.
- **Refusals.** `reasonOf_of_isOutput`, and `refusals_carry_reasons` for all outputs.
-/

namespace ChainClient

namespace Abi

/-! ## Texts -/

/-- The lossy reader takes every text of an output, with a mark or without. -/
theorem lossy_of_isOutput {out : String} {data : Bytes} (h : Contract.IsOutput out data) :
    Hex.lossy out = data := by
  rcases h with hmarked | hdigits
  · exact Hex.lossy_eq_of_isMarked hmarked
  · have hbody : Hex.dropMark out.toList = out.toList :=
      if_neg (by rw [Contract.hasMark_of_digits hdigits]; exact Bool.false_ne_true)
    exact Hex.lossy_eq_of_digits (by rw [hbody]; exact hdigits)

/-! ## Reasons -/

/-- A text in packed form: a pointer, the number of its bytes, and its bytes filled up to words. -/
theorem encode_reason (reason : String) :
    encode [.string] [.string reason] =
      .ok (offsetWord 32 ++ encodeBytes (Utf8.bytes reason)) := by
  refine encode_eq_ok_iff.mpr ⟨rfl, List.forall_mem_singleton.mpr (.string reason), ?_⟩
  show _ = layout [⟨true, 32, encodeBytes (Utf8.bytes reason)⟩]
  simp [layout, place, headsLength]

/-- A packed text is read, whatever stands behind it, if its length can be written. -/
theorem decode_reason {reason : String} (hlen : (Utf8.bytes reason).length < 256 ^ 32)
    (rest : Bytes) :
    decode [.string] (offsetWord 32 ++ encodeBytes (Utf8.bytes reason) ++ rest) =
      .ok [.string reason] := by
  have hstands : StandsAt (offsetWord 32 ++ encodeBytes (Utf8.bytes reason) ++ rest) 32
      (encodeBytes (Utf8.bytes reason)) :=
    ⟨offsetWord 32, rest, rfl, Bytes.length_ofNat 32 32⟩
  rw [List.append_assoc] at hstands ⊢
  rw [decode_behind_pointer rfl, decodeValue_string hstands hlen]
  rfl

/-! ## Refusals -/

variable {out : String}

theorem isRefusal_iff : isRefusal out = true ↔ refusalSelector <+: Hex.lossy out :=
  List.isPrefixOf_iff_prefix

theorem reasonOf_of_isOutput {reason : String} (hlen : (Utf8.bytes reason).length < 256 ^ 32)
    {rest : Bytes}
    (hout : Contract.IsOutput out
      (refusalSelector ++ (offsetWord 32 ++ encodeBytes (Utf8.bytes reason)) ++ rest)) :
    isRefusal out = true ∧ reasonOf out = .ok reason := by
  have hlossy := lossy_of_isOutput hout
  rw [List.append_assoc] at hlossy
  have hrefusal : isRefusal out = true := isRefusal_iff.mpr (hlossy ▸ List.prefix_append _ _)
  refine ⟨hrefusal, ?_⟩
  have hfour : refusalSelector.length = 4 := rfl
  rw [reasonOf, if_pos hrefusal, hlossy, List.drop_left' hfour, decode_reason hlen rest]
  rfl

theorem reasonOf_of_not_isPrefix (h : ¬ refusalSelector <+: Hex.lossy out) :
    isRefusal out = false ∧
      reasonOf out = .error (.invalidData "output is not a revert reason") := by
  have hother : ¬ isRefusal out = true := fun hrefusal => h (isRefusal_iff.mp hrefusal)
  exact ⟨Bool.not_eq_true _ ▸ hother, if_neg hother⟩

/-- **Refusals carry their reasons.** A text of any length that can be written comes back from its
    packed form behind the selector, whatever stands behind it, and from every text of these bytes.
    Every other output is told apart: its digits do not start with those of the selector. -/
theorem refusals_carry_reasons :
    (∀ reason, (Utf8.bytes reason).length < 2 ^ 256 →
      ∃ packed, encode [.string] [.string reason] = .ok packed ∧
        ∀ rest out, Contract.IsOutput out (refusalSelector ++ packed ++ rest) →
          isRefusal out = true ∧ reasonOf out = .ok reason) ∧
    (∀ out, ¬ refusalSelector <+: Hex.lossy out →
      isRefusal out = false ∧
        reasonOf out = .error (.invalidData "output is not a revert reason")) ∧
    (∀ out, refusalSelector <+: Hex.lossy out ↔
      "08c379a0".toList <+: (Hex.pairedBytes out).map Hex.smallChar) := by
  refine ⟨fun reason hlen => ⟨_, encode_reason reason, fun rest out hout => ?_⟩,
    fun out h => reasonOf_of_not_isPrefix h, fun out => Hex.isPrefix_lossy_iff⟩
  have hlen : (Utf8.bytes reason).length < 256 ^ 32 := Nat.lt_of_lt_of_le hlen (by decide)
  exact reasonOf_of_isOutput hlen hout

/-- A reason that is not ASCII, with a capital mark, digits of both cases and a byte behind it, and
    an output whose digits break off inside the selector. -/
theorem refusals_carry_reasons_of_capitals :
    let refusal := "0X08C379A0" ++ Hex.text (offsetWord 32) ++ Hex.text (offsetWord 3) ++
      "6EC3a9" ++ Hex.text (List.replicate 29 0) ++ "Ab"
    (isRefusal refusal = true ∧ reasonOf refusal = .ok "né") ∧
    (isRefusal "0x08c379-0" = false ∧
      reasonOf "0x08c379-0" = .error (.invalidData "output is not a revert reason")) := by
  intro refusal
  obtain ⟨hreasons, hothers, _⟩ := refusals_carry_reasons
  obtain ⟨packed, hpacked, hread⟩ := hreasons "né" (by decide)
  rw [encode_reason] at hpacked
  cases hpacked
  have hout : Contract.IsOutput refusal
      (refusalSelector ++ (offsetWord 32 ++ encodeBytes (Utf8.bytes "né")) ++ [0xAB]) := by
    refine .inl ⟨'X', refusal.toList.drop 2, ?_, .inr rfl, ?_⟩
    · simp only [refusal, String.toList_append]
      rfl
    · simp only [refusal, String.toList_append, Hex.text, String.toList_ofList]
      decide +kernel
  exact ⟨hread [0xAB] refusal hout, hothers "0x08c379-0" (by decide +kernel)⟩

end Abi

end ChainClient
