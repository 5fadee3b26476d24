import ChainClient.Cheque.Form
import ChainClient.Proofs.Cheque.Layout
import ChainClient.Proofs.Word

/-!
# `ChainClient.Proofs.Cheque.Form` — the one form of a cheque that decoding gives

Many forms describe the same cheque, since a field spells its value in more than one way. Encoding
passes over to the cheque, and decoding comes back with the one form in which every field is spelled
in the standard way.

## Contents
- **Fields.** One law a reader of fields, from `readCount_eq_ok_iff` on.
- **Described cheques.** `ChequeForm.Describes`, which `cheque_eq_ok_iff` ties to the reader. The
  form that `ofCheque` fills in describes its cheque (`describes_ofCheque`).
- **Canonical forms.** `ChequeForm.IsCanonicalFor` says of two forms, field by field, that one is
  the standard spelling of the other. `decode_of_encode` is the round trip.
-/

namespace ChainClient

/-- The last `width` bytes, with zeros in front, are what remains when as many bytes as there are
    go from the front of zeros and all of them. -/
theorem Bytes.fit_eq_drop (width : Nat) (bs : Bytes) :
    fit width bs = (List.replicate width 0 ++ bs).drop bs.length := by
  rw [fit, padLeft, List.drop_append, List.drop_replicate, List.length_replicate, List.length_drop]
  congr 2
  omega

namespace ChequeForm

/-! ## Fields -/

theorem readCount_eq_ok_iff {bound n : Nat} {field text : String} :
    readCount bound field text = .ok n ↔ Numeral.IsDecimal text.toList n ∧ n < bound := by
  rw [← Numeral.readUnsigned?_eq_some_iff]
  unfold readCount
  split
  · next m hm =>
    rw [hm, Except.ok.injEq, Option.some.injEq]
  · next hnone =>
    rw [hnone]
    constructor
    · intro h
      cases h
    · intro h
      cases h

theorem readAddress_eq_ok_iff {field text : String} {address : Address} :
    readAddress field text = .ok address ↔ ∃ bs, Hex.IsMarked text bs ∧ .fit bs = address := by
  simp only [← Hex.decodeMarked_eq_ok_iff]
  unfold readAddress
  split
  · next bs hbs =>
    rw [hbs]
    simp
  · next fault hfault =>
    rw [hfault]
    simp

theorem readAmount_eq_ok_iff {field text : String} {amount : Word} :
    readAmount field text = .ok amount ↔ Word.IsSpelling text amount.toNat := by
  rw [← Word.parse_eq_ok_iff]
  unfold readAmount
  split
  · next w hw => rw [hw, Except.ok.injEq, Except.ok.injEq]
  · next fault hfault =>
    rw [hfault]
    simp

/-! ## Described cheques -/

/-- **Description.** Every field of the form but the chain it is presented on spells a part of the
    cheque. -/
structure Describes (form : ChequeForm) (cheque : Cheque) : Prop where
  fromChain : Numeral.IsDecimal form.fromChain.toList cheque.fromChain.toNat
  sender : ∃ bs, Hex.IsMarked form.sender bs ∧ .fit bs = cheque.fromAddress
  nonce : Numeral.IsDecimal form.nonce.toList cheque.nonce.toNat
  toChain : Numeral.IsDecimal form.toChain.toList cheque.toChain.toNat
  recipient : ∃ bs, Hex.IsMarked form.recipient bs ∧ .fit bs = cheque.toAddress
  expireHeight : Numeral.IsDecimal form.expireHeight.toList cheque.expireHeight.toNat
  value : Word.IsSpelling form.value cheque.amount.toNat
  metadata? : cheque.metadata? = none

theorem readCount_uint32_eq_ok_iff {field text : String} {chain : UInt32} :
    (∃ n, readCount (bitBound 32) field text = .ok n ∧ UInt32.ofNat n = chain) ↔
      Numeral.IsDecimal text.toList chain.toNat := by
  constructor
  · rintro ⟨n, hn, rfl⟩
    obtain ⟨hdecimal, hlt⟩ := readCount_eq_ok_iff.mp hn
    rw [UInt32.toNat_ofNat_of_lt' hlt]
    exact hdecimal
  · intro h
    exact ⟨chain.toNat, readCount_eq_ok_iff.mpr ⟨h, chain.toNat_lt⟩, UInt32.ofNat_toNat⟩

theorem readCount_uint64_eq_ok_iff {field text : String} {count : UInt64} :
    (∃ n, readCount (bitBound 64) field text = .ok n ∧ UInt64.ofNat n = count) ↔
      Numeral.IsDecimal text.toList count.toNat := by
  constructor
  · rintro ⟨n, hn, rfl⟩
    obtain ⟨hdecimal, hlt⟩ := readCount_eq_ok_iff.mp hn
    rw [UInt64.toNat_ofNat_of_lt' hlt]
    exact hdecimal
  · intro h
    exact ⟨count.toNat, readCount_eq_ok_iff.mpr ⟨h, count.toNat_lt⟩, UInt64.ofNat_toNat⟩

/-- **Reading.** A form is read as the cheque it describes. -/
theorem cheque_eq_ok_iff {form : ChequeForm} {cheque : Cheque} :
    form.cheque = .ok cheque ↔ form.Describes cheque := by
  unfold ChequeForm.cheque
  constructor
  · intro h
    obtain ⟨fromChain, hfromChain, h⟩ := Outcome.bind_eq_ok_iff.mp h
    obtain ⟨fromAddress, hfromAddress, h⟩ := Outcome.bind_eq_ok_iff.mp h
    obtain ⟨nonce, hnonce, h⟩ := Outcome.bind_eq_ok_iff.mp h
    obtain ⟨toChain, htoChain, h⟩ := Outcome.bind_eq_ok_iff.mp h
    obtain ⟨toAddress, htoAddress, h⟩ := Outcome.bind_eq_ok_iff.mp h
    obtain ⟨expireHeight, hexpireHeight, h⟩ := Outcome.bind_eq_ok_iff.mp h
    obtain ⟨amount, hamount, h⟩ := Outcome.bind_eq_ok_iff.mp h
    cases h
    exact
      { fromChain := readCount_uint32_eq_ok_iff.mp ⟨fromChain, hfromChain, rfl⟩
        sender := readAddress_eq_ok_iff.mp hfromAddress
        nonce := readCount_uint64_eq_ok_iff.mp ⟨nonce, hnonce, rfl⟩
        toChain := readCount_uint32_eq_ok_iff.mp ⟨toChain, htoChain, rfl⟩
        recipient := readAddress_eq_ok_iff.mp htoAddress
        expireHeight := readCount_uint64_eq_ok_iff.mp ⟨expireHeight, hexpireHeight, rfl⟩
        value := readAmount_eq_ok_iff.mp hamount
        metadata? := rfl }
  · intro h
    obtain ⟨fromChain, hfromChain, hfromChain'⟩ := readCount_uint32_eq_ok_iff.mpr h.fromChain
    obtain ⟨nonce, hnonce, hnonce'⟩ := readCount_uint64_eq_ok_iff.mpr h.nonce
    obtain ⟨toChain, htoChain, htoChain'⟩ := readCount_uint32_eq_ok_iff.mpr h.toChain
    obtain ⟨expireHeight, hexpireHeight, hexpireHeight'⟩ :=
      readCount_uint64_eq_ok_iff.mpr h.expireHeight
    refine Outcome.bind_eq_ok_iff.mpr ⟨fromChain, hfromChain, Outcome.bind_eq_ok_iff.mpr ?_⟩
    refine ⟨_, readAddress_eq_ok_iff.mpr h.sender, Outcome.bind_eq_ok_iff.mpr ?_⟩
    refine ⟨nonce, hnonce, Outcome.bind_eq_ok_iff.mpr ?_⟩
    refine ⟨toChain, htoChain, Outcome.bind_eq_ok_iff.mpr ?_⟩
    refine ⟨_, readAddress_eq_ok_iff.mpr h.recipient, Outcome.bind_eq_ok_iff.mpr ?_⟩
    refine ⟨expireHeight, hexpireHeight, Outcome.bind_eq_ok_iff.mpr ?_⟩
    refine ⟨_, readAmount_eq_ok_iff.mpr h.value, congrArg Except.ok ?_⟩
    rw [hfromChain', hnonce', htoChain', hexpireHeight', ← h.metadata?]

/-- The standard decimal is a decimal. -/
theorem isDecimal_repr (n : Nat) : Numeral.IsDecimal n.repr.toList n := by
  rw [Nat.repr_eq_ofList_toDigits, String.toList_ofList]
  exact Numeral.isDecimal_toDigits n

theorem isMarked_text (address : Address) :
    ∃ bs, Hex.IsMarked address.text bs ∧ .fit bs = address :=
  ⟨address.bytes, Hex.isMarked_marked address.bytes, address.fit_bytes⟩

/-- **Filling in.** The form of a cheque describes it. -/
theorem describes_ofCheque {cheque : Cheque} (h : cheque.metadata? = none) :
    (ofCheque cheque).Describes cheque where
  fromChain := isDecimal_repr _
  sender := isMarked_text _
  nonce := isDecimal_repr _
  toChain := isDecimal_repr _
  recipient := isMarked_text _
  expireHeight := isDecimal_repr _
  value := Word.isSpelling_text _
  metadata? := h

/-- Encoding writes the cheque that the form describes. -/
theorem encode_eq_ok_iff {form : ChequeForm} {s : String} :
    form.encode = .ok s ↔
      ∃ cheque bs, form.Describes cheque ∧ cheque.toBytes = .ok bs ∧ Hex.marked bs = s := by
  unfold encode
  simp only [Outcome.bind_eq_ok_iff, ← cheque_eq_ok_iff]
  constructor
  · rintro ⟨cheque, hcheque, bs, hbs, hs⟩
    exact ⟨cheque, bs, hcheque, hbs, Except.ok.inj hs⟩
  · rintro ⟨cheque, bs, hcheque, hbs, rfl⟩
    exact ⟨cheque, hcheque, bs, hbs, rfl⟩

/-- Decoding fills in the form of the cheque that was written. -/
theorem decode_marked {cheque : Cheque} {bs : Bytes} (hplain : cheque.metadata? = none)
    (hbs : cheque.toBytes = .ok bs) : decode (Hex.marked bs) = .ok (ofCheque cheque) := by
  have hread : Cheque.ofBytes bs = .ok cheque := by
    rw [Cheque.ofBytes_of_toBytes hbs, ← hplain]
  unfold decode
  rw [Hex.decodeMarked_eq_ok_iff.mpr (Hex.isMarked_marked bs)]
  show (Cheque.ofBytes bs).map ofCheque = _
  rw [hread]
  rfl

/-! ## Canonical forms -/

/-- A text is the standard decimal of the number that another text spells. -/
def IsCanonicalCount (text canonical : String) : Prop :=
  ∃ n : Nat, Numeral.IsDecimal text.toList n ∧ canonical = n.repr

/-- A text is the marked small digits of the last twenty bytes of another text, with zeros in front
    where it has fewer. -/
def IsCanonicalAddress (text canonical : String) : Prop :=
  ∃ bs, Hex.IsMarked text bs ∧
    canonical = Hex.marked ((List.replicate 20 0 ++ bs).drop bs.length)

/-- A text is the standard decimal of the amount that another text spells. -/
def IsCanonicalAmount (text canonical : String) : Prop :=
  ∃ n : Nat, Word.IsSpelling text n ∧ canonical = n.repr

/-- **Canonical forms.** Each field is the standard spelling of what the other form spells. The
    chain it is presented on is the one it comes from, whatever the other form says. -/
structure IsCanonicalFor (canonical form : ChequeForm) : Prop where
  chain : IsCanonicalCount form.fromChain canonical.chain
  fromChain : IsCanonicalCount form.fromChain canonical.fromChain
  sender : IsCanonicalAddress form.sender canonical.sender
  nonce : IsCanonicalCount form.nonce canonical.nonce
  toChain : IsCanonicalCount form.toChain canonical.toChain
  recipient : IsCanonicalAddress form.recipient canonical.recipient
  expireHeight : IsCanonicalCount form.expireHeight canonical.expireHeight
  value : IsCanonicalAmount form.value canonical.value

theorem isCanonicalAddress_of_fit {text : String} {address : Address}
    (h : ∃ bs, Hex.IsMarked text bs ∧ .fit bs = address) :
    IsCanonicalAddress text address.text := by
  obtain ⟨bs, hbs, rfl⟩ := h
  refine ⟨bs, hbs, ?_⟩
  show Hex.marked (Bytes.fit 20 bs) = _
  rw [Bytes.fit_eq_drop]

/-- The form of a cheque is canonical for every form that describes it. -/
theorem Describes.isCanonicalFor {form : ChequeForm} {cheque : Cheque} (h : form.Describes cheque) :
    (ofCheque cheque).IsCanonicalFor form where
  chain := ⟨_, h.fromChain, rfl⟩
  fromChain := ⟨_, h.fromChain, rfl⟩
  sender := isCanonicalAddress_of_fit h.sender
  nonce := ⟨_, h.nonce, rfl⟩
  toChain := ⟨_, h.toChain, rfl⟩
  recipient := isCanonicalAddress_of_fit h.recipient
  expireHeight := ⟨_, h.expireHeight, rfl⟩
  value := ⟨_, h.value, rfl⟩

/-- **Round trip.** What a form is encoded to decodes to a canonical form for it, and that one
    is encoded to the same text again. -/
theorem decode_of_encode {form : ChequeForm} {s : String} (h : form.encode = .ok s) :
    ∃ canonical, decode s = .ok canonical ∧ canonical.IsCanonicalFor form ∧
      canonical.encode = .ok s := by
  obtain ⟨cheque, bs, hdescribes, hbs, rfl⟩ := encode_eq_ok_iff.mp h
  refine ⟨ofCheque cheque, decode_marked hdescribes.metadata? hbs, hdescribes.isCanonicalFor, ?_⟩
  exact encode_eq_ok_iff.mpr ⟨cheque, bs, describes_ofCheque hdescribes.metadata?, hbs, rfl⟩

/-- A form with leading zeros, a plus sign, a short address, a long one in capitals and an amount in
    hexadecimal, presented on another chain. -/
def looseForm : ChequeForm where
  chain := "5"
  fromChain := "007"
  sender := "0xAB"
  nonce := "+012"
  toChain := "4294967295"
  recipient := "0XFF" ++ "0123456789abcdefABCD0123456789abcdefABCD"
  expireHeight := "18446744073709551615"
  value := "0X00fF"

/-- The canonical form for `looseForm`. -/
def strictForm : ChequeForm where
  chain := "7"
  fromChain := "7"
  sender := "0x00000000000000000000000000000000000000ab"
  nonce := "12"
  toChain := "4294967295"
  recipient := "0x0123456789abcdefabcd0123456789abcdefabcd"
  expireHeight := "18446744073709551615"
  value := "255"

theorem decode_of_encode_looseForm :
    ∃ s, looseForm.encode = .ok s ∧ decode s = .ok strictForm ∧
      strictForm.IsCanonicalFor looseForm ∧ strictForm.encode = .ok s := by
  obtain ⟨s, hs, hstrict⟩ : ∃ s, looseForm.encode = .ok s ∧ decode s = .ok strictForm :=
    ⟨_, rfl, by decide +kernel⟩
  obtain ⟨canonical, hdecode, hcanonical, hencode⟩ := decode_of_encode hs
  obtain rfl := Except.ok.inj (hdecode.symm.trans hstrict)
  exact ⟨s, hs, hdecode, hcanonical, hencode⟩

end ChequeForm

end ChainClient
