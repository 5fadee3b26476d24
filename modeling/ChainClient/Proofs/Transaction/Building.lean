import ChainClient.Proofs.Gas
import ChainClient.Proofs.Transaction.Payload
import Mathlib.Data.List.Pairwise

/-!
# `ChainClient.Proofs.Transaction.Building` — transactions built from typed values

A typed value is set as a text, and what is signed is read from the texts. Nothing is lost on the
way, in whatever order the values are set: the signed bytes are those of the typed values.

## Contents
- **Numbers.** `readDecimalField_eq_ok_iff` and `readCountField_eq_ok_iff`: what a field of digits
  holds.
- **Settings.** A `Setting` sets one field. `Setting.commutes_of_ne`: settings of different fields
  can change places; `build_perm` has it for whole lists of them.
- **Typed values.** `signingHash_build`: six settings, and what is hashed.
-/

namespace ChainClient

open Crypto

/-! ## Numbers -/

/-- **Decimal fields.** A decimal field holds a decimal numeral, or nothing for zero. -/
theorem readDecimalField_eq_ok_iff {field text : String} {w : Word} :
    readDecimalField field text = .ok w ↔
      text = "" ∧ w.toNat = 0 ∨ Numeral.IsDecimal text.toList w.toNat := by
  unfold readDecimalField
  split
  · next hmark =>
    constructor
    · intro h
      cases h
    · rintro (⟨rfl, _⟩ | hdecimal)
      · cases hmark
      · rw [Word.hasMark_of_isDecimal hdecimal] at hmark
        cases hmark
  · next hmark =>
    have hparse : Word.parse text = .ok w ↔
        text = "" ∧ w.toNat = 0 ∨ Numeral.IsDecimal text.toList w.toNat := by
      rw [Word.parse_eq_ok_iff]
      constructor
      · intro h
        cases h with
        | empty hs hn => exact .inl ⟨hs, hn⟩
        | decimal h => exact .inr h
        | hexadecimal hs hx _ => exact absurd (Hex.hasMark_iff.mpr ⟨_, _, hs, hx⟩) hmark
      · rintro (⟨hs, hn⟩ | h)
        · exact .empty hs hn
        · exact .decimal h
    rw [← hparse]
    split
    · next hok =>
      rw [hok]
      simp
    · next herror =>
      rw [herror]
      simp

theorem readDecimalField_text (field : String) (w : Word) :
    readDecimalField field w.text = .ok w := by
  refine readDecimalField_eq_ok_iff.mpr (.inr ?_)
  rw [Word.text, Nat.toList_repr]
  exact Numeral.isDecimal_toDigits w.toNat

/-- **Counts.** A field of a count holds a decimal numeral of 64 bits. -/
theorem readCountField_eq_ok_iff {field text : String} {n : UInt64} :
    readCountField field text = .ok n ↔ Numeral.IsDecimal text.toList n.toNat := by
  have hbound : n.toNat < bitBound 64 := n.toNat_lt
  rw [← and_iff_left (a := Numeral.IsDecimal text.toList n.toNat) hbound,
    ← Numeral.readUnsigned?_eq_some_iff, readCountField]
  split
  · next m hread =>
    have hm : (UInt64.ofNat m).toNat = m :=
      UInt64.toNat_ofNat_of_lt' (Numeral.readUnsigned?_eq_some_iff.mp hread).2
    rw [hread, Option.some.injEq]
    constructor
    · intro h
      rw [← Except.ok.inj h, hm]
    · intro h
      rw [h, UInt64.ofNat_toNat]
  · next hread =>
    rw [hread]
    simp

theorem readCountField_repr (field : String) (n : UInt64) :
    readCountField field n.toNat.repr = .ok n := by
  rw [readCountField_eq_ok_iff, Nat.toList_repr]
  exact Numeral.isDecimal_toDigits n.toNat

namespace Transaction

/-! ## Settings -/

/-- A typed value for one field of a transaction. -/
inductive Setting where
  /-- The sender. -/
  | sender (a : Address)
  /-- The recipient. -/
  | recipient (a : Address)
  /-- The number of transactions that the sender sent before. -/
  | nonce (n : UInt64)
  /-- The amount. -/
  | value (w : Word)
  /-- The input. -/
  | input (bs : Bytes)
  /-- The offer of gas. -/
  | gas (g : Gas)

/-- The transaction with one more value set. -/
def set (tx : Transaction) : Setting → Transaction
  | .sender a => tx.sentBy a
  | .recipient a => tx.sentTo a
  | .nonce n => tx.numbered n
  | .value w => tx.worth w
  | .input bs => tx.calling bs
  | .gas g => tx.offering g

/-- The transaction on a chain with values set one after the other. -/
def build (chain : String) (settings : List Setting) : Transaction :=
  settings.foldl set (onChain chain)

/-- Two settings that can change places. -/
def Setting.Commutes (s t : Setting) : Prop :=
  ∀ tx : Transaction, (tx.set s).set t = (tx.set t).set s

instance : Std.Symm Setting.Commutes where
  symm _ _ h tx := (h tx).symm

/-- Settings of different fields can change places. -/
theorem Setting.commutes_of_ne {s t : Setting} (h : s.ctorIdx ≠ t.ctorIdx) : s.Commutes t := by
  intro tx
  -- two settings of one field are excluded, and those of two fields do not see each other
  cases s <;> cases t
  all_goals first | exact absurd rfl h | rfl

/-- **Order does not count** where no field is set twice. -/
theorem build_perm {chain : String} {settings others : List Setting}
    (hfields : settings.Pairwise fun s t => s.ctorIdx ≠ t.ctorIdx) (h : settings.Perm others) :
    build chain settings = build chain others := by
  have hcomm := List.Pairwise.forall_of_forall (R := Setting.Commutes) (fun _ _ _ => rfl)
    (hfields.imp Setting.commutes_of_ne)
  exact h.foldl_eq' (fun s hs t ht => hcomm hs ht) (onChain chain)

/-! ## Typed values -/

/-- A transaction with every value set that is signed. -/
theorem carries_build {base : UInt64} {chain : String} {c : Word} {p : Payload}
    (hchain : readDecimalField "chainId" chain = .ok c)
    (hsum : p.chain.toNat = c.toNat + base.toNat) (sender recipient : Address)
    (hrecipient : p.recipient = recipient.bytes) (kind : UInt8) :
    Carries (build chain [.sender sender, .recipient recipient, .nonce p.nonce, .value p.value,
      .input p.input, .gas ⟨kind, p.gasLimit, p.gasPrice⟩]) base p where
  nonce := readCountField_repr "nonce" p.nonce
  gas := ⟨kind, Gas.ofExtra_extra ⟨kind, p.gasLimit, p.gasPrice⟩⟩
  recipient := hrecipient.trans (Hex.lossy_marked recipient.bytes).symm
  value := readDecimalField_text "value" p.value
  input := (Hex.lossy_marked p.input).symm
  chain := ⟨c, hchain, hsum⟩

/-- **Typed values are signed as they are.** -/
theorem signingHash_build {base : UInt64} {chain : String} {c : Nat}
    (hchain : chain = "" ∧ c = 0 ∨ Numeral.IsDecimal chain.toList c)
    (hsum : c + base.toNat < 2 ^ 256) (sender recipient : Address) (nonce : UInt64) (value : Word)
    (data : Bytes) (gas : Gas) {settings : List Setting}
    (h : settings.Perm [.sender sender, .recipient recipient, .nonce nonce, .value value,
      .input data, .gas gas]) :
    (build chain settings).gas = .ok gas ∧
      (build chain settings).signingHash base = .ok (Keccak.keccak256 (Rlp.encode (.list
        [.number nonce.toNat, .number gas.price.toNat, .number gas.limit.toNat,
          .bytes recipient.bytes, .number value.toNat, .bytes data, .number (c + base.toNat),
          .number 0, .number 0]))) := by
  -- the six settings are of six fields
  have hfields : [Setting.sender sender, .recipient recipient, .nonce nonce, .value value,
      .input data, .gas gas].Pairwise fun s t => s.ctorIdx ≠ t.ctorIdx := by
    simp [Setting.ctorIdx]
  -- the chain number and the sum fit a word, so that words stand for them
  have hc : (BitVec.ofNat 256 c).toNat = c := by
    rw [BitVec.toNat_ofNat, Nat.mod_eq_of_lt (by omega)]
  have hnumber : (BitVec.ofNat 256 (c + base.toNat)).toNat = c + base.toNat := by
    rw [BitVec.toNat_ofNat, Nat.mod_eq_of_lt hsum]
  have hread : readDecimalField "chainId" chain = .ok (BitVec.ofNat 256 c) := by
    rw [readDecimalField_eq_ok_iff, hc]
    exact hchain
  let p : Payload := {
    nonce, value
    gasPrice := gas.price
    gasLimit := gas.limit
    recipient := recipient.bytes
    input := data
    chain := BitVec.ofNat 256 (c + base.toNat) }
  have hp : p.chain.toNat = (BitVec.ofNat 256 c).toNat + base.toNat := by
    rw [hc]
    exact hnumber
  have hcarries := carries_build (p := p) hread hp sender recipient rfl gas.kind
  rw [← build_perm hfields h.symm]
  constructor
  · exact Gas.ofExtra_extra gas
  · rw [signingHash_eq_ok_iff]
    refine ⟨p, hcarries, ?_⟩
    rw [Payload.encode_eq, Payload.items, hnumber]

/-- The greatest price is set first, on a chain whose number has a zero in front. -/
theorem signingHash_build_of_greatest_price :
    let settings : List Setting := [.sender .zero, .recipient (.fit [1, 2]), .nonce 5, .value 7,
      .input [0, 255], .gas ⟨0, 25000, BitVec.allOnes 256⟩]
    (build "02" settings.reverse).gas = .ok ⟨0, 25000, BitVec.allOnes 256⟩ ∧
      (build "02" settings.reverse).signingHash 50000 =
        .ok (Keccak.keccak256 (Rlp.encode (.list [.number 5, .number (2 ^ 256 - 1), .number 25000,
          .bytes (Address.fit [1, 2]).bytes, .number 7, .bytes [0, 255], .number 50002, .number 0,
          .number 0]))) :=
  signingHash_build (c := 2) (.inr ⟨[], ['0', '2'], .inl rfl, rfl, 1, rfl⟩) (by decide) .zero
    (.fit [1, 2]) 5 7 [0, 255] ⟨0, 25000, BitVec.allOnes 256⟩ (List.reverse_perm _)

end Transaction

end ChainClient
