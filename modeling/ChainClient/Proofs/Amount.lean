import ChainClient.Config
import ChainClient.Proofs.Cheque.Form
import ChainClient.Proofs.Transaction.Payload
import ChainClient.Proofs.Word.Numeral

/-!
# `ChainClient.Proofs.Amount` — the three places that read an amount

Nodes read amounts in decimal. A client reads one in three places: when it signs a transaction, when
it makes the offer of gas of its configuration, and when it encodes a cheque. All three read decimal
numerals alike, and the empty text as zero. Hexadecimal behind a mark is refused by the first and
read by the other two.

## Contents
- **Places.** A `Place` says which texts are read in it, as which words, and which are refused.
  `Place.signing`, `Place.offering` and `Place.encoding` are the three. `Place.Follows`: a place
  does what a reader says.
- **Readers.** `readDecimal?` reads the decimal texts, `readNumeral?` the marked numerals as well.
- **Transactions, offers, cheques.** Each place follows a reader: `follows_signing`,
  `follows_offering`, `follows_encoding`.
- **Agreement.** `AgreeOn` says that places read a text alike, or refuse it alike. `agreeOn_iff`:
  the three do so on all texts but the marked numerals of words.
-/

namespace ChainClient

namespace Amount

open Crypto

/-! ## Places -/

/-- **Places that read an amount**: when a text in the place is read as a word, and when it is
    refused. A text is read as one word at most, and what is read is not refused. -/
structure Place where
  /-- The text is read as the word. -/
  Reads (text : String) (w : Word) : Prop
  /-- The text is refused. -/
  Refuses (text : String) : Prop
  reads_unique {text : String} {v w : Word} : Reads text v → Reads text w → v = w
  not_refuses {text : String} {w : Word} : Reads text w → ¬ Refuses text

namespace Place

/-- The amount of a transaction that is signed. It is part of the bytes that are hashed. -/
def signing (tx : Transaction) (base : UInt64) : Place where
  Reads text w := ∃ p, { tx with value := text }.payload base = .ok p ∧ p.value = w ∧
    { tx with value := text }.signingHash base = .ok (Keccak.keccak256 p.encode)
  Refuses text :=
    { tx with value := text }.signingHash base = .error (.invalidNumber "value" text)
  reads_unique := by
    rintro text v w ⟨p, hp, rfl, -⟩ ⟨q, hq, rfl, -⟩
    rw [Except.ok.inj (hp.symm.trans hq)]
  not_refuses := by
    rintro text w ⟨p, -, -, hhash⟩ hrefused
    cases hhash.symm.trans hrefused

/-- The price in the offer of gas of a configuration. -/
def offering (config : Config) : Place where
  Reads text w := ∃ gas, { config with gasPrice := text }.gas = .ok gas ∧ gas.price = w
  Refuses text :=
    { config with gasPrice := text }.gas = .error (.invalidNumber "gas_price" text)
  reads_unique := by
    rintro text v w ⟨gas, hgas, rfl⟩ ⟨gas', hgas', rfl⟩
    rw [Except.ok.inj (hgas.symm.trans hgas')]
  not_refuses := by
    rintro text w ⟨gas, hgas, -⟩ hrefused
    cases hgas.symm.trans hrefused

/-- The amount of a cheque that is encoded. -/
def encoding (form : ChequeForm) : Place where
  Reads text w := ∃ cheque bs, { form with value := text }.cheque = .ok cheque ∧
    cheque.amount = w ∧ cheque.toBytes = .ok bs ∧
    { form with value := text }.encode = .ok (Hex.marked bs)
  Refuses text :=
    { form with value := text }.encode = .error (.invalidNumber "value" text)
  reads_unique := by
    rintro text v w ⟨cheque, _, hcheque, rfl, -⟩ ⟨cheque', _, hcheque', rfl, -⟩
    rw [Except.ok.inj (hcheque.symm.trans hcheque')]
  not_refuses := by
    rintro text w ⟨_, bs, -, -, -, hencoded⟩ hrefused
    cases hencoded.symm.trans hrefused

/-- **Readers of a place.** The place reads and refuses what the reader does. -/
structure Follows (place : Place) (read? : String → Option Word) : Prop where
  reads {text : String} {w : Word} (h : read? text = some w) : place.Reads text w
  refuses {text : String} (h : read? text = none) : place.Refuses text

theorem Follows.reads_iff {place : Place} {read? : String → Option Word}
    (h : place.Follows read?) {text : String} {w : Word} :
    place.Reads text w ↔ read? text = some w := by
  refine ⟨fun hreads => ?_, h.reads⟩
  cases hread : read? text with
  | none => exact absurd (h.refuses hread) (place.not_refuses hreads)
  | some v => rw [place.reads_unique hreads (h.reads hread)]

end Place

/-! ## Readers -/

/-- The word that a text spells. -/
def readNumeral? (text : String) : Option Word := (Word.parse text).toOption

/-- The word that a text spells without a mark. -/
def readDecimal? (text : String) : Option Word :=
  if Hex.hasMark text.toList then none else readNumeral? text

/-- **Marked numerals** of a word: hexadecimal digits, at least one, behind a mark. -/
def IsMarkedNumeral (text : String) (w : Word) : Prop :=
  ∃ mark digits, text.toList = '0' :: mark :: digits ∧ (mark = 'x' ∨ mark = 'X') ∧
    Numeral.HasValue 16 digits w.toNat

/-- **Decimal texts** of a word: its decimal numerals, and the empty text for zero. -/
def IsDecimalText (text : String) (w : Word) : Prop :=
  text = "" ∧ w = 0 ∨ Numeral.IsDecimal text.toList w.toNat

theorem IsMarkedNumeral.hasMark {text : String} {w : Word} (h : IsMarkedNumeral text w) :
    Hex.hasMark text.toList = true := by
  obtain ⟨mark, digits, htext, hmark, -⟩ := h
  exact Hex.hasMark_iff.mpr ⟨mark, digits, htext, hmark⟩

theorem IsDecimalText.hasMark {text : String} {w : Word} (h : IsDecimalText text w) :
    Hex.hasMark text.toList = false := by
  rcases h with ⟨rfl, -⟩ | h
  · rfl
  · exact Word.hasMark_of_isDecimal h

theorem readNumeral?_eq_some_iff {text : String} {w : Word} :
    readNumeral? text = some w ↔ IsDecimalText text w ∨ IsMarkedNumeral text w := by
  have hparse : readNumeral? text = some w ↔ Word.parse text = .ok w := by
    unfold readNumeral?
    cases Word.parse text with
    | ok v => exact ⟨fun h => congrArg _ (Option.some.inj h), fun h => congrArg _ (Except.ok.inj h)⟩
    | error e => exact ⟨fun h => (nomatch h), fun h => (nomatch h)⟩
  rw [hparse, Word.parse_eq_ok_iff]
  constructor
  · intro h
    cases h with
    | empty htext hw => exact .inl (.inl ⟨htext, BitVec.eq_of_toNat_eq hw⟩)
    | decimal h => exact .inl (.inr h)
    | hexadecimal htext hmark h =>
      exact .inr ⟨_, _, htext, hmark, (Numeral.hasValue_iff (by decide)).mpr h⟩
  · rintro ((⟨htext, hw⟩ | h) | ⟨mark, digits, htext, hmark, h⟩)
    · exact .empty htext (congrArg BitVec.toNat hw)
    · exact .decimal h
    · exact .hexadecimal htext hmark ((Numeral.hasValue_iff (by decide)).mp h)

theorem readDecimal?_eq_some_iff {text : String} {w : Word} :
    readDecimal? text = some w ↔ IsDecimalText text w := by
  unfold readDecimal?
  split
  · next hmark =>
    constructor
    · intro h
      cases h
    · intro h
      rw [h.hasMark] at hmark
      cases hmark
  · next hmark =>
    rw [readNumeral?_eq_some_iff]
    exact or_iff_left fun h => hmark h.hasMark

/-- The readers differ on the marked numerals of words only. -/
theorem readDecimal?_eq_readNumeral? {text : String} (h : ∀ w, ¬ IsMarkedNumeral text w) :
    readDecimal? text = readNumeral? text := by
  ext w
  rw [readDecimal?_eq_some_iff, readNumeral?_eq_some_iff, or_iff_left (h w)]

theorem readDecimal?_of_isMarkedNumeral {text : String} {w : Word} (h : IsMarkedNumeral text w) :
    readDecimal? text = none :=
  if_pos h.hasMark

theorem readDecimalField_eq (text : String) :
    readDecimalField "value" text =
      match readDecimal? text with
      | some w => .ok w
      | none => .error (.invalidNumber "value" text) := by
  unfold readDecimalField readDecimal? readNumeral?
  split
  · rfl
  · cases Word.parse text <;> rfl

theorem readAmount_eq (text : String) :
    ChequeForm.readAmount "value" text =
      match readNumeral? text with
      | some w => .ok w
      | none => .error (.invalidNumber "value" text) := by
  unfold ChequeForm.readAmount readNumeral?
  cases Word.parse text <;> rfl

/-! ## Transactions -/

/-- When the other fields of a transaction are read, its amount decides. -/
theorem payload_eq {tx : Transaction} {base : UInt64} {text₀ : String} {p : Transaction.Payload}
    (h : { tx with value := text₀ }.payload base = .ok p) (text : String) :
    { tx with value := text }.payload base =
      match readDecimal? text with
      | some value => .ok { p with value }
      | none => .error (.invalidNumber "value" text) := by
  unfold Transaction.payload at h ⊢
  obtain ⟨chain, hchain, h⟩ := Outcome.bind_eq_ok_iff.mp h
  obtain ⟨value, -, h⟩ := Outcome.bind_eq_ok_iff.mp h
  obtain ⟨nonce, hnonce, h⟩ := Outcome.bind_eq_ok_iff.mp h
  obtain ⟨gas, hgas, h⟩ := Outcome.bind_eq_ok_iff.mp h
  cases h
  have hchain : { tx with value := text }.chainNumber base = .ok chain := hchain
  have hgas : { tx with value := text }.gas = .ok gas := hgas
  rw [hchain, hgas, hnonce, readDecimalField_eq]
  cases readDecimal? text <;> rfl

theorem follows_signing {tx : Transaction} {base : UInt64} {text₀ : String}
    {p : Transaction.Payload} (h : { tx with value := text₀ }.payload base = .ok p) :
    (Place.signing tx base).Follows readDecimal? where
  reads {text w} hread := by
    have hpayload := payload_eq h text
    rw [hread] at hpayload
    exact ⟨_, hpayload, rfl, Outcome.bind_eq_ok_iff.mpr ⟨_, hpayload, rfl⟩⟩
  refuses {text} hread := by
    have hpayload := payload_eq h text
    rw [hread] at hpayload
    exact Outcome.bind_eq_error_iff.mpr (.inl hpayload)

/-! ## Offers -/

theorem offer_eq (config : Config) (text : String) :
    { config with gasPrice := text }.gas =
      match readNumeral? text with
      | some w => .ok ⟨0, config.gasLimit, w⟩
      | none => .error (.invalidNumber "gas_price" text) := by
  unfold Config.gas readNumeral?
  cases Word.parse text <;> rfl

theorem follows_offering (config : Config) : (Place.offering config).Follows readNumeral? where
  reads {text w} hread := by
    have hgas := offer_eq config text
    rw [hread] at hgas
    exact ⟨_, hgas, rfl⟩
  refuses {text} hread := by
    have hgas := offer_eq config text
    rw [hread] at hgas
    exact hgas

/-! ## Cheques -/

/-- When the other fields of a form are read, its amount decides. -/
theorem cheque_eq {form : ChequeForm} {text₀ : String} {cheque : Cheque}
    (h : { form with value := text₀ }.cheque = .ok cheque) (text : String) :
    { form with value := text }.cheque =
      match readNumeral? text with
      | some amount => .ok { cheque with amount }
      | none => .error (.invalidNumber "value" text) := by
  unfold ChequeForm.cheque at h ⊢
  obtain ⟨fromChain, hfromChain, h⟩ := Outcome.bind_eq_ok_iff.mp h
  obtain ⟨fromAddress, hfromAddress, h⟩ := Outcome.bind_eq_ok_iff.mp h
  obtain ⟨nonce, hnonce, h⟩ := Outcome.bind_eq_ok_iff.mp h
  obtain ⟨toChain, htoChain, h⟩ := Outcome.bind_eq_ok_iff.mp h
  obtain ⟨toAddress, htoAddress, h⟩ := Outcome.bind_eq_ok_iff.mp h
  obtain ⟨expireHeight, hexpireHeight, h⟩ := Outcome.bind_eq_ok_iff.mp h
  obtain ⟨amount, -, h⟩ := Outcome.bind_eq_ok_iff.mp h
  cases h
  rw [hfromChain, hfromAddress, hnonce, htoChain, htoAddress, hexpireHeight, readAmount_eq]
  cases readNumeral? text <;> rfl

/-- A cheque that is written can be written with any amount. -/
theorem toBytes_with_amount {cheque : Cheque} {bs : Bytes} (h : cheque.toBytes = .ok bs)
    (amount : Word) : ∃ bs, { cheque with amount }.toBytes = .ok bs := by
  unfold Cheque.toBytes at h ⊢
  split at h
  · cases h
  · next hchain => exact ⟨_, if_neg hchain⟩

theorem follows_encoding {form : ChequeForm} {text₀ s : String}
    (h : { form with value := text₀ }.encode = .ok s) :
    (Place.encoding form).Follows readNumeral? := by
  obtain ⟨cheque, hcheque, h⟩ := Outcome.bind_eq_ok_iff.mp h
  obtain ⟨bs₀, hbs₀, -⟩ := Outcome.bind_eq_ok_iff.mp h
  constructor
  · intro text w hread
    have hwith := cheque_eq hcheque text
    rw [hread] at hwith
    obtain ⟨bs, hbs⟩ := toBytes_with_amount hbs₀ w
    exact ⟨_, bs, hwith, rfl, hbs, Outcome.bind_eq_ok_iff.mpr
      ⟨_, hwith, Outcome.bind_eq_ok_iff.mpr ⟨bs, hbs, rfl⟩⟩⟩
  · intro text hread
    have hwith := cheque_eq hcheque text
    rw [hread] at hwith
    exact Outcome.bind_eq_error_iff.mpr (.inl hwith)

/-! ## Agreement -/

/-- **Agreement.** Either all places read the text as the same word, or all refuse it. -/
def AgreeOn (places : List Place) (text : String) : Prop :=
  (∃ w, ∀ place ∈ places, place.Reads text w) ∨ ∀ place ∈ places, place.Refuses text

/-- Places whose readers give the same for a text agree on it. -/
theorem agreeOn_of_follows {places : List Place} {text : String} (outcome : Option Word)
    (h : ∀ place ∈ places, ∃ read?, place.Follows read? ∧ read? text = outcome) :
    AgreeOn places text := by
  cases outcome with
  | some w =>
    refine .inl ⟨w, fun place hplace => ?_⟩
    obtain ⟨read?, hfollows, hread⟩ := h place hplace
    exact hfollows.reads hread
  | none =>
    refine .inr fun place hplace => ?_
    obtain ⟨read?, hfollows, hread⟩ := h place hplace
    exact hfollows.refuses hread

/-- Places do not agree on a text that one of them refuses and another one reads. -/
theorem not_agreeOn {places : List Place} {text : String} {w : Word} {p q : Place}
    (hp : p ∈ places) (hq : q ∈ places) (hrefuses : p.Refuses text) (hreads : q.Reads text w) :
    ¬ AgreeOn places text := by
  rintro (⟨v, hall⟩ | hall)
  · exact p.not_refuses (hall p hp) hrefuses
  · exact q.not_refuses hreads (hall q hq)

/-- **Amounts.** In a transaction and in a form whose other fields are good, and in a configuration,
    the three places agree on a text exactly if it is no marked numeral of a word. Offers and
    cheques agree on all texts. Transactions read the decimal texts and refuse marked numerals;
    offers and cheques read both. -/
theorem agreeOn_iff {tx : Transaction} {base : UInt64} {form : ChequeForm}
    (htx : ∃ text p, { tx with value := text }.payload base = .ok p)
    (hform : ∃ text s, { form with value := text }.encode = .ok s) (config : Config)
    (text : String) :
    (AgreeOn [.signing tx base, .offering config, .encoding form] text ↔
      ∀ w, ¬ IsMarkedNumeral text w) ∧
    AgreeOn [.offering config, .encoding form] text ∧
    (∀ w, IsMarkedNumeral text w → (Place.signing tx base).Refuses text) ∧
    (∀ w, (Place.signing tx base).Reads text w ↔ IsDecimalText text w) ∧
    (∀ w, (Place.offering config).Reads text w ↔ IsDecimalText text w ∨ IsMarkedNumeral text w) ∧
    ∀ w, (Place.encoding form).Reads text w ↔ IsDecimalText text w ∨ IsMarkedNumeral text w := by
  obtain ⟨text₀, p, hp⟩ := htx
  obtain ⟨text₁, s, hs⟩ := hform
  have hsigning := follows_signing hp
  have hoffering := follows_offering config
  have hencoding := follows_encoding hs
  have hrefuses : ∀ w, IsMarkedNumeral text w → (Place.signing tx base).Refuses text :=
    fun w hw => hsigning.refuses (readDecimal?_of_isMarkedNumeral hw)
  have hpair : AgreeOn [.offering config, .encoding form] text := by
    refine agreeOn_of_follows (readNumeral? text) ?_
    rw [List.forall_mem_cons, List.forall_mem_singleton]
    exact ⟨⟨_, hoffering, rfl⟩, ⟨_, hencoding, rfl⟩⟩
  refine ⟨⟨fun hagree w hw => ?_, fun hnone => ?_⟩, hpair, hrefuses, fun w => ?_, fun w => ?_,
    fun w => ?_⟩
  · have hreads := hoffering.reads (readNumeral?_eq_some_iff.mpr (.inr hw))
    exact not_agreeOn (by simp) (by simp) (hrefuses w hw) hreads hagree
  · refine agreeOn_of_follows (readNumeral? text) ?_
    rw [List.forall_mem_cons, List.forall_mem_cons, List.forall_mem_singleton]
    exact ⟨⟨_, hsigning, readDecimal?_eq_readNumeral? hnone⟩, ⟨_, hoffering, rfl⟩,
      ⟨_, hencoding, rfl⟩⟩
  · rw [hsigning.reads_iff, readDecimal?_eq_some_iff]
  · rw [hoffering.reads_iff, readNumeral?_eq_some_iff]
  · rw [hencoding.reads_iff, readNumeral?_eq_some_iff]

/-- A payment without an amount. -/
def payment : Transaction where
  chain := "1"
  nonce := "7"

/-- A cheque without an amount. -/
def chequeForm : ChequeForm where
  fromChain := "1"
  sender := "0x01"
  nonce := "5"
  toChain := "2"
  recipient := "0x02"
  expireHeight := "100"

/-- A plus sign and a zero in front of a decimal amount. -/
theorem agreeOn_decimal : AgreeOn [.signing payment 100007, .offering {}, .encoding chequeForm]
    "+016" ∧ (Place.signing payment 100007).Reads "+016" 16 := by
  have htx : ∃ text p, { payment with value := text }.payload 100007 = .ok p := ⟨"", _, rfl⟩
  have hform : ∃ text s, { chequeForm with value := text }.encode = .ok s := ⟨"", _, rfl⟩
  obtain ⟨hagree, -, -, hsigning, -⟩ := agreeOn_iff htx hform {} "+016"
  have hdecimal : readDecimal? "+016" = some 16 := by decide
  refine ⟨hagree.mpr fun w hw => ?_, (hsigning 16).mpr (readDecimal?_eq_some_iff.mp hdecimal)⟩
  rw [readDecimal?_of_isMarkedNumeral hw] at hdecimal
  cases hdecimal

/-- The amount of sixteen in hexadecimal is refused in a transaction, and read in an offer and in a
    cheque. -/
theorem not_agreeOn_hexadecimal :
    (Place.signing payment 100007).Refuses "0x10" ∧ (Place.offering {}).Reads "0x10" 16 ∧
      (Place.encoding chequeForm).Reads "0x10" 16 ∧
      ¬ AgreeOn [.signing payment 100007, .offering {}, .encoding chequeForm] "0x10" := by
  have hrefuses : (Place.signing payment 100007).Refuses "0x10" := rfl
  have hreads : (Place.offering {}).Reads "0x10" 16 := ⟨_, rfl, rfl⟩
  have hwritten : (Place.encoding chequeForm).Reads "0x10" 16 := ⟨_, _, rfl, rfl, rfl, rfl⟩
  exact ⟨hrefuses, hreads, hwritten, not_agreeOn (by simp) (by simp) hrefuses hreads⟩

end Amount

end ChainClient
