import ChainClient.Message
import ChainClient.Proofs.Address.Checksum
import ChainClient.Transaction.Signing

/-!
# `ChainClient.Proofs.Message` — what a joined text says

Two kinds of text are signed: the fields of a transaction between dashes, and those of a node
binding between commas. A text is cut at its separators again, so it determines its fields, as long
as no separator stands inside one. Of hexadecimal fields it determines what they spell, since marks
and the case of letters are dropped on the way.

## Contents
- **Joining.** `intercalate_inj`: lists of fields without the separator.
- **Fields.** `Hex.SameDigits` is what is left of a hexadecimal field; `smallDigits_inj` ties it to
  the joined text.
- **Texts.** `IsSeparable` and `SaysSame`, for transactions and for node bindings;
  `Transaction.joinedText_inj` and `NodeBinding.text_inj`, then `joined_texts_unambiguous` for both.
-/

namespace ChainClient

/-! ## Joining -/

/-- **Joined fields** are cut apart at the separators. -/
theorem intercalate_inj {sep : Char} {fields others : List (List Char)} (hne : fields ≠ [])
    (hne' : others ≠ []) (h : ∀ field ∈ fields, sep ∉ field) (h' : ∀ field ∈ others, sep ∉ field) :
    [sep].intercalate fields = [sep].intercalate others ↔ fields = others := by
  constructor
  · intro hjoined
    rw [← List.splitOn_intercalate sep h hne, hjoined, List.splitOn_intercalate sep h' hne']
  · rintro rfl
    rfl

/-! ## Fields -/

namespace Hex

/-- **The same digits**: the texts differ at most in having a mark, in its form, and in the case of
    their letters. -/
def SameDigits (s t : String) : Prop :=
  (dropMark s.toList).map Char.toLower = (dropMark t.toList).map Char.toLower

/-- **The same body**: the texts differ at most in having a mark, and in its form. -/
def SameBody (s t : String) : Prop := dropMark s.toList = dropMark t.toList

instance (s t : String) : Decidable (SameDigits s t) :=
  inferInstanceAs (Decidable ((dropMark s.toList).map _ = (dropMark t.toList).map _))

instance (s t : String) : Decidable (SameBody s t) :=
  inferInstanceAs (Decidable (dropMark s.toList = dropMark t.toList))

theorem not_mem_dropMark {c : Char} {s : String} (h : c ∉ s.toList) : c ∉ dropMark s.toList := by
  unfold dropMark
  split
  · exact fun hc => h (List.mem_of_mem_drop hc)
  · exact h

end Hex

namespace Transaction

theorem smallDigits_of_onlyDigits {s : String} (h : Hex.OnlyDigits s) :
    smallDigits s = (Hex.dropMark s.toList).map Char.toLower :=
  Address.lowercase_of_ascii fun c hc => Hex.toNat_lt_of_digit? (h c hc)

/-- A dash is no digit. -/
theorem dash_not_mem_smallDigits {s : String} (h : Hex.OnlyDigits s) : '-' ∉ smallDigits s := by
  rw [smallDigits_of_onlyDigits h]
  intro hdash
  obtain ⟨c, hc, hlower⟩ := List.mem_map.mp hdash
  obtain ⟨d, hd, hdigit⟩ := Hex.isSome_digit?_iff.mp (h c hc)
  have hall : ∀ d : Fin 16, d.val.digitChar ≠ '-' := by decide
  exact hall ⟨d, hd⟩ (hdigit.symm.trans hlower)

theorem smallDigits_inj {s t : String} (hs : Hex.OnlyDigits s) (ht : Hex.OnlyDigits t) :
    smallDigits s = smallDigits t ↔ Hex.SameDigits s t := by
  rw [smallDigits_of_onlyDigits hs, smallDigits_of_onlyDigits ht, Hex.SameDigits]

/-! ## Texts -/

/-- **Fields that can be told apart**: no dash in the numbers, and only digits in the hexadecimal
    texts. -/
structure IsSeparable (tx : Transaction) : Prop where
  chain : '-' ∉ tx.chain.toList
  nonce : '-' ∉ tx.nonce.toList
  value : '-' ∉ tx.value.toList
  sender : Hex.OnlyDigits tx.sender
  recipient : Hex.OnlyDigits tx.recipient
  input : Hex.OnlyDigits tx.input
  extra : Hex.OnlyDigits tx.extra

/-- **Transactions that say the same**: the texts of numbers are equal, and hexadecimal texts have
    the same digits. -/
structure SaysSame (tx other : Transaction) : Prop where
  chain : tx.chain = other.chain
  nonce : tx.nonce = other.nonce
  useLocal : tx.useLocal = other.useLocal
  value : tx.value = other.value
  sender : Hex.SameDigits tx.sender other.sender
  recipient : Hex.SameDigits tx.recipient other.recipient
  input : Hex.SameDigits tx.input other.input
  extra : Hex.SameDigits tx.extra other.extra

/-- The fields of the joined text, in their order. -/
def joinedFields (tx : Transaction) : List (List Char) :=
  [tx.chain.toList, smallDigits tx.sender, smallDigits tx.recipient, tx.nonce.toList,
    [if tx.useLocal then '1' else '0'], tx.value.toList, smallDigits tx.input, smallDigits tx.extra]

theorem IsSeparable.dash_not_mem {tx : Transaction} (h : tx.IsSeparable) :
    ∀ field ∈ tx.joinedFields, '-' ∉ field := by
  have hlocal : '-' ∉ [if tx.useLocal then '1' else '0'] := by
    cases tx.useLocal <;> decide
  simp only [joinedFields, List.forall_mem_cons]
  exact ⟨h.chain, dash_not_mem_smallDigits h.sender, dash_not_mem_smallDigits h.recipient, h.nonce,
    hlocal, h.value, dash_not_mem_smallDigits h.input, dash_not_mem_smallDigits h.extra,
    List.forall_mem_nil _⟩

theorem joinedFields_inj {tx other : Transaction} (h : tx.IsSeparable) (h' : other.IsSeparable) :
    tx.joinedFields = other.joinedFields ↔ tx.SaysSame other := by
  have hlocal : [if tx.useLocal then '1' else '0'] = [if other.useLocal then '1' else '0'] ↔
      tx.useLocal = other.useLocal := by
    cases tx.useLocal <;> cases other.useLocal <;> decide
  simp only [joinedFields, List.cons_eq_cons, and_true, hlocal,
    String.toList_inj, smallDigits_inj h.sender h'.sender, smallDigits_inj h.recipient h'.recipient,
    smallDigits_inj h.input h'.input, smallDigits_inj h.extra h'.extra]
  constructor
  · rintro ⟨hchain, hsender, hrecipient, hnonce, huse, hvalue, hinput, hextra⟩
    exact ⟨hchain, hnonce, huse, hvalue, hsender, hrecipient, hinput, hextra⟩
  · rintro ⟨hchain, hnonce, huse, hvalue, hsender, hrecipient, hinput, hextra⟩
    exact ⟨hchain, hsender, hrecipient, hnonce, huse, hvalue, hinput, hextra⟩

theorem joinedText_inj {tx other : Transaction} (h : tx.IsSeparable) (h' : other.IsSeparable) :
    tx.joinedText = other.joinedText ↔ tx.SaysSame other := by
  rw [← joinedFields_inj h h']
  exact intercalate_inj (List.cons_ne_nil _ _) (List.cons_ne_nil _ _) h.dash_not_mem h'.dash_not_mem

end Transaction

/-- The fields of a node binding. -/
structure NodeBinding where
  nodeId : String
  nodeType : String
  address : String
  nonce : String
  amount : String

namespace NodeBinding

/-- The text of a node binding. -/
def text (binding : NodeBinding) : String :=
  Message.nodeBinding binding.nodeId binding.nodeType binding.address binding.nonce binding.amount

/-- **Fields that can be told apart**: no comma in any of them. -/
structure IsSeparable (binding : NodeBinding) : Prop where
  nodeId : ',' ∉ binding.nodeId.toList
  nodeType : ',' ∉ binding.nodeType.toList
  address : ',' ∉ binding.address.toList
  nonce : ',' ∉ binding.nonce.toList
  amount : ',' ∉ binding.amount.toList

/-- **Bindings that say the same**: the node and the address have the same bodies, and the other
    fields are equal. -/
structure SaysSame (binding other : NodeBinding) : Prop where
  nodeType : binding.nodeType = other.nodeType
  nonce : binding.nonce = other.nonce
  amount : binding.amount = other.amount
  nodeId : Hex.SameBody binding.nodeId other.nodeId
  address : Hex.SameBody binding.address other.address

/-- The fields in the text, in their order. -/
def fields (binding : NodeBinding) : List (List Char) :=
  [Hex.dropMark binding.nodeId.toList, binding.nodeType.toList,
    Hex.dropMark binding.address.toList, binding.nonce.toList, binding.amount.toList]

theorem toList_text (binding : NodeBinding) :
    binding.text.toList = [','].intercalate binding.fields := by
  rw [text, Message.nodeBinding, String.toList_intercalate]
  simp only [fields, List.map_cons, List.map_nil, Hex.unmarked, String.toList_ofList]
  rfl

theorem IsSeparable.comma_not_mem {binding : NodeBinding} (h : binding.IsSeparable) :
    ∀ field ∈ binding.fields, ',' ∉ field := by
  simp only [fields, List.forall_mem_cons]
  exact ⟨Hex.not_mem_dropMark h.nodeId, h.nodeType, Hex.not_mem_dropMark h.address, h.nonce,
    h.amount, List.forall_mem_nil _⟩

theorem fields_inj {binding other : NodeBinding} :
    binding.fields = other.fields ↔ binding.SaysSame other := by
  simp only [fields, List.cons_eq_cons, and_true, String.toList_inj]
  constructor
  · rintro ⟨hnode, htype, haddress, hnonce, hamount⟩
    exact ⟨htype, hnonce, hamount, hnode, haddress⟩
  · rintro ⟨htype, hnonce, hamount, hnode, haddress⟩
    exact ⟨hnode, htype, haddress, hnonce, hamount⟩

theorem text_inj {binding other : NodeBinding} (h : binding.IsSeparable)
    (h' : other.IsSeparable) : binding.text = other.text ↔ binding.SaysSame other := by
  rw [← String.toList_inj, toList_text, toList_text, ← fields_inj]
  exact intercalate_inj (List.cons_ne_nil _ _) (List.cons_ne_nil _ _) h.comma_not_mem
    h'.comma_not_mem

end NodeBinding

/-- **Joined texts are unambiguous.** As long as no separator stands inside a field, two
    transactions have one joined text exactly if they say the same, and so do two node bindings:
    their numbers are spelled alike, and hexadecimal fields differ at most in their marks, and for
    transactions in the case of letters. -/
theorem joined_texts_unambiguous :
    (∀ tx other : Transaction, tx.IsSeparable → other.IsSeparable →
      (tx.joinedText = other.joinedText ↔ tx.SaysSame other)) ∧
    ∀ binding other : NodeBinding, binding.IsSeparable → other.IsSeparable →
      (binding.text = other.text ↔ binding.SaysSame other) :=
  ⟨fun _ _ => Transaction.joinedText_inj, fun _ _ => NodeBinding.text_inj⟩

/-- Texts that are one, of fields with marks and capitals and of fields without; and texts that
    differ, of fields that shift a character from one to the next. -/
theorem joined_texts_unambiguous_of_marks :
    let tx : Transaction := { chain := "1", sender := "0XaB", nonce := "", input := "0x" }
    let same : Transaction := { chain := "1", sender := "Ab", nonce := "", extra := "0X" }
    let other : Transaction := { chain := "1", sender := "a", recipient := "b" }
    (tx.IsSeparable ∧ same.IsSeparable ∧ other.IsSeparable) ∧
      tx.joinedText = same.joinedText ∧ tx.joinedText ≠ other.joinedText ∧
      NodeBinding.text ⟨"0xn", "0", "a-b", "1", ""⟩ =
        NodeBinding.text ⟨"0Xn", "0", "0xa-b", "1", ""⟩ ∧
      NodeBinding.text ⟨"n", "0", "", "1", "2"⟩ ≠ NodeBinding.text ⟨"n", "", "0", "1", "2"⟩ := by
  intro tx same other
  obtain ⟨htext, hbinding⟩ := joined_texts_unambiguous
  have htx : tx.IsSeparable := by constructor <;> decide
  have hsame : same.IsSeparable := by constructor <;> decide
  have hother : other.IsSeparable := by constructor <;> decide
  refine ⟨⟨htx, hsame, hother⟩, (htext tx same htx hsame).mpr ?_, fun h => ?_,
    (hbinding _ _ ?_ ?_).mpr ?_, fun h => ?_⟩
  · constructor <;> decide
  · exact absurd ((htext tx other htx hother).mp h).recipient (by decide)
  · constructor <;> decide
  · constructor <;> decide
  · constructor <;> decide
  · have hsays := (hbinding _ _ (by constructor <;> decide) (by constructor <;> decide)).mp h
    exact absurd hsays.nodeType (by decide)

end ChainClient
