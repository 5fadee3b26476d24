import ChainClient.Proofs.Bytes.Number
import ChainClient.Rlp

/-!
# `ChainClient.Proofs.Rlp` — a text of an item is the text of one item only

A reader of a text with length prefixes finds out from the first byte what follows, and from the
header where it ends. So no text of an item is the front of the text of another one
(`encode_append_inj`), whatever stands behind the two: the lengths of the format leave no choice,
as long as they have at most 64 bits.

## Contents
- **Sizes.** `Rlp.Fits`: every length in an item has at most 64 bits.
- **Headers.** `header_append_inj`: a header tells byte strings from lists, and the length.
- **Items.** `encode_append_inj` for one item, `encode_injective` for whole texts.
- **Lengths.** `length_encodeBytes_le` and `length_encode_number_le` bound the texts of byte strings
  and numbers.
-/

namespace ChainClient

namespace Rlp

/-! ## Sizes -/

/-- The bound of the lengths that a header can hold. -/
def sizeBound : Nat := 256 ^ 8

/-- **Items with headers.** Every byte string, and the text of every list, has a length of at most
    64 bits. -/
inductive Fits : Rlp → Prop where
  | bytes {bs : Bytes} (h : bs.length < sizeBound) : Fits (.bytes bs)
  | list {items : List Rlp} (h : ∀ item ∈ items, Fits item)
      (hlen : (encodeItems items).length < sizeBound) : Fits (.list items)

/-! ## Headers -/

/-- A header starts with its base plus less than 64. What is added is the length, or says how many
    bytes the length takes. -/
theorem header_eq_cons (base : Nat) {n : Nat} (hn : n < sizeBound) :
    ∃ k rest, header base n = UInt8.ofNat (base + k) :: rest ∧ k < 64 ∧
      (k = n ∧ rest = [] ∧ n < 56 ∨ k = 55 + rest.length ∧ rest = Bytes.minimal n ∧ 56 ≤ n) := by
  unfold header
  split
  · next hshort => exact ⟨n, [], rfl, by omega, .inl ⟨rfl, rfl, hshort⟩⟩
  · next hlong =>
    have hle : (Bytes.minimal n).length ≤ 8 := (Bytes.length_minimal_le_iff n 8).mpr hn
    refine ⟨55 + (Bytes.minimal n).length, Bytes.minimal n, ?_, by omega,
      .inr ⟨rfl, rfl, by omega⟩⟩
    rw [Nat.add_assoc]

/-- The bases of the headers: of byte strings, and of lists. -/
def IsBase (base : Nat) : Prop := base = 0x80 ∨ base = 0xC0

/-- **Headers.** The first byte of a header tells the two bases apart and settles how much of the
    text is the length. -/
theorem header_append_inj {base base' n m : Nat} {r s : Bytes} (hbase : IsBase base)
    (hbase' : IsBase base') (hn : n < sizeBound) (hm : m < sizeBound)
    (h : header base n ++ r = header base' m ++ s) : base = base' ∧ n = m ∧ r = s := by
  obtain ⟨k, rest, hk, hk64, hcases⟩ := header_eq_cons base hn
  obtain ⟨k', rest', hk', hk64', hcases'⟩ := header_eq_cons base' hm
  rw [hk, hk', List.cons_append, List.cons_append] at h
  obtain ⟨hfirst, hbehind⟩ := List.cons.inj h
  have hsum := congrArg UInt8.toNat hfirst
  -- sixty-four numbers from each base on: no two of them meet, and none passes a byte
  have hlt : base + k < 256 := by rcases hbase with rfl | rfl <;> omega
  have hlt' : base' + k' < 256 := by rcases hbase' with rfl | rfl <;> omega
  rw [UInt8.toNat_ofNat_of_lt' hlt, UInt8.toNat_ofNat_of_lt' hlt'] at hsum
  have hsame : base = base' ∧ k = k' := by
    rcases hbase with rfl | rfl <;> rcases hbase' with rfl | rfl <;> omega
  obtain ⟨rfl, rfl⟩ := hsame
  -- what is added to the base is below 56 for a short text, and at least 56 for a long one
  rcases hcases with ⟨hkn, rfl, hshort⟩ | ⟨hklen, hrest, hlong⟩
  · rcases hcases' with ⟨hkm, rfl, _⟩ | ⟨hklen', hrest', hlong'⟩
    · exact ⟨rfl, hkn.symm.trans hkm, hbehind⟩
    · have hpos : 0 < (Bytes.minimal m).length := Bytes.length_minimal_pos (by omega)
      rw [← hrest'] at hpos
      omega
  · rcases hcases' with ⟨hkm, rfl, hshort'⟩ | ⟨hklen', hrest', hlong'⟩
    · have hpos : 0 < (Bytes.minimal n).length := Bytes.length_minimal_pos (by omega)
      rw [← hrest] at hpos
      omega
    · obtain ⟨hlength, htail⟩ := List.append_inj hbehind (by omega)
      rw [hrest, hrest'] at hlength
      exact ⟨rfl, Bytes.minimal_injective hlength, htail⟩

/-! ## Items -/

/-- A byte string is its own text, if it is one small byte, or stands behind a header. -/
theorem encodeBytes_cases (bs : Bytes) :
    (∃ b : UInt8, bs = [b] ∧ b.toNat < 0x80 ∧ encodeBytes bs = [b]) ∨
      encodeBytes bs = header 0x80 bs.length ++ bs := by
  unfold encodeBytes
  split
  · next b =>
    split
    · next hb => exact .inl ⟨b, rfl, UInt8.lt_iff_toNat_lt.mp hb, rfl⟩
    · exact .inr rfl
  · exact .inr rfl

/-- No header starts with a small byte. -/
theorem header_append_ne_small {base n : Nat} {b : UInt8} {r s : Bytes} (hbase : IsBase base)
    (hn : n < sizeBound) (hb : b.toNat < 0x80) : header base n ++ r ≠ b :: s := by
  intro h
  obtain ⟨k, rest, hk, hk64, _⟩ := header_eq_cons base hn
  have hlt : base + k < 256 := by rcases hbase with rfl | rfl <;> omega
  rw [hk, List.cons_append] at h
  have hfirst := congrArg UInt8.toNat (List.cons.inj h).1
  rw [UInt8.toNat_ofNat_of_lt' hlt] at hfirst
  rcases hbase with rfl | rfl <;> omega

theorem encodeBytes_append_inj {as bs r s : Bytes} (ha : as.length < sizeBound)
    (hb : bs.length < sizeBound) (h : encodeBytes as ++ r = encodeBytes bs ++ s) :
    as = bs ∧ r = s := by
  rcases encodeBytes_cases as with ⟨a, has, hasmall, hatext⟩ | hatext
  · rcases encodeBytes_cases bs with ⟨b, hbs, _, hbtext⟩ | hbtext
    · rw [hatext, hbtext] at h
      obtain ⟨hab, hrs⟩ := List.cons.inj h
      exact ⟨by rw [has, hbs, hab], hrs⟩
    · rw [hatext, hbtext, List.append_assoc] at h
      exact absurd h.symm (header_append_ne_small (.inl rfl) hb hasmall)
  · rcases encodeBytes_cases bs with ⟨b, hbs, hbsmall, hbtext⟩ | hbtext
    · rw [hatext, hbtext, List.append_assoc] at h
      exact absurd h (header_append_ne_small (.inl rfl) ha hbsmall)
    · rw [hatext, hbtext, List.append_assoc, List.append_assoc] at h
      obtain ⟨_, hlen, hbehind⟩ := header_append_inj (.inl rfl) (.inl rfl) ha hb h
      exact List.append_inj hbehind hlen

/-- No text of a byte string starts as the text of a list does. -/
theorem encodeBytes_append_ne_encodeList {bs payload r s : Bytes} (hb : bs.length < sizeBound)
    (hp : payload.length < sizeBound) : encodeBytes bs ++ r ≠ encodeList payload ++ s := by
  intro h
  rw [encodeList, List.append_assoc] at h
  rcases encodeBytes_cases bs with ⟨b, _, hsmall, htext⟩ | htext
  · rw [htext] at h
    exact header_append_ne_small (.inr rfl) hp hsmall h.symm
  · rw [htext, List.append_assoc] at h
    have hbase := (header_append_inj (.inl rfl) (.inr rfl) hb hp h).1
    omega

/-- A header is not empty. -/
theorem header_ne_nil (base n : Nat) : header base n ≠ [] := by
  unfold header
  split <;> exact List.cons_ne_nil _ _

/-- Every item has a text. -/
theorem encode_ne_nil (item : Rlp) : item.encode ≠ [] := by
  cases item with
  | bytes bs =>
    rcases encodeBytes_cases bs with ⟨b, _, _, htext⟩ | htext
    · rw [encode, htext]
      exact List.cons_ne_nil b []
    · rw [encode, htext]
      exact List.append_ne_nil_of_left_ne_nil (header_ne_nil 0x80 _) bs
  | list items =>
    rw [encode, encodeList]
    exact List.append_ne_nil_of_left_ne_nil (header_ne_nil 0xC0 _) _

mutual

/-- **Unique reading.** The front of a text is the text of one item only. The recursion is on the
    item; a list hands it to its items, and its header says where they end. -/
theorem encode_append_inj {a b : Rlp} {r s : Bytes} (ha : a.Fits) (hb : b.Fits)
    (h : a.encode ++ r = b.encode ++ s) : a = b ∧ r = s := by
  match a, b with
  | .bytes as, .bytes bs =>
    cases ha with
    | bytes ha =>
      cases hb with
      | bytes hb =>
        rw [encode, encode] at h
        obtain ⟨rfl, hrs⟩ := encodeBytes_append_inj ha hb h
        exact ⟨rfl, hrs⟩
  | .bytes as, .list bs =>
    cases ha with
    | bytes ha =>
      cases hb with
      | list _ hb =>
        rw [encode, encode] at h
        exact absurd h (encodeBytes_append_ne_encodeList ha hb)
  | .list as, .bytes bs =>
    cases ha with
    | list _ ha =>
      cases hb with
      | bytes hb =>
        rw [encode, encode] at h
        exact absurd h.symm (encodeBytes_append_ne_encodeList hb ha)
  | .list as, .list bs =>
    cases ha with
    | list has ha =>
      cases hb with
      | list hbs hb =>
        rw [encode, encode, encodeList, encodeList, List.append_assoc, List.append_assoc] at h
        obtain ⟨_, hlen, hbehind⟩ := header_append_inj (.inr rfl) (.inr rfl) ha hb h
        obtain ⟨hitems, hrs⟩ := List.append_inj hbehind hlen
        exact ⟨congrArg Rlp.list (encodeItems_inj has hbs hitems), hrs⟩

/-- The texts of items, end to end, are those of one list of items only. -/
theorem encodeItems_inj {as bs : List Rlp} (ha : ∀ a ∈ as, a.Fits) (hb : ∀ b ∈ bs, b.Fits)
    (h : encodeItems as = encodeItems bs) : as = bs := by
  match as, bs with
  | [], [] => rfl
  | [], b :: bs =>
    rw [encodeItems, encodeItems] at h
    exact absurd h.symm (List.append_ne_nil_of_left_ne_nil (encode_ne_nil b) _)
  | a :: as, [] =>
    rw [encodeItems, encodeItems] at h
    exact absurd h (List.append_ne_nil_of_left_ne_nil (encode_ne_nil a) _)
  | a :: as, b :: bs =>
    rw [encodeItems, encodeItems] at h
    obtain ⟨hhead, htail⟩ :=
      encode_append_inj (ha a List.mem_cons_self) (hb b List.mem_cons_self) h
    rw [hhead, encodeItems_inj (fun x hx => ha x (List.mem_cons_of_mem a hx))
      (fun x hx => hb x (List.mem_cons_of_mem b hx)) htail]

end

/-- Whole texts are those of one item only. -/
theorem encode_injective {a b : Rlp} (ha : a.Fits) (hb : b.Fits) (h : a.encode = b.encode) :
    a = b :=
  (@encode_append_inj a b [] [] ha hb (by rw [h])).1

/-! ## Lengths -/

theorem length_header_le (base : Nat) {n : Nat} (hn : n < sizeBound) :
    (header base n).length ≤ 9 := by
  have hle : (Bytes.minimal n).length ≤ 8 := (Bytes.length_minimal_le_iff n 8).mpr hn
  unfold header
  split
  · exact Nat.le_of_ble_eq_true rfl
  · rw [List.length_cons]
    omega

theorem length_encodeBytes_le {bs : Bytes} (h : bs.length < sizeBound) :
    (encodeBytes bs).length ≤ bs.length + 9 := by
  have hheader := length_header_le 0x80 h
  rcases encodeBytes_cases bs with ⟨b, hbs, _, htext⟩ | htext
  · rw [htext, List.length_singleton]
    omega
  · rw [htext, List.length_append]
    omega

/-- The text of the number of a word, or of a smaller one, is short. -/
theorem length_encode_number_le {n : Nat} (h : n < 256 ^ 32) : (number n).encode.length ≤ 41 := by
  have hle : (Bytes.minimal n).length ≤ 32 := (Bytes.length_minimal_le_iff n 32).mpr h
  have hsize : 32 < sizeBound := by decide
  have htext := length_encodeBytes_le (Nat.lt_of_le_of_lt hle hsize)
  rw [number, encode]
  omega

/-- The number of a word, or a smaller one, has a header. -/
theorem fits_number {n : Nat} (h : n < 256 ^ 32) : (number n).Fits := by
  have hle : (Bytes.minimal n).length ≤ 32 := (Bytes.length_minimal_le_iff n 32).mpr h
  have hsize : 32 < sizeBound := by decide
  exact .bytes (Nat.lt_of_le_of_lt hle hsize)

theorem number_injective {n m : Nat} (h : number n = number m) : n = m :=
  Bytes.minimal_injective (Rlp.bytes.inj h)

end Rlp

end ChainClient
