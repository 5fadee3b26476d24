/-!
# `ChainClient.Bytes` — byte strings, read as big-endian numbers and cut to a width

Everything the library hashes, signs or packs is a list of bytes. Two views of such a list recur:
the number it spells, most significant byte first, and the fixed-width field it fills.

## Contents
- **Numbers.** `Bytes.value` reads a number; `Bytes.ofNat` writes one at a given width and
  `Bytes.minimal` writes one without a leading zero byte.
- **Subtraction.** `Bytes.subtract` goes from the last byte to the first and borrows.
- **Widths.** `Bytes.padLeft` and `Bytes.padRight` never shorten; `Bytes.fit` always lands on the
  width, keeping the last bytes of a longer string.
- **Fields.** `FixedBytes n` is a byte string known to have `n` bytes.
-/

namespace ChainClient

/-- A byte string. -/
abbrev Bytes := List UInt8

namespace Bytes

/-! ## Numbers -/

/-- The number a byte string spells, most significant byte first. -/
def value (bs : Bytes) : Nat :=
  bs.foldl (fun acc b => acc * 256 + b.toNat) 0

/-- The low `width` bytes of a number, most significant first. -/
def ofNat : (width : Nat) → Nat → Bytes
  | 0, _ => []
  | width + 1, n => ofNat width (n / 256) ++ [UInt8.ofNat n]

/-- The shortest big-endian spelling of a number: no leading zero byte, and no byte at all for
    zero. -/
def minimal (n : Nat) : Bytes :=
  if n = 0 then [] else minimal (n / 256) ++ [UInt8.ofNat n]
termination_by n
decreasing_by omega

@[simp] theorem length_ofNat (width n : Nat) : (ofNat width n).length = width := by
  induction width generalizing n with
  | zero => rfl
  | succ w ih => simp [ofNat, ih]

/-! ## Subtraction -/

/-- One place of a subtraction, in 16 bits: the byte of the difference, and 1 if the next place has
    to lend. A difference below zero wraps around, to a number above every byte. -/
def subtractPlace (a b : UInt8) (borrow : UInt16) : UInt8 × UInt16 :=
  let diff := a.toUInt16 - b.toUInt16 - borrow
  (diff.toUInt8, if 255 < diff then 1 else 0)

/-- The difference of byte strings of one length, from the last place to the first, and what the
    first place has borrowed. -/
def subtract : Bytes → Bytes → Bytes × UInt16
  | a :: as, b :: bs =>
    let (rest, borrow) := subtract as bs
    let (digit, borrow) := subtractPlace a b borrow
    (digit :: rest, borrow)
  | _, _ => ([], 0)

theorem length_subtract {as bs : Bytes} (h : as.length = bs.length) :
    (subtract as bs).1.length = as.length := by
  induction as generalizing bs with
  | nil => rfl
  | cons a as ih =>
    cases bs with
    | nil => cases h
    | cons b bs =>
      rw [subtract, List.length_cons, List.length_cons, ih (Nat.succ.inj h)]

/-! ## Widths -/

/-- Zeros in front of `bs` up to `width` bytes; a longer string is left alone. -/
def padLeft (width : Nat) (bs : Bytes) : Bytes :=
  List.replicate (width - bs.length) 0 ++ bs

/-- Zeros after `bs` up to `width` bytes; a longer string is left alone. -/
def padRight (width : Nat) (bs : Bytes) : Bytes :=
  bs ++ List.replicate (width - bs.length) 0

/-- The last `width` bytes of `bs`, with zeros in front when there are fewer. -/
def fit (width : Nat) (bs : Bytes) : Bytes :=
  padLeft width (bs.drop (bs.length - width))

@[simp] theorem length_padLeft (width : Nat) (bs : Bytes) :
    (padLeft width bs).length = max width bs.length := by
  simp only [padLeft, List.length_append, List.length_replicate]
  omega

@[simp] theorem length_padRight (width : Nat) (bs : Bytes) :
    (padRight width bs).length = max width bs.length := by
  simp only [padRight, List.length_append, List.length_replicate]
  omega

@[simp] theorem length_fit (width : Nat) (bs : Bytes) : (fit width bs).length = width := by
  simp only [fit, length_padLeft, List.length_drop]
  omega

/-- A string that already has the width is its own fit. -/
theorem fit_of_length {width : Nat} {bs : Bytes} (h : bs.length = width) : fit width bs = bs := by
  simp [fit, padLeft, h]

end Bytes

/-! ## Fields -/

/-- A byte string of exactly `n` bytes. -/
structure FixedBytes (n : Nat) where
  /-- The bytes. -/
  bytes : Bytes
  /-- Their number. -/
  length_bytes : bytes.length = n
  deriving DecidableEq

namespace FixedBytes

/-- The field holding `bs`, if its length is right. -/
def ofBytes? (n : Nat) (bs : Bytes) : Option (FixedBytes n) :=
  if h : bs.length = n then some ⟨bs, h⟩ else none

/-- The field holding the last bytes of `bs`, padded with zeros in front. -/
def fit (n : Nat) (bs : Bytes) : FixedBytes n :=
  ⟨Bytes.fit n bs, Bytes.length_fit n bs⟩

/-- The field of zero bytes. -/
def zero (n : Nat) : FixedBytes n :=
  ⟨List.replicate n 0, List.length_replicate⟩

/-- The field spelling the low `8 * n` bits of a number. -/
def ofNat (n value : Nat) : FixedBytes n :=
  ⟨Bytes.ofNat n value, Bytes.length_ofNat n value⟩

/-- The difference of two fields, modulo `256 ^ n`: what the first place borrows is dropped. -/
def subtract {n : Nat} (f g : FixedBytes n) : FixedBytes n :=
  ⟨(Bytes.subtract f.bytes g.bytes).1,
    (Bytes.length_subtract (f.length_bytes.trans g.length_bytes.symm)).trans f.length_bytes⟩

/-- The number a field spells. -/
def value {n : Nat} (f : FixedBytes n) : Nat := Bytes.value f.bytes

end FixedBytes

end ChainClient
