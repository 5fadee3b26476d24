import ChainClient.Bytes
import Mathlib.Data.List.Induction
import Mathlib.Data.Nat.Digits.Defs
import Mathlib.Tactic.Ring

/-!
# `ChainClient.Proofs.Bytes.Number` — big-endian numbers and the bytes that spell them

Every format of the library writes numbers in one of two ways, at a given width (`Bytes.ofNat`) or
without a leading zero (`Bytes.minimal`), and reads them in one (`Bytes.value`). The laws here tie
the three together; no later proof opens their recursions.

## Contents
- **Reading.** `value` sends concatenation to positional notation (`value_append`) and stays below
  the bound of its length (`value_lt`).
- **Fixed width.** `value_ofNat` reads the number back modulo `256 ^ width`; `ofNat_value` writes
  the bytes back.
- **Minimal form.** `value_minimal` reads the number back, so that `minimal` is injective, and
  `length_minimal_le_iff` counts its bytes. `eq_minimal_iff`: no other spelling of the number is
  without a leading zero.
-/

namespace ChainClient

namespace Bytes

/-! ## Reading -/

@[simp] theorem value_nil : value [] = 0 := rfl

/-- Reading from the left, as `value` does, from any number on. -/
theorem foldl_eq_value (acc : Nat) (bs : Bytes) :
    bs.foldl (fun acc b => acc * 256 + b.toNat) acc = acc * 256 ^ bs.length + value bs := by
  induction bs generalizing acc with
  | nil => simp
  | cons b bs ih =>
    have hv : value (b :: bs) = b.toNat * 256 ^ bs.length + value bs := by
      show bs.foldl _ (0 * 256 + b.toNat) = _
      rw [ih, Nat.zero_mul, Nat.zero_add]
    rw [List.foldl_cons, ih, hv, List.length_cons, Nat.pow_succ]
    ring

theorem value_cons (b : UInt8) (bs : Bytes) :
    value (b :: bs) = b.toNat * 256 ^ bs.length + value bs := by
  show bs.foldl _ (0 * 256 + b.toNat) = _
  rw [foldl_eq_value, Nat.zero_mul, Nat.zero_add]

/-- **Positional notation.** The number of a concatenation. -/
theorem value_append (as bs : Bytes) :
    value (as ++ bs) = value as * 256 ^ bs.length + value bs := by
  show (as ++ bs).foldl _ 0 = _
  rw [List.foldl_append, foldl_eq_value]
  rfl

theorem value_concat (bs : Bytes) (b : UInt8) : value (bs ++ [b]) = value bs * 256 + b.toNat := by
  rw [value_append, value_cons]
  simp

/-- Reading is adding up digits of the radix 256, the last one first. -/
theorem value_eq_ofDigits (bs : Bytes) :
    value bs = Nat.ofDigits 256 (bs.reverse.map UInt8.toNat) := by
  rw [value, Nat.ofDigits_eq_foldr, List.foldr_map, List.foldr_reverse]
  simp only [Nat.mul_comm 256, Nat.add_comm, Nat.cast_id]

theorem value_lt (bs : Bytes) : value bs < 256 ^ bs.length := by
  induction bs with
  | nil => simp
  | cons b bs ih =>
    have hb : b.toNat + 1 ≤ 256 := b.toNat_lt
    calc value (b :: bs)
        = b.toNat * 256 ^ bs.length + value bs := value_cons b bs
      _ < b.toNat * 256 ^ bs.length + 256 ^ bs.length := Nat.add_lt_add_left ih _
      _ = (b.toNat + 1) * 256 ^ bs.length := by ring
      _ ≤ 256 * 256 ^ bs.length := Nat.mul_le_mul_right _ hb
      _ = 256 ^ (b :: bs).length := by rw [List.length_cons, Nat.pow_succ, Nat.mul_comm]

theorem value_lt_of_length {bs : Bytes} {width : Nat} (h : bs.length = width) :
    value bs < 256 ^ width := h ▸ value_lt bs

@[simp] theorem value_replicate_zero (n : Nat) : value (List.replicate n 0) = 0 := by
  induction n with
  | zero => rfl
  | succ n ih => rw [List.replicate_succ, value_cons, ih]; simp

theorem value_eq_zero_iff (bs : Bytes) : value bs = 0 ↔ bs.all (· == 0) = true := by
  induction bs with
  | nil => simp
  | cons b bs ih =>
    have hb : b = 0 ↔ b.toNat = 0 := UInt8.toNat_inj.symm
    rw [value_cons, Nat.add_eq_zero_iff, Nat.mul_eq_zero, List.all_cons, Bool.and_eq_true,
      beq_iff_eq, hb, ih, or_iff_left (Nat.pow_pos (by decide)).ne']

/-- Zeros in front of a number do not count. -/
theorem value_dropWhile_zero (bs : Bytes) :
    value (bs.dropWhile (· == 0)) = value bs := by
  induction bs with
  | nil => rfl
  | cons b bs ih =>
    rw [List.dropWhile_cons]
    split
    · next hzero =>
      obtain rfl := eq_of_beq hzero
      rw [ih, value_cons]
      simp
    · rfl

theorem head?_dropWhile_zero (bs : Bytes) : (bs.dropWhile (· == 0)).head? ≠ some 0 := by
  intro hhead
  have hkept := List.head?_dropWhile_not (· == 0) bs
  rw [hhead] at hkept
  cases hkept

/-- Bytes without a zero in front are no longer than the width of their number. -/
theorem length_le_of_value_lt {b : UInt8} {bs : Bytes} {width : Nat} (hb : b ≠ 0)
    (h : value (b :: bs) < 256 ^ width) : (b :: bs).length ≤ width := by
  by_contra hlong
  have hpos : 1 ≤ b.toNat := Nat.pos_of_ne_zero fun hzero => hb (UInt8.toNat_inj.mp hzero)
  have hpow : 256 ^ width ≤ 256 ^ bs.length := by
    apply Nat.pow_le_pow_right (by decide)
    rw [List.length_cons] at hlong
    omega
  have hle : 256 ^ bs.length ≤ b.toNat * 256 ^ bs.length := Nat.le_mul_of_pos_left _ hpos
  rw [value_cons] at h
  omega

/-! ## Fixed width -/

/-- Writing at a width and reading keeps the number modulo the bound of the width. -/
theorem value_ofNat (width n : Nat) : value (ofNat width n) = n % 256 ^ width := by
  induction width generalizing n with
  | zero => simp [ofNat, Nat.mod_one]
  | succ width ih =>
    have hpow : 256 ^ (width + 1) = 256 * 256 ^ width := by ring
    rw [ofNat, value_concat, ih, UInt8.toNat_ofNat', hpow, Nat.mod_mul]
    omega

theorem value_ofNat_of_lt {width n : Nat} (h : n < 256 ^ width) : value (ofNat width n) = n := by
  rw [value_ofNat, Nat.mod_eq_of_lt h]

/-- Reading and writing at the same width keeps the bytes. -/
theorem ofNat_value (bs : Bytes) : ofNat bs.length (value bs) = bs := by
  induction bs using List.reverseRecOn with
  | nil => rfl
  | append_singleton bs b ih =>
    have hb : b.toNat < 256 := b.toNat_lt
    have hdiv : (value bs * 256 + b.toNat) / 256 = value bs := by omega
    have hlast : UInt8.ofNat (value bs * 256 + b.toNat) = b := by
      apply UInt8.toNat_inj.mp
      rw [UInt8.toNat_ofNat']
      omega
    rw [List.length_append, List.length_singleton, ofNat, value_concat, hdiv, ih, hlast]

/-- The bytes of a width are the spelling of their number. -/
theorem ofNat_of_value_eq {bs : Bytes} {width n : Nat} (hlen : bs.length = width)
    (h : n = value bs) : ofNat width n = bs := by
  rw [h, ← hlen, ofNat_value]

/-- A field is known by its number. -/
theorem eq_of_value_eq {width : Nat} {f g : FixedBytes width} (h : f.value = g.value) : f = g := by
  rcases f with ⟨bs, hbs⟩
  rcases g with ⟨cs, hcs⟩
  have hbytes : bs = cs :=
    (ofNat_of_value_eq hbs rfl).symm.trans (ofNat_of_value_eq hcs h)
  subst hbytes
  rfl

/-! ## Minimal form -/

@[simp] theorem minimal_zero : minimal 0 = [] := by rw [minimal, if_pos rfl]

theorem minimal_of_pos {n : Nat} (h : 0 < n) :
    minimal n = minimal (n / 256) ++ [UInt8.ofNat n] := by
  rw [minimal, if_neg (Nat.ne_of_gt h)]

/-- Writing without leading zeros and reading keeps the number. -/
theorem value_minimal (n : Nat) : value (minimal n) = n := by
  induction n using Nat.strongRecOn with
  | ind n ih =>
    rcases Nat.eq_zero_or_pos n with rfl | h
    · simp
    · rw [minimal_of_pos h, value_concat, ih (n / 256) (by omega), UInt8.toNat_ofNat']
      omega

theorem minimal_injective {m n : Nat} (h : minimal m = minimal n) : m = n := by
  rw [← value_minimal m, ← value_minimal n, h]

/-- The minimal form has at most `k` bytes exactly for the numbers below `256 ^ k`. -/
theorem length_minimal_le_iff (n k : Nat) : (minimal n).length ≤ k ↔ n < 256 ^ k := by
  induction n using Nat.strongRecOn generalizing k with
  | ind n ih =>
    rcases Nat.eq_zero_or_pos n with rfl | h
    · simp
    · rw [minimal_of_pos h, List.length_append, List.length_singleton]
      cases k with
      | zero => simp only [Nat.pow_zero]; omega
      | succ k =>
        rw [Nat.add_le_add_iff_right, ih (n / 256) (by omega), Nat.pow_succ,
          Nat.div_lt_iff_lt_mul (by decide)]

/-- A number that is not zero has a byte. -/
theorem length_minimal_pos {n : Nat} (h : 0 < n) : 0 < (minimal n).length := by
  rw [minimal_of_pos h]
  simp

theorem head?_minimal (n : Nat) : (minimal n).head? ≠ some 0 := by
  induction n using Nat.strongRecOn with
  | ind n ih =>
    rcases Nat.eq_zero_or_pos n with rfl | h
    · simp
    · rw [minimal_of_pos h]
      rcases Nat.eq_zero_or_pos (n / 256) with hzero | hpos
      · -- the number is its only byte
        have hlt : n < 256 := by omega
        rw [hzero, minimal_zero, List.nil_append, List.head?_singleton]
        intro hbyte
        have hmod := congrArg UInt8.toNat (Option.some.inj hbyte)
        rw [UInt8.toNat_ofNat', Nat.mod_eq_of_lt hlt] at hmod
        exact Nat.ne_of_gt h hmod
      · obtain ⟨b, bs, hfront⟩ := List.exists_cons_of_length_pos (length_minimal_pos hpos)
        have hhead := ih (n / 256) (by omega)
        rw [hfront] at hhead ⊢
        exact hhead

/-- Spellings of one number without a leading zero have one length. -/
theorem length_eq_length_minimal {bs : Bytes} (h : bs.head? ≠ some 0) :
    bs.length = (minimal (value bs)).length := by
  apply Nat.le_antisymm
  · cases bs with
    | nil => exact Nat.zero_le _
    | cons b bs =>
      have hb : b ≠ 0 := fun hzero => h (congrArg some hzero)
      exact length_le_of_value_lt hb ((length_minimal_le_iff _ _).mp (Nat.le_refl _))
  · exact (length_minimal_le_iff _ _).mpr (value_lt bs)

/-- **Minimal form.** It is the spelling of its number without a leading zero. -/
theorem eq_minimal_iff {bs : Bytes} {n : Nat} :
    bs = minimal n ↔ value bs = n ∧ bs.head? ≠ some 0 := by
  constructor
  · rintro rfl
    exact ⟨value_minimal n, head?_minimal n⟩
  · rintro ⟨rfl, hhead⟩
    calc bs = ofNat bs.length (value bs) := (ofNat_value bs).symm
      _ = ofNat (minimal (value bs)).length (value bs) := by rw [length_eq_length_minimal hhead]
      _ = minimal (value bs) := ofNat_of_value_eq rfl (value_minimal (value bs)).symm

end Bytes

end ChainClient
