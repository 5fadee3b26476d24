/-!
# `ChainClient.Width` — numbers of a limited number of bits

## Contents
- **Bounds.** The numbers of `bits` bits are those below `bitBound bits`; the bound doubles with
  every bit.
-/

namespace ChainClient

/-- The least number that takes more than `bits` bits: two to that power. -/
def bitBound (bits : Nat) : Nat := Nat.pow 2 bits

/-- The bound of no bits. -/
@[simp] theorem bitBound_zero : bitBound 0 = 1 := rfl

/-- One more bit doubles the bound. -/
theorem bitBound_succ (bits : Nat) : bitBound (bits + 1) = bitBound bits * 2 := rfl

/-- Zero takes no bits. -/
theorem bitBound_pos (bits : Nat) : 0 < bitBound bits := by
  induction bits with
  | zero => rw [bitBound_zero]; exact Nat.one_pos
  | succ bits ih => rw [bitBound_succ]; omega

end ChainClient
