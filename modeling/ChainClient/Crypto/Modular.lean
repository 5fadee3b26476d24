/-!
# `ChainClient.Crypto.Modular` — powers and inverses modulo a prime

`Fin m` carries addition and multiplication modulo `m`; this module adds the residues of numbers,
fast powers, and through them inverses and square roots for a prime modulus.

## Contents
- **Residues.** A `Modulus` is positive; `residue` is the residue of a number.
- **Powers.** `power` multiplies by squaring.
- **Prime moduli.** `inverse` is Fermat's inverse, with zero for zero; `squareRoot` is the candidate
  root for a prime of the form `4 * k + 3`.
-/

namespace ChainClient.Crypto.Modular

/-- A number to calculate modulo: any but zero. -/
class Modulus (m : Nat) : Prop where
  /-- It is positive. -/
  pos : 0 < m

variable {m : Nat} [Modulus m]

/-- The residue of a number. -/
def residue (n : Nat) : Fin m := ⟨n % m, Nat.mod_lt n Modulus.pos⟩

/-- `base` multiplied `exponent` times, modulo `m`. -/
def power (base : Fin m) (exponent : Nat) : Fin m :=
  if exponent = 0 then residue 1
  else
    let squared := power (base * base) (exponent / 2)
    if exponent % 2 = 1 then base * squared else squared
termination_by exponent
decreasing_by omega

/-- The inverse of a residue modulo a prime `m`; zero for zero. -/
def inverse (a : Fin m) : Fin m := power a (m - 2)

/-- A residue whose square is `a`, if there is one and `m` is a prime that leaves 3 modulo 4. -/
def squareRoot (a : Fin m) : Fin m := power a ((m + 1) / 4)

end ChainClient.Crypto.Modular
