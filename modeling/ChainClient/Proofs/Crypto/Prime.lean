import ChainClient.Crypto.Secp256k1
import ChainClient.Proofs.Crypto.Modular
import Mathlib.NumberTheory.LucasPrimality
import Mathlib.Tactic.NormNum.Prime

/-!
# `ChainClient.Proofs.Crypto.Prime` — the primes of the curve

The field of the curve and the multiples of its generator have a prime number of elements each. A
number is prime if some residue has all its powers below the number, up to the last; this is checked
with the prime factors of its predecessor, which are shown to be prime in the same way.

## Contents
- **Steps.** `LucasStep` names a residue and prime factors; `LucasStep.IsValid` is the check, and
  `LucasStep.IsValid.prime` what it shows.
- **Chains.** `AreValid` checks steps that use each other, and `prime_of_areValid` is its law.
- **Curve.** `fieldPrime_prime` and `groupOrder_prime`.
-/

namespace ChainClient.Crypto

open ChainClient.Crypto.Modular

/-! ## Steps -/

/-- A step of a proof that numbers are prime. -/
structure LucasStep where
  /-- The predecessor of the number. -/
  predecessor : Nat
  /-- A residue whose powers are all residues but zero. -/
  base : Nat
  /-- The prime factors of the predecessor, as often as they divide it. -/
  factors : List Nat

namespace LucasStep

/-- The number that is shown to be prime. -/
def number (step : LucasStep) : Nat := step.predecessor + 1

instance (step : LucasStep) : Modulus step.number := ⟨Nat.succ_pos _⟩

/-- A power of the base. -/
def basePower (step : LucasStep) (exponent : Nat) : Fin step.number :=
  power (residue step.base) exponent

/-- Whether a step shows that its number is prime, once some primes are known: they are enough to
    factor the predecessor, and no power of the base is one before the last. -/
def IsValid (known : List Nat) (step : LucasStep) : Prop :=
  step.factors.prod = step.predecessor ∧ (∀ q ∈ step.factors, q ∈ known) ∧
  step.basePower step.predecessor = residue 1 ∧
  ∀ q ∈ step.factors, step.basePower (step.predecessor / q) ≠ residue 1

instance (known : List Nat) (step : LucasStep) : Decidable (step.IsValid known) :=
  inferInstanceAs (Decidable (_ ∧ _ ∧ _ ∧ _))

/-- Powers of the base, in the ring of residues. -/
theorem basePower_eq_one_iff (step : LucasStep) (exponent : Nat) :
    step.basePower exponent = residue 1 ↔ (step.base : ZMod step.number) ^ exponent = 1 := by
  rw [basePower, ← toZMod_inj, toZMod_power, toZMod_residue, toZMod_residue, Nat.cast_one]

/-- A valid step shows that its number is prime. -/
theorem IsValid.prime {known : List Nat} {step : LucasStep} (h : step.IsValid known)
    (hknown : ∀ q ∈ known, q.Prime) : step.number.Prime := by
  obtain ⟨hprod, hfactors, hone, hne⟩ := h
  have hpred : step.number - 1 = step.predecessor := rfl
  refine lucas_primality step.number step.base ?_ ?_
  · rw [hpred]
    exact (step.basePower_eq_one_iff _).mp hone
  · intro q hq hdvd
    rw [hpred] at hdvd ⊢
    -- a prime that divides the product of primes is one of them
    rw [← hprod] at hdvd
    obtain ⟨a, ha, hqa⟩ := (Nat.Prime.prime hq).dvd_prod_iff.mp hdvd
    obtain rfl := (Nat.prime_dvd_prime_iff_eq hq (hknown a (hfactors a ha))).mp hqa
    exact fun hpow => hne q ha ((step.basePower_eq_one_iff _).mpr hpow)

end LucasStep

/-! ## Chains -/

/-- Whether steps show that their numbers are prime, each with the help of those before it. -/
def AreValid : (known : List Nat) → List LucasStep → Prop
  | _, [] => True
  | known, step :: steps => step.IsValid known ∧ AreValid (step.number :: known) steps

instance decidableAreValid : (known : List Nat) → (steps : List LucasStep) →
    Decidable (AreValid known steps)
  | _, [] => inferInstanceAs (Decidable True)
  | known, step :: steps =>
    have := decidableAreValid (step.number :: known) steps
    inferInstanceAs (Decidable (_ ∧ _))

/-- The numbers of valid steps are prime. -/
theorem prime_of_areValid {known : List Nat} {steps : List LucasStep} (h : AreValid known steps)
    (hknown : ∀ q ∈ known, q.Prime) {step : LucasStep} (hstep : step ∈ steps) :
    step.number.Prime := by
  induction steps generalizing known with
  | nil => cases hstep
  | cons first steps ih =>
    obtain ⟨hfirst, hrest⟩ := h
    have hprime := hfirst.prime hknown
    rcases List.mem_cons.mp hstep with rfl | hstep
    · exact hprime
    · exact ih hrest (List.forall_mem_cons.mpr ⟨hprime, hknown⟩) hstep

/-! ## Curve -/

namespace Secp256k1

/-- The primes that are small enough to be found by trial. -/
def smallPrimes : List Nat :=
  [2, 3, 5, 7, 11, 17, 19, 29, 31, 41, 53, 59, 97, 109, 113, 149, 293, 461, 631, 797, 971, 1373,
    1627, 1871, 2011, 2621, 2657, 2731, 4051, 4423, 5323, 7723, 9349, 13441, 16699, 20113, 24809,
    28181, 41201, 85831, 96557]

theorem prime_of_mem_smallPrimes : ∀ q ∈ smallPrimes, q.Prime := by
  simp only [smallPrimes, List.forall_mem_cons]
  norm_num

/-- The steps for the size of the field, which is the number of the tenth, and for the order of the
    generator, the number of the last. -/
def primeSteps : List LucasStep := [
  ⟨13331830, 13, [2, 5, 971, 1373]⟩,
  ⟨173378833005251800, 6, [2, 2, 2, 5, 5, 2621, 24809, 13331831]⟩,
  ⟨22149492674086928081352, 5, [2, 2, 2, 3, 5323, 173378833005251801]⟩,
  ⟨132896956044521568488118, 6, [2, 3, 22149492674086928081353]⟩,
  ⟨1206780, 10, [2, 2, 3, 5, 20113]⟩,
  ⟨7240686, 3, [2, 3, 1206781]⟩,
  ⟨107590000, 3, [2, 2, 2, 2, 5, 5, 5, 5, 7, 29, 53]⟩,
  ⟨255515944373312847190720520512484175976, 3,
    [2, 2, 2, 7, 7, 11, 1627, 2657, 4423, 41201, 96557, 7240687, 107590001]⟩,
  ⟨205115282021455665897114700593932402728804164701536103180137503955397370, 10,
    [2, 3, 5, 29, 29, 31, 7723, 132896956044521568488119,
      255515944373312847190720520512484175977]⟩,
  ⟨115792089237316195423570985008687907853269984665640564039457584007908834671662, 3,
    [2, 3, 7, 13441,
      205115282021455665897114700593932402728804164701536103180137503955397371]⟩,
  ⟨4681608, 23, [2, 2, 2, 3, 97, 2011]⟩,
  ⟨107361793816595536, 3, [2, 2, 2, 2, 16699, 85831, 4681609]⟩,
  ⟨120232, 3, [2, 2, 2, 7, 19, 113]⟩,
  ⟨44706918, 6, [2, 3, 797, 9349]⟩,
  ⟨174723607534414371448, 3, [2, 2, 2, 17, 59, 4051, 120233, 44706919]⟩,
  ⟨305872, 3, [2, 2, 2, 2, 7, 2731]⟩,
  ⟨545358712, 5, [2, 2, 2, 41, 59, 28181]⟩,
  ⟨1627770, 3, [2, 3, 5, 29, 1871]⟩,
  ⟨297159362676, 2, [2, 2, 3, 3, 11, 461, 1627771]⟩,
  ⟨29047611873442575647497758178, 2, [2, 293, 305873, 545358713, 297159362677]⟩,
  ⟨341948486974166000522343609283188, 2,
    [2, 2, 3, 3, 3, 109, 29047611873442575647497758179]⟩,
  ⟨115792089237316195423570985008687907852837564279074904382605163141518161494336, 7,
    [2, 2, 2, 2, 2, 2, 3, 149, 631, 107361793816595537, 174723607534414371449,
      341948486974166000522343609283189]⟩]

theorem areValid_primeSteps : AreValid smallPrimes primeSteps := by decide +kernel

theorem prime_of_mem_primeSteps {p : Nat} (h : p ∈ primeSteps.map LucasStep.number) : p.Prime := by
  obtain ⟨step, hstep, rfl⟩ := List.mem_map.mp h
  exact prime_of_areValid areValid_primeSteps prime_of_mem_smallPrimes hstep

theorem fieldPrime_prime : fieldPrime.Prime := prime_of_mem_primeSteps (by decide)

theorem groupOrder_prime : groupOrder.Prime := prime_of_mem_primeSteps (by decide)

instance : Fact fieldPrime.Prime := ⟨fieldPrime_prime⟩

instance : Fact groupOrder.Prime := ⟨groupOrder_prime⟩

end Secp256k1

end ChainClient.Crypto
