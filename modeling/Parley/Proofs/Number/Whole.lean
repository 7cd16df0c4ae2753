import Parley.Proofs.Number.Shortest

/-!
# Whole numbers among the binary ones

A finite binary number is a whole number exactly if it is a multiple of the units that make up one,
and it has few digits then.
-/

namespace Parley.Binary64

-- Powers of natural numbers are those of the core library, whatever else is imported.
attribute [local instance (2000)] instPowNat

variable {x : Binary64} {n : Int}

/-- How many units make up one. -/
def unitsOfOne : Nat := 2 ^ (1074 : Nat)

theorem unitsOfOne_pos : 0 < unitsOfOne := by decide +kernel

theorem toInt?_eq : x.toInt? =
    if x.isFinite && x.units % unitsOfOne == 0 then
      some (if x.isNegative then -((x.units / unitsOfOne : Nat) : Int)
        else (x.units / unitsOfOne : Nat))
    else none := by
  -- The exponent goes under a name, so that no step computes its power.
  obtain ⟨k, exponent⟩ : ∃ k, k = 1074 := ⟨_, rfl⟩
  have one : unitsOfOne = 2 ^ k := by rw [unitsOfOne, exponent]
  simp only [toInt?, one, ← exponent, Int.natCast_ediv, Int.natCast_pow]
  rfl

/-- A magnitude with a sign is a multiple of another exactly if nothing is left of their division,
and the quotient has the sign. -/
theorem signed_eq_mul_iff {u m : Nat} {negative : Bool} (positive : 0 < u) :
    (if negative then -(m : Int) else m) = n * u ↔
      m % u = 0 ∧ (if negative then -((m / u : Nat) : Int) else (m / u : Nat)) = n := by
  have divides (k : Int) : (m : Int) = k * u ↔ m % u = 0 ∧ ((m / u : Nat) : Int) = k := by
    rw [Int.natCast_ediv, ← Nat.dvd_iff_mod_eq_zero, ← Int.natCast_dvd_natCast]
    have some : (u : Int) ≠ 0 := by omega
    constructor
    · intro same
      exact ⟨⟨k, by rw [same, Int.mul_comm]⟩, by rw [same, Int.mul_ediv_cancel _ some]⟩
    · rintro ⟨dvd, rfl⟩
      exact (Int.ediv_mul_cancel dvd).symm
  cases negative with
  | false => exact divides n
  | true =>
      have opposite := divides (-n)
      rw [Int.neg_mul] at opposite
      simp only [if_true]
      omega

/-- A finite number has no fractional part exactly if it is a multiple of one. -/
theorem toInt?_eq_some :
    x.toInt? = some n ↔ x.isFinite = true ∧ x.signedUnits = n * unitsOfOne := by
  rw [toInt?_eq, signedUnits, signed_eq_mul_iff unitsOfOne_pos]
  simp only [Option.ite_none_right_eq_some, Bool.and_eq_true, beq_iff_eq, Option.some.injEq,
    and_assoc]

theorem units_lt : x.units < 10 ^ (309 : Nat) * unitsOfOne := by
  have bound : 2 ^ (53 + 2045 : Nat) ≤ 10 ^ (309 : Nat) * unitsOfOne := by decide +kernel
  have positive : 0 < 10 ^ (309 : Nat) * unitsOfOne := by decide +kernel
  cases x with
  | finite negative exponent fraction =>
      exact Nat.lt_of_lt_of_le (fieldUnits_lt fraction.isLt (by omega)) bound
  | _ => exact positive

/-- A binary number that is a whole one has at most 309 digits. -/
theorem digitCount_toInt? (whole : x.toInt? = some n) : digitCount n.natAbs ≤ 309 := by
  have magnitude : n.natAbs * unitsOfOne = x.units := by
    have same := congrArg Int.natAbs (toInt?_eq_some.mp whole).2
    rw [Int.natAbs_mul, Int.natAbs_natCast] at same
    rw [← same, signedUnits]
    split <;> simp
  rw [digitCount_le (by decide)]
  refine Nat.lt_of_mul_lt_mul_right (a := unitsOfOne) ?_
  rw [magnitude]
  exact units_lt

end Parley.Binary64
