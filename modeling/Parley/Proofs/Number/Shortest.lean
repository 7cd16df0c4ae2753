import Mathlib.Data.List.Basic
import Parley.Number.Shortest
import Parley.Proofs.Text.Digits

/-!
# The shortest digits read back

Rounding a fraction does not depend on how it is reduced, so zeros may be moved between the digits
and the exponent of a decimal number.  A point of a decimal grid is only taken if it reads back, and
the exact value, which is taken otherwise, is not changed by rounding: whichever digits are found,
they read back.
-/

namespace Parley.Binary64

-- Powers of natural numbers are those of the core library, whatever else is imported.
attribute [local instance (2000)] instPowNat

variable {negative : Bool} {n d c k : Nat} {e : Int}

section Reduction

theorem nearestQuotient_mul_mul (positive : 0 < c) :
    nearestQuotient (n * c) (d * c) = nearestQuotient n d := by
  have smaller {a b : Nat} : 2 * (a * c) < b * c ↔ 2 * a < b := by
    rw [← Nat.mul_assoc, Nat.mul_lt_mul_right positive]
  have greater {a b : Nat} : b * c < 2 * (a * c) ↔ b < 2 * a := by
    rw [← Nat.mul_assoc, Nat.mul_lt_mul_right positive]
  simp only [nearestQuotient, Nat.mul_div_mul_right _ _ positive, Nat.mul_mod_mul_right, smaller,
    greater]

/-- The nearest whole number is one of the two neighbours. -/
theorem nearestQuotient_cases :
    nearestQuotient n d = n / d ∨ nearestQuotient n d = n / d + 1 := by
  simp only [nearestQuotient]
  split
  next => exact .inl rfl
  next =>
    split
    next => exact .inr rfl
    next => omega

variable (negative) in
theorem ofUnits_mul_mul (positive : 0 < c) :
    ofUnits negative (n * c) (d * c) = ofUnits negative n d := by
  simp only [ofUnits, Nat.mul_div_mul_right _ _ positive, Nat.mul_right_comm d c,
    nearestQuotient_mul_mul positive]

variable (negative) in
/-- Rounding a fraction does not depend on a common factor. -/
theorem ofRatio_mul_mul (positive : 0 < c) :
    ofRatio negative (n * c) (d * c) = ofRatio negative n d := by
  rw [ofRatio, Nat.mul_right_comm, ofUnits_mul_mul _ positive, ofRatio]

end Reduction

section Decimal

theorem digitCount_eq : digitCount n = (Text.digits n).length := by
  rw [digitCount, Nat.repr_eq_ofList_toDigits, String.length_ofList]
  rfl

theorem digitCount_mul_ten (positive : 0 < n) : digitCount (n * 10) = digitCount n + 1 := by
  simp [digitCount_eq, Text.digits_mul_ten positive]

theorem digitCount_le (positive : 0 < k) : digitCount n ≤ k ↔ n < 10 ^ k := by
  rw [digitCount_eq]
  exact Nat.length_toDigits_le_iff (by decide) positive

/-- A row of digits that is not too long spells a number that is not too long. -/
theorem digitCount_number {ds : List Char} (fits : ds.length ≤ k) (positive : 0 < k) :
    digitCount (Text.number ds) ≤ k := by
  rw [digitCount_le positive]
  exact Nat.lt_of_lt_of_le Text.number_lt (Nat.pow_le_pow_right (by decide) fits)

/-- The number nearest to a decimal number that is neither too great nor too small. -/
def scaled (negative : Bool) (d : Nat) : Int → Binary64
  | .ofNat m => ofRatio negative (d * 10 ^ m) 1
  | .negSucc m => ofRatio negative d (10 ^ (m + 1))

theorem ofDecimal_eq : ofDecimal negative d e =
    if d = 0 then .finite negative 0 0
    else if 310 ≤ digitCount d + e then .infinite negative
    else if digitCount d + e ≤ -324 then .finite negative 0 0
    else scaled negative d e := by
  cases e <;> rfl

theorem ofDecimal_of_moderate (some : d ≠ 0) (upper : digitCount d + e < 310)
    (lower : -324 < digitCount d + e) : ofDecimal negative d e = scaled negative d e := by
  rw [ofDecimal_eq, if_neg some, if_neg (by omega), if_neg (by omega)]

@[simp] theorem ofDecimal_zero : ofDecimal negative 0 e = .finite negative 0 0 := by
  simp [ofDecimal_eq]

theorem scaled_mul_ten : scaled negative (d * 10) e = scaled negative d (e + 1) := by
  match e with
  | .ofNat m =>
      have next : Int.ofNat m + 1 = .ofNat (m + 1) := rfl
      rw [next, scaled, scaled, Nat.pow_succ', Nat.mul_assoc]
  | .negSucc 0 =>
      have next : Int.negSucc 0 + 1 = .ofNat 0 := rfl
      have tenth := ofRatio_mul_mul negative (n := d) (d := 1) (c := 10) (by decide)
      rw [next, scaled, scaled, Nat.pow_zero, Nat.mul_one]
      simpa using tenth
  | .negSucc (m + 1) =>
      have next : Int.negSucc (m + 1) + 1 = .negSucc m := rfl
      rw [next, scaled, scaled, Nat.pow_succ (n := 10) (m := m + 1)]
      exact ofRatio_mul_mul _ (by decide)

/-- A zero at the end of the digits counts like one more in the exponent. -/
theorem ofDecimal_mul_ten : ofDecimal negative (d * 10) e = ofDecimal negative d (e + 1) := by
  rcases Nat.eq_zero_or_pos d with rfl | positive
  · simp
  · have count : (digitCount (d * 10) : Int) + e = digitCount d + (e + 1) := by
      rw [digitCount_mul_ten positive]
      omega
    have tenfold : ¬ d * 10 = 0 := by omega
    rw [ofDecimal_eq, ofDecimal_eq, count, if_neg tenfold, if_neg (Nat.ne_of_gt positive),
      scaled_mul_ten]

/-- Zeros at the end of the digits count like as many more in the exponent. -/
theorem ofDecimal_mul_pow : ofDecimal negative (d * 10 ^ k) e = ofDecimal negative d (e + k) := by
  induction k generalizing d e with
  | zero => simp
  | succ k ih =>
      rw [Nat.pow_succ', ← Nat.mul_assoc, ih, ofDecimal_mul_ten]
      congr 1
      omega

/-- The same number with a sign. -/
def signed (negative : Bool) : Binary64 → Binary64
  | .nan => .nan
  | .infinite _ => .infinite negative
  | .finite _ exponent fraction => .finite negative exponent fraction

theorem ofRatio_signed : ofRatio negative n d = (ofRatio false n d).signed negative := by
  simp only [ofRatio, ofUnits, ofFields]
  split <;> rfl

theorem ofDecimal_signed : ofDecimal negative d e = (ofDecimal false d e).signed negative := by
  have ratio : scaled negative d e = (scaled false d e).signed negative := by
    cases e <;> exact ofRatio_signed
  simp only [ofDecimal_eq, ratio]
  split_ifs <;> rfl

end Decimal

section Digits

/-- Leaving out zeros at the end changes nothing. -/
theorem ofDecimal_dropZeros {fuel : Nat} :
    ofDecimal negative (dropZeros fuel d e).1 (dropZeros fuel d e).2 = ofDecimal negative d e := by
  induction fuel generalizing d e with
  | zero => rfl
  | succ fuel ih =>
      rw [dropZeros]
      split
      next zero =>
        have tenfold : d / 10 * 10 = d := by omega
        rw [ih, ← ofDecimal_mul_ten, tenfold]
      next => rfl

/-- A point that is found on a grid reads back. -/
theorem ofDecimal_of_gridPoint (found : gridPoint? n e = some d) :
    ofDecimal false d e = ofUnits false n 1 := by
  rcases steps : inSteps n e with ⟨num, den⟩
  simp only [gridPoint?, steps] at found
  split at found
  next below above =>
    obtain rfl : nearestQuotient num den = d := by simpa using found
    rcases nearestQuotient_cases (n := num) (d := den) with same | same
    · simpa [same] using below
    · simpa [same] using above
  next below _ =>
    obtain rfl : num / den = d := by simpa using found
    simpa using below
  next _ above =>
    obtain rfl : num / den + 1 = d := by simpa using found
    simpa using above
  next => cases found

theorem fieldUnits_lt {exponent fraction : Nat} (low : fraction < 2 ^ (52 : Nat))
    (high : exponent ≤ k + 1) : fieldUnits exponent fraction < 2 ^ (53 + k) := by
  rw [fieldUnits]
  split
  next => exact Nat.lt_of_lt_of_le low (Nat.pow_le_pow_right (by decide) (by omega))
  next =>
    calc (2 ^ (52 : Nat) + fraction) * 2 ^ (exponent - 1)
        < 2 ^ (53 : Nat) * 2 ^ (exponent - 1) :=
          Nat.mul_lt_mul_of_pos_right (by omega) (Nat.two_pow_pos _)
      _ = 2 ^ (53 + (exponent - 1)) := (Nat.pow_add 2 53 _).symm
      _ ≤ 2 ^ (53 + k) := Nat.pow_le_pow_right (by decide) (by omega)

variable (negative) in
/-- Units of a negative power of two, as a decimal number with as many places. -/
theorem ofUnits_exact :
    ofUnits negative (n * 5 ^ k * 2 ^ k) (10 ^ k) = ofUnits negative n 1 := by
  have whole : n * 5 ^ k * 2 ^ k = n * 10 ^ k := by rw [Nat.mul_assoc, ← Nat.mul_pow]
  have positive : 0 < 10 ^ k := Nat.pow_pos (by decide)
  have reduced := ofUnits_mul_mul negative (n := n) (d := 1) positive
  rw [whole, ← reduced, Nat.one_mul]

theorem digitCount_exact (positive : 0 < n) (bounded : n < 2 ^ (53 + 2045 : Nat)) :
    750 < digitCount (n * 5 ^ (1074 : Nat)) ∧ digitCount (n * 5 ^ (1074 : Nat)) ≤ 1383 := by
  have power (k : Nat) : 0 < 5 ^ k := Nat.pow_pos (by decide)
  have lower : 10 ^ (750 : Nat) ≤ 5 ^ (1074 : Nat) := by decide +kernel
  have upper : 2 ^ (53 + 2045 : Nat) * 5 ^ (1074 : Nat) ≤ 10 ^ (1383 : Nat) := by decide +kernel
  constructor
  · rw [← Nat.not_le, digitCount_le (by decide), Nat.not_lt]
    exact Nat.le_trans lower (Nat.le_mul_of_pos_left _ positive)
  · rw [digitCount_le (by decide)]
    exact Nat.lt_of_lt_of_le (Nat.mul_lt_mul_of_pos_right bounded (power 1074)) upper

/-- The exact value reads back. -/
theorem ofDecimal_exactDigits (positive : 0 < n) (bounded : n < 2 ^ (53 + 2045 : Nat)) :
    ofDecimal negative (exactDigits n).1 (exactDigits n).2 = ofUnits negative n 1 := by
  have form : exactDigits n = (n * 5 ^ (1074 : Nat), .negSucc 1073) := rfl
  obtain ⟨lower, upper⟩ := digitCount_exact positive bounded
  have power (k : Nat) : n * 5 ^ k ≠ 0 := Nat.mul_ne_zero (Nat.ne_of_gt positive) (by simp)
  have units := ofUnits_exact negative (n := n) (k := 1074)
  have unit : Int.negSucc 1073 = -1074 := rfl
  have places : 1073 + 1 = 1074 := rfl
  rw [form, ofDecimal_of_moderate (power 1074) (by dsimp only; omega) (by dsimp only; omega),
    scaled, ofRatio, places, units]

theorem ofDecimal_shortestUnits (positive : 0 < n) (bounded : n < 2 ^ (53 + 2045 : Nat)) :
    ofDecimal false (shortestUnits n).1 (shortestUnits n).2 = ofUnits false n 1 := by
  simp only [shortestUnits]
  rw [ofDecimal_dropZeros]
  cases found : (List.range 17).findSome? fun (k : Nat) =>
      (gridPoint? n (decimalExponent n - k)).map fun d => (d, decimalExponent n - (k : Int)) with
  | none => exact ofDecimal_exactDigits positive bounded
  | some pair =>
      obtain ⟨k, -, point⟩ := List.exists_of_findSome?_eq_some found
      obtain ⟨d, here, rfl⟩ := Option.map_eq_some_iff.mp point
      exact ofDecimal_of_gridPoint here

/-- The shortest digits of a number read back, with its sign. -/
theorem ofDecimal_shortest (exponent : Fin 2047) (fraction : Fin (2 ^ (52 : Nat))) :
    let x := finite negative exponent fraction
    ofDecimal negative x.shortest.1 x.shortest.2 = x := by
  intro x
  have units : x.units = fieldUnits exponent.val fraction.val := rfl
  have bounded : x.units < 2 ^ (53 + 2045 : Nat) := by
    rw [units]
    exact fieldUnits_lt (k := 2045) fraction.isLt (by omega)
  have itself : (ofUnits false x.units 1).signed negative = x := by
    rw [units, ofUnits_units]
    rfl
  rw [shortest]
  split
  next none =>
    have zero : ofUnits false 0 1 = .finite false 0 0 := by decide +kernel
    rw [none, zero] at itself
    exact ofDecimal_zero.trans itself
  next some =>
    rw [ofDecimal_signed, ofDecimal_shortestUnits (Nat.pos_of_ne_zero some) bounded, itself]

/-- There is no digit but for zero. -/
theorem shortest_pos (exponent : Fin 2047) (fraction : Fin (2 ^ (52 : Nat))) :
    let x := finite negative exponent fraction
    x.units ≠ 0 → 0 < x.shortest.1 := by
  intro x some
  refine Nat.pos_of_ne_zero fun none => some ?_
  have back : ofDecimal negative x.shortest.1 x.shortest.2 = x := ofDecimal_shortest ..
  rw [none, ofDecimal_zero] at back
  rw [← back]
  rfl

end Digits

end Parley.Binary64
