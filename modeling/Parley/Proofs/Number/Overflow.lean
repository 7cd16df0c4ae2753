import Parley.Proofs.Number.Shortest

/-!
# Where binary numbers overflow

A fraction is rounded to infinity exactly from half a step above the greatest finite number on, and
so is a decimal literal.  The threshold is compared with the exact value, by cross products of whole
numbers and before anything is rounded.
-/

namespace Parley

-- Powers of natural numbers are those of the core library, whatever else is imported.
attribute [local instance (2000)] instPowNat

namespace Binary64

variable {negative : Bool} {n d m : Nat} {e : Int}

/-- The least magnitude that is rounded to infinity: half a step above the greatest finite
number. -/
def threshold : Nat := (2 ^ (54 : Nat) - 1) * 2 ^ (970 : Nat)

/-- A fraction is rounded to an even number or above exactly from half below it on; the half itself
goes to the even number. -/
theorem le_nearestQuotient_iff (positive : 0 < d) (even : m % 2 = 0) (some : 0 < m) :
    m ≤ nearestQuotient n d ↔ (2 * m - 1) * d ≤ 2 * n := by
  have rest : n % d < d := Nat.mod_lt n positive
  have double : 2 * n / d = 2 * (n / d) + 2 * (n % d) / d := by
    conv_lhs => rw [← Nat.div_add_mod n d]
    rw [Nat.mul_add, Nat.mul_left_comm, Nat.mul_add_div positive]
  rw [← Nat.le_div_iff_mul_le positive, double, nearestQuotient]
  split
  next below =>
    rw [Nat.div_eq_of_lt below]
    omega
  next =>
    have half : 2 * (n % d) / d = 1 := Nat.div_eq_of_lt_le (by omega) (by omega)
    rw [half]
    split <;> omega

theorem isFinite_ofFields {fields : Nat} :
    (ofFields negative fields).isFinite = false ↔ 2047 * 2 ^ (52 : Nat) ≤ fields := by
  rw [ofFields]
  split
  next small =>
    rw [Nat.div_lt_iff_lt_mul (Nat.two_pow_pos 52)] at small
    simpa [isFinite] using small
  next great =>
    rw [Nat.div_lt_iff_lt_mul (Nat.two_pow_pos 52)] at great
    simpa [isFinite] using great

section Scale

variable {scale : Nat} (scaled : scale = Nat.log2 (n / d) - 52)

include scaled

theorem quotient_lt : n / d < 2 ^ (53 + scale) :=
  Nat.lt_of_lt_of_le Nat.lt_log2_self (Nat.pow_le_pow_right (by decide) (by omega))

theorem le_quotient (positive : 0 < scale) : 2 ^ (52 + scale) ≤ n / d := by
  have some : n / d ≠ 0 := by
    intro none
    rw [none, Nat.log2_zero] at scaled
    omega
  rw [← Nat.le_log2 some]
  omega

/-- What is left of a number at its scale has at most 53 binary digits, or is the next power. -/
theorem nearestQuotient_le : nearestQuotient n (d * 2 ^ scale) ≤ 2 ^ (53 : Nat) := by
  have few : n / (d * 2 ^ scale) < 2 ^ (53 : Nat) := by
    rw [← Nat.div_div_eq_div_mul, Nat.div_lt_iff_lt_mul (Nat.two_pow_pos scale), ← Nat.pow_add]
    exact quotient_lt scaled
  rcases nearestQuotient_cases (n := n) (d := d * 2 ^ scale) with same | same <;> omega

theorem le_nearestQuotient (positive : 0 < scale) :
    2 ^ (52 : Nat) ≤ nearestQuotient n (d * 2 ^ scale) := by
  have many : 2 ^ (52 : Nat) ≤ n / (d * 2 ^ scale) := by
    rw [← Nat.div_div_eq_div_mul, Nat.le_div_iff_mul_le (Nat.two_pow_pos scale), ← Nat.pow_add]
    exact le_quotient scaled positive
  rcases nearestQuotient_cases (n := n) (d := d * 2 ^ scale) with same | same <;> omega

end Scale

/-- A number of units overflows from the threshold on.  Below the greatest scale there is no
overflow, above it there always is, and at the greatest scale the rounding decides. -/
theorem isFinite_ofUnits (positive : 0 < d) : (ofUnits negative n d).isFinite = false ↔
    (2 ^ (54 : Nat) - 1) * (2 ^ (2044 : Nat) * d) ≤ n := by
  obtain ⟨scale, scaled⟩ : ∃ scale, scale = Nat.log2 (n / d) - 52 := ⟨_, rfl⟩
  -- The exponent goes under a name, so that no step computes its power.
  obtain ⟨k, greatest⟩ : ∃ k, k = 2044 := ⟨_, rfl⟩
  rw [← greatest, ofUnits, isFinite_ofFields, ← scaled]
  rcases Nat.lt_trichotomy scale (k + 1) with low | top | high
  · have bound := nearestQuotient_le scaled
    have small : n < 2 ^ (53 : Nat) * (2 ^ k * d) := by
      have power : 2 ^ scale ≤ 2 ^ k := Nat.pow_le_pow_right (by decide) (by omega)
      calc n < 2 ^ (53 + scale) * d := (Nat.div_lt_iff_lt_mul positive).mp (quotient_lt scaled)
        _ = 2 ^ (53 : Nat) * (2 ^ scale * d) := by rw [Nat.pow_add, Nat.mul_assoc]
        _ ≤ 2 ^ (53 : Nat) * (2 ^ k * d) := Nat.mul_le_mul_left _ (Nat.mul_le_mul_right d power)
    constructor <;> omega
  · have doubled : d * 2 ^ scale = 2 * (2 ^ k * d) := by
      rw [top, Nat.pow_succ', Nat.mul_comm d, Nat.mul_assoc]
    have even := le_nearestQuotient_iff (n := n) (d := d * 2 ^ scale) (m := 2 ^ (53 : Nat))
      (Nat.mul_pos positive (Nat.two_pow_pos scale)) (by decide) (by decide)
    rw [doubled] at even ⊢
    constructor <;> omega
  · have bound := le_nearestQuotient scaled (by omega)
    have great : 2 ^ (54 : Nat) * (2 ^ k * d) ≤ n := by
      have power : 2 ^ k ≤ 2 ^ (scale - 2) := Nat.pow_le_pow_right (by decide) (by omega)
      have exponent : 54 + (scale - 2) = 52 + scale := by omega
      calc 2 ^ (54 : Nat) * (2 ^ k * d) ≤ 2 ^ (54 : Nat) * (2 ^ (scale - 2) * d) :=
            Nat.mul_le_mul_left _ (Nat.mul_le_mul_right d power)
        _ = 2 ^ (52 + scale) * d := by rw [← Nat.mul_assoc, ← Nat.pow_add, exponent]
        _ ≤ n := (Nat.le_div_iff_mul_le positive).mp (le_quotient scaled (by omega))
    constructor <;> omega

/-- A fraction overflows from the threshold on. -/
theorem isFinite_ofRatio (positive : 0 < d) :
    (ofRatio negative n d).isFinite = false ↔ threshold * d ≤ n := by
  obtain ⟨p, half⟩ : ∃ p, p = 2 ^ (970 : Nat) := ⟨_, rfl⟩
  obtain ⟨u, unit, some⟩ : ∃ u, u = 2 ^ (1074 : Nat) ∧ 0 < u := ⟨_, rfl, Nat.pow_pos (by decide)⟩
  have units : 2 ^ (2044 : Nat) = p * u := by
    rw [half, unit]
    decide +kernel
  have least : threshold = (2 ^ (54 : Nat) - 1) * p := by rw [threshold, half]
  have moved : (2 ^ (54 : Nat) - 1) * (p * u * d) = (2 ^ (54 : Nat) - 1) * p * d * u := by ac_rfl
  rw [ofRatio, isFinite_ofUnits positive, units, least, ← unit, moved,
    Nat.mul_le_mul_right_iff some]

section Decimal

theorem digitCount_pos : 0 < digitCount n := by
  rw [digitCount_eq]
  exact List.length_pos_iff.mpr Text.digits_ne_nil

theorem lt_pow_digitCount : n < 10 ^ digitCount n :=
  (digitCount_le digitCount_pos).mp (Nat.le_refl _)

theorem pow_digitCount_le (some : n ≠ 0) : 10 ^ (digitCount n - 1) ≤ n := by
  rcases Nat.eq_zero_or_pos (digitCount n - 1) with one | more
  · rw [one, Nat.pow_zero]
    exact Nat.pos_of_ne_zero some
  · rw [← Nat.not_lt, ← digitCount_le more]
    omega

theorem isFinite_scaled : (scaled negative d e).isFinite = false ↔
    threshold * 10 ^ (-e).toNat ≤ d * 10 ^ e.toNat := by
  cases e with
  | ofNat k =>
      have none : (-Int.ofNat k).toNat = 0 := by simp
      rw [scaled, isFinite_ofRatio (by decide), none, Nat.pow_zero]
      rfl
  | negSucc k =>
      rw [scaled, isFinite_ofRatio (Nat.pow_pos (by decide))]
      have places : (-Int.negSucc k).toNat = k + 1 := rfl
      have none : (Int.negSucc k).toNat = 0 := rfl
      rw [places, none, Nat.pow_zero, Nat.mul_one]

/-- A decimal number overflows from the threshold on. -/
theorem isFinite_ofDecimal : (ofDecimal negative d e).isFinite = false ↔
    threshold * 10 ^ (-e).toNat ≤ d * 10 ^ e.toNat := by
  have positive : 0 < threshold := by decide +kernel
  rw [ofDecimal_eq]
  split_ifs with zero great small
  · have some : 0 < threshold * 10 ^ (-e).toNat := Nat.mul_pos positive (Nat.pow_pos (by decide))
    exact iff_of_false (by simp [isFinite]) (by rw [zero, Nat.zero_mul]; omega)
  · refine iff_of_true rfl ?_
    obtain ⟨k, same⟩ : ∃ k, k = 309 := ⟨_, rfl⟩
    have bound : threshold ≤ 10 ^ k := by
      rw [same]
      decide +kernel
    calc threshold * 10 ^ (-e).toNat ≤ 10 ^ k * 10 ^ (-e).toNat := Nat.mul_le_mul_right _ bound
      _ = 10 ^ (k + (-e).toNat) := (Nat.pow_add 10 k _).symm
      _ ≤ 10 ^ (digitCount d - 1 + e.toNat) := Nat.pow_le_pow_right (by decide) (by omega)
      _ = 10 ^ (digitCount d - 1) * 10 ^ e.toNat := Nat.pow_add ..
      _ ≤ d * 10 ^ e.toNat := Nat.mul_le_mul_right _ (pow_digitCount_le zero)
  · refine iff_of_false (by simp [isFinite]) ?_
    rw [Nat.not_le]
    calc d * 10 ^ e.toNat < 10 ^ digitCount d * 10 ^ e.toNat :=
          Nat.mul_lt_mul_of_pos_right lt_pow_digitCount (Nat.pow_pos (by decide))
      _ = 10 ^ (digitCount d + e.toNat) := (Nat.pow_add ..).symm
      _ ≤ 10 ^ (-e).toNat := Nat.pow_le_pow_right (by decide) (by omega)
      _ ≤ threshold * 10 ^ (-e).toNat := Nat.le_mul_of_pos_left _ positive
  · exact isFinite_scaled

end Decimal

end Binary64

namespace Literal

variable {l : Literal}

/-- Whether the number of a literal is too great to be rounded to a finite number. -/
def Exceeds (l : Literal) : Prop :=
  let fraction := l.fraction.getD []
  let exponent := l.exponent.getD 0 - fraction.length
  Binary64.threshold * 10 ^ (-exponent).toNat ≤
    Text.number (l.whole ++ fraction) * 10 ^ exponent.toNat

theorem isFinite_toBinary : l.toBinary.isFinite = false ↔ l.Exceeds :=
  Binary64.isFinite_ofDecimal

end Literal

end Parley
