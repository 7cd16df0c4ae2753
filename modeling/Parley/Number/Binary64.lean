/-!
# Binary floating point numbers

A number of the 64-bit binary format, given by its fields: a sign, an exponent field and a
fraction field, besides the two infinities and one "not a number".  Every finite number is a whole
count of the unit `2 ^ -1074`, so exact values, sums and roundings need natural numbers only.

Rounding is to the nearest number, an exact half going to the even neighbour.  `ofUnits_units`
states that a value of the format is not changed by it.
-/

namespace Parley

-- Powers of natural numbers are those of the core library, whatever else is imported.
attribute [local instance (2000)] instPowNat

/-- A 64-bit binary floating point number. -/
inductive Binary64 where
  | nan
  | infinite (negative : Bool)
  | finite (negative : Bool) (exponent : Fin 2047) (fraction : Fin (2 ^ (52 : Nat)))
deriving DecidableEq

namespace Binary64

/-- The nearest whole number to `n / d`; an exact half goes to the even neighbour. -/
def nearestQuotient (n d : Nat) : Nat :=
  let q := n / d
  let r := 2 * (n % d)
  if r < d then q
  else if d < r then q + 1
  else q + q % 2

/-- The number with a given sign whose exponent and fraction fields, read as one number, are
`fields`; an infinity where the exponent field overflows. -/
def ofFields (negative : Bool) (fields : Nat) : Binary64 :=
  if h : fields / 2 ^ (52 : Nat) < 2047 then
    .finite negative ⟨fields / 2 ^ (52 : Nat), h⟩
      ⟨fields % 2 ^ (52 : Nat), Nat.mod_lt _ (Nat.two_pow_pos 52)⟩
  else
    .infinite negative

/-- The number nearest to `n / d` units of `2 ^ -1074`. -/
def ofUnits (negative : Bool) (n d : Nat) : Binary64 :=
  let scale := Nat.log2 (n / d) - 52
  ofFields negative (scale * 2 ^ (52 : Nat) + nearestQuotient n (d * 2 ^ scale))

/-- The number nearest to the fraction `n / d`. -/
def ofRatio (negative : Bool) (n d : Nat) : Binary64 :=
  ofUnits negative (n * 2 ^ (1074 : Nat)) d

/-- The magnitude of a finite number in units of `2 ^ -1074`. -/
def fieldUnits (exponent fraction : Nat) : Nat :=
  if exponent = 0 then fraction else (2 ^ (52 : Nat) + fraction) * 2 ^ (exponent - 1)

/-- The magnitude in units of `2 ^ -1074`; zero for what is not finite. -/
def units : Binary64 → Nat
  | .finite _ e f => fieldUnits e.val f.val
  | _ => 0

/-- Whether the sign is negative. -/
def isNegative : Binary64 → Bool
  | .nan => false
  | .infinite negative => negative
  | .finite negative _ _ => negative

/-- Whether the number is neither infinite nor "not a number". -/
def isFinite : Binary64 → Bool
  | .finite _ _ _ => true
  | _ => false

/-- Positive zero. -/
def zero : Binary64 := .finite false 0 0

/-- The number nearest to an integer, or none where that is beyond the finite range. -/
def ofInt? (n : Int) : Option Binary64 :=
  let x := ofRatio (n < 0) n.natAbs 1
  if x.isFinite then some x else none

/-- The number of digits of a natural number. -/
def digitCount (n : Nat) : Nat := (Nat.repr n).length

/-- The number nearest to `± digits * 10 ^ exponent`.  Magnitudes from `10 ^ 309` on are infinite
and those below `10 ^ -324` are zero, which the first two cases decide without large powers. -/
def ofDecimal (negative : Bool) (digits : Nat) (exponent : Int) : Binary64 :=
  if digits = 0 then .finite negative 0 0
  else if 310 ≤ digitCount digits + exponent then .infinite negative
  else if digitCount digits + exponent ≤ -324 then .finite negative 0 0
  else match exponent with
    | .ofNat e => ofRatio negative (digits * 10 ^ e) 1
    | .negSucc e => ofRatio negative digits (10 ^ (e + 1))

/-- The integer that a finite number without a fractional part is. -/
def toInt? (x : Binary64) : Option Int :=
  if x.isFinite && x.units % 2 ^ (1074 : Nat) == 0 then
    let n : Int := x.units / 2 ^ (1074 : Nat)
    some (if x.isNegative then -n else n)
  else
    none

/-- The integer that is left of a finite number without its fractional part. -/
def truncate? (x : Binary64) : Option Int :=
  if x.isFinite then
    let n : Int := x.units / 2 ^ (1074 : Nat)
    some (if x.isNegative then -n else n)
  else
    none

/-- The magnitude of a finite number with its sign, in units of `2 ^ -1074`. -/
def signedUnits (x : Binary64) : Int :=
  if x.isNegative then -(x.units : Int) else x.units

/-- The sum, rounded once.  A sum that is exactly zero is negative only if both parts are. -/
def add : Binary64 → Binary64 → Binary64
  | .nan, _ => .nan
  | _, .nan => .nan
  | .infinite a, .infinite b => if a = b then .infinite a else .nan
  | .infinite a, _ => .infinite a
  | _, .infinite b => .infinite b
  | x, y =>
    let sum := x.signedUnits + y.signedUnits
    if sum = 0 then .finite (x.isNegative && y.isNegative) 0 0
    else ofUnits (sum < 0) sum.natAbs 1

instance : Add Binary64 := ⟨add⟩

/-- Whether two numbers are equal as numbers: "not a number" equals nothing, and the two zeros are
equal. -/
def sameNumber : Binary64 → Binary64 → Bool
  | .nan, _ => false
  | _, .nan => false
  | .infinite a, .infinite b => a == b
  | .infinite _, _ => false
  | _, .infinite _ => false
  | x, y => x.signedUnits == y.signedUnits

theorem nearestQuotient_mul (n : Nat) {d : Nat} (h : 0 < d) : nearestQuotient (n * d) d = n := by
  simp [nearestQuotient, Nat.mul_div_cancel n h, h]

theorem log2_scaled {m k : Nat} (low : 2 ^ (52 : Nat) ≤ m) (high : m < 2 ^ (53 : Nat)) :
    Nat.log2 (m * 2 ^ k) - 52 = k := by
  have : Nat.log2 (m * 2 ^ k) = 52 + k := by
    rw [Nat.log2_eq_iff]
    · constructor
      · rw [Nat.pow_add]; exact Nat.mul_le_mul_right _ low
      · rw [show 52 + k + 1 = 53 + k by omega, Nat.pow_add]
        exact Nat.mul_lt_mul_of_pos_right high (Nat.two_pow_pos k)
    · have : 0 < 2 ^ k := Nat.two_pow_pos k
      have : 0 < m := Nat.lt_of_lt_of_le (Nat.two_pow_pos 52) low
      exact Nat.ne_of_gt (Nat.mul_pos this ‹_›)
  omega

theorem ofFields_eq (negative : Bool) {n : Nat} {e : Fin 2047} {f : Fin (2 ^ (52 : Nat))}
    (he : n / 2 ^ (52 : Nat) = e.val) (hf : n % 2 ^ (52 : Nat) = f.val) :
    ofFields negative n = .finite negative e f := by
  have h : n / 2 ^ (52 : Nat) < 2047 := he ▸ e.isLt
  rw [ofFields, dif_pos h]
  exact congr (congrArg _ (Fin.ext he)) (Fin.ext hf)

/-- A number of the format is the one nearest to itself. -/
theorem ofUnits_units (negative : Bool) (e : Fin 2047) (f : Fin (2 ^ (52 : Nat))) :
    ofUnits negative (fieldUnits e.val f.val) 1 = .finite negative e f := by
  have hf := f.isLt
  unfold ofUnits
  apply ofFields_eq <;> rw [Nat.div_one, Nat.one_mul]
  all_goals
    by_cases h : e.val = 0
    · have hunits : fieldUnits e.val f.val = f.val := by simp [fieldUnits, h]
      have hlog : Nat.log2 f.val - 52 = 0 := by
        by_cases hz : f.val = 0
        · rw [hz]; simp [Nat.log2_zero]
        · have := (Nat.log2_lt hz (k := 52)).2 hf
          omega
      have hq := nearestQuotient_mul f.val (d := 1) (by omega)
      rw [Nat.mul_one] at hq
      rw [hunits, hlog, Nat.pow_zero, hq]
      omega
    · obtain ⟨k, hk⟩ : ∃ k, e.val = k + 1 := ⟨e.val - 1, by omega⟩
      have hunits : fieldUnits e.val f.val = (2 ^ (52 : Nat) + f.val) * 2 ^ k := by
        rw [hk]; simp [fieldUnits]
      have hlog := log2_scaled (m := 2 ^ (52 : Nat) + f.val) (k := k) (by omega) (by omega)
      rw [hunits, hlog, nearestQuotient_mul _ (Nat.two_pow_pos k)]
      omega

end Binary64

end Parley
