import Parley.Number.Literal

/-!
# The fewest digits that read back

A binary number is written with the fewest decimal digits whose nearest binary number is the number
itself; of two such rows of digits the nearer one is taken, and of two equally near the even one.
For each count of digits only the two neighbours of the value on the decimal grid can qualify.

`Binary64.shortest` answers a pair of digits and a decimal exponent.  Should no grid up to seventeen
digits hold a point that reads back, the exact decimal value is answered, so that the pair always
reads back.
-/

namespace Parley.Binary64

-- Powers of natural numbers are those of the core library, whatever else is imported.
attribute [local instance (2000)] instPowNat

/-- Whether `n` units reach `10 ^ exponent`. -/
def reaches (n : Nat) (exponent : Int) : Bool :=
  match exponent with
  | .ofNat e => 10 ^ e * 2 ^ (1074 : Nat) ≤ n
  | .negSucc e => 2 ^ (1074 : Nat) ≤ n * 10 ^ (e + 1)

/-- The greatest exponent whose power of ten is reached by a number `n` of units that is not zero.
The first guess, from the binary logarithm, is at most one too small. -/
def decimalExponent (n : Nat) : Int :=
  let guess : Int := ((Nat.log2 n : Int) - 1074) * 30103 / 100000
  if reaches n (guess + 1) then guess + 1 else guess

/-- The value of `n` units in steps of `10 ^ exponent`, as a fraction. -/
def inSteps (n : Nat) (exponent : Int) : Nat × Nat :=
  match exponent with
  | .ofNat e => (n, 10 ^ e * 2 ^ (1074 : Nat))
  | .negSucc e => (n * 10 ^ (e + 1), 2 ^ (1074 : Nat))

/-- The point of the grid with steps of `10 ^ exponent` that reads back as the number of `n` units,
if there is one. -/
def gridPoint? (n : Nat) (exponent : Int) : Option Nat :=
  let (num, den) := inSteps n exponent
  let x := ofUnits false n 1
  let below := num / den
  let readsBack (d : Nat) : Bool := decide (ofDecimal false d exponent = x)
  match readsBack below, readsBack (below + 1) with
  | true, true => some (nearestQuotient num den)
  | true, false => some below
  | false, true => some (below + 1)
  | false, false => none

/-- Takes the zeros off the end of a row of digits. -/
def dropZeros : Nat → Nat → Int → Nat × Int
  | 0, d, e => (d, e)
  | fuel + 1, d, e => if d ≠ 0 ∧ d % 10 = 0 then dropZeros fuel (d / 10) (e + 1) else (d, e)

/-- The exact decimal value of `n` units: an even power of two is moved into the digits. -/
def exactDigits (n : Nat) : Nat × Int :=
  (n * 5 ^ (1074 : Nat), -1074)

/-- The shortest digits of the number of `n` units, `n` not zero, and their decimal exponent. -/
def shortestUnits (n : Nat) : Nat × Int :=
  let top := decimalExponent n
  let found := (List.range 17).findSome? fun (k : Nat) =>
    (gridPoint? n (top - k)).map fun d => (d, top - (k : Int))
  let (d, e) := found.getD (exactDigits n)
  dropZeros (digitCount d) d e

/-- The shortest digits of the magnitude of a number and their decimal exponent.  Zero, and what is
not finite, has the single digit zero. -/
def shortest (x : Binary64) : Nat × Int :=
  if x.units = 0 then (0, 0) else shortestUnits x.units

end Parley.Binary64
