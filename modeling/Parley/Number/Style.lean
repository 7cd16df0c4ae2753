import Parley.Number.Shortest

/-!
# The text of binary numbers

The shortest digits of a number are set out in positional or in exponent form.  Which form is
taken, and how the numbers that are not finite are called, is the choice of the format that is
written; a `NumberStyle` holds these choices.
-/

namespace Parley

/-- The choices that a format makes when it writes a binary number. -/
structure NumberStyle where
  /-- The least decimal exponent that is written in positional form. -/
  least : Int := -4
  /-- The greatest decimal exponent that is written in positional form. -/
  greatest : Int := 15
  /-- The name of "not a number". -/
  nan : String
  /-- The name of positive infinity. -/
  infinity : String

namespace NumberStyle

/-- Numbers inside messages and edited fields. -/
def plain : NumberStyle where
  nan := "nan"
  infinity := "inf"

/-- Numbers in documents. -/
def document : NumberStyle where
  nan := "NaN"
  infinity := "Infinity"

/-- Numbers in project configurations. -/
def config : NumberStyle where
  nan := ".nan"
  infinity := ".inf"

/-- Digits with a point behind the first `places` of them; zeros fill what is missing on either
side, and at least one digit stands on each side of the point. -/
def positional (ds : List Char) (places : Int) : List Char :=
  if places ≤ 0 then
    ['0', '.'] ++ List.replicate (-places).toNat '0' ++ ds
  else if ds.length ≤ places then
    ds ++ List.replicate (places.toNat - ds.length) '0' ++ ['.', '0']
  else
    ds.take places.toNat ++ ['.'] ++ ds.drop places.toNat

/-- The exponent part: a mark, a sign and at least two digits. -/
def exponentPart (e : Int) : List Char :=
  let ds := Text.digits e.natAbs
  ['e', if e < 0 then '-' else '+'] ++ (if ds.length < 2 then '0' :: ds else ds)

/-- Digits with a point behind the first of them, and the exponent part. -/
def scientific (ds : List Char) (e : Int) : List Char :=
  let mantissa := match ds with
    | [d] => [d]
    | d :: ds => d :: '.' :: ds
    | [] => []
  mantissa ++ exponentPart e

/-- The text of the magnitude of a finite number. -/
def magnitude (style : NumberStyle) (x : Binary64) : List Char :=
  let (d, e) := x.shortest
  let ds := Text.digits d
  let top := e + ds.length - 1
  if style.least ≤ top ∧ top ≤ style.greatest then positional ds (top + 1)
  else scientific ds top

/-- The text of a number. -/
def text (style : NumberStyle) (x : Binary64) : String :=
  match x with
  | .nan => style.nan
  | .infinite negative => (if negative then "-" else "") ++ style.infinity
  | .finite negative _ _ => (if negative then "-" else "") ++ String.ofList (style.magnitude x)

end NumberStyle

end Parley
