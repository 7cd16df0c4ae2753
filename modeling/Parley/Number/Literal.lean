import Parley.Number.Binary64
import Parley.Text.Blank
import Parley.Text.Digits

/-!
# Decimal literals

The text of a number: a sign, digits with at most one point among or before them, and an exponent.
`Literal.read?` takes a whole text or nothing, so a literal is never a part of a longer word.
The class of digits is a parameter; points, signs and the exponent mark are ASCII.

`spelledNumber?` also takes the names of the numbers that are not finite, and `readNumber?` is the
generous reading, which allows white space around the number and single underscores between its
digits.  A whole number in a text has no more digits than `DigitLimit` allows.
-/

namespace Parley

/-- A decimal literal: its parts as they were written. -/
structure Literal where
  /-- Whether it has a minus sign. -/
  negative : Bool
  /-- The digits before the point. -/
  whole : List Char
  /-- The digits behind the point, where there is a point. -/
  fraction : Option (List Char)
  /-- The number behind the exponent mark, where there is one. -/
  exponent : Option Int

namespace Literal

/-- Takes a sign off the front of a text; the flag says that it is a minus sign. -/
def takeSign : List Char → Bool × List Char
  | '-' :: cs => (true, cs)
  | '+' :: cs => (false, cs)
  | cs => (false, cs)

/-- Reads the exponent part, which has to reach to the end of the text. -/
def readExponent? (digit : Char → Bool) : List Char → Option (Option Int)
  | [] => some none
  | c :: cs =>
    if c == 'e' || c == 'E' then
      let (negative, ds) := takeSign cs
      if !ds.isEmpty && ds.all digit then
        let n : Int := Text.number ds
        some (some (if negative then -n else n))
      else none
    else none

/-- Reads the digits behind the point and the exponent part. -/
def readFraction? (digit : Char → Bool) (negative : Bool) (whole cs : List Char) :
    Option Literal :=
  let (fraction, rest) := Text.span digit cs
  if whole.isEmpty && fraction.isEmpty then none
  else (readExponent? digit rest).map (⟨negative, whole, some fraction, ·⟩)

/-- Reads a text that is a decimal literal from end to end, in digits of a given class. -/
def read? (digit : Char → Bool) (cs : List Char) : Option Literal :=
  let (negative, cs) := takeSign cs
  let (whole, rest) := Text.span digit cs
  match rest with
  | '.' :: rest => readFraction? digit negative whole rest
  | rest =>
    if whole.isEmpty then none
    else (readExponent? digit rest).map (⟨negative, whole, none, ·⟩)

/-- A literal with neither a point nor an exponent. -/
def isWhole (l : Literal) : Bool := l.fraction.isNone && l.exponent.isNone

/-- The number of a literal with neither a point nor an exponent. -/
def toInt (l : Literal) : Int :=
  let n : Int := Text.number l.whole
  if l.negative then -n else n

/-- The binary number nearest to a literal. -/
def toBinary (l : Literal) : Binary64 :=
  let fraction := l.fraction.getD []
  Binary64.ofDecimal l.negative (Text.number (l.whole ++ fraction))
    (l.exponent.getD 0 - fraction.length)

end Literal

namespace Text

/-- Drops single underscores that stand between two digits; none where one stands elsewhere. -/
def joinDigits? (digit : Char → Bool) : List Char → Option (List Char)
  | [] => some []
  | c :: cs =>
    if c == '_' then none
    else match cs with
      | '_' :: d :: rest =>
        if digit c && digit d then (joinDigits? digit (d :: rest)).map (c :: ·) else none
      | cs => (joinDigits? digit cs).map (c :: ·)

/-- Drops the underscores of a text that has some, but none at an end and no two in a row. -/
def dropUnderscores? (cs : List Char) : Option (List Char) :=
  if cs.contains '_' && cs.head? != some '_' && cs.getLast? != some '_' &&
      !(cs.zip cs.tail).contains ('_', '_') then
    some (cs.filter (· != '_'))
  else none

end Text

/-- The magnitudes that are written as names, in any case. -/
def namedNumber? (negative : Bool) (cs : List Char) : Option Binary64 :=
  match String.ofList (cs.map Char.toLower) with
  | "nan" => some .nan
  | "inf" => some (.infinite negative)
  | "infinity" => some (.infinite negative)
  | _ => none

/-- Reads a text that is a number from end to end: a literal, or the name of a number that is not
finite. -/
def spelledNumber? (digit : Char → Bool) (cs : List Char) : Option Binary64 :=
  let (negative, magnitude) := Literal.takeSign cs
  match namedNumber? negative magnitude with
  | some x => some x
  | none => (Literal.read? digit cs).map Literal.toBinary

/-- Reads a number generously: white space around it and underscores between its digits are
allowed. -/
def readNumber? (digit : Char → Bool) (cs : List Char) : Option Binary64 :=
  (Text.joinDigits? digit (Text.trim Text.isBlank cs)).bind (spelledNumber? digit)

/-- A whole number has more digits than are read or written. -/
structure DigitLimit where
  /-- The number of digits, where the text has been seen. -/
  digits : Option Nat
deriving DecidableEq

namespace DigitLimit

/-- The greatest number of digits of a whole number in a text. -/
def limit : Nat := 4300

/-- What is reported about the number. -/
def message (e : DigitLimit) : String :=
  let found := match e.digits with
    | some n => ": value has " ++ Text.ofNat n ++ " digits"
    | none => ""
  "Exceeds the limit (4300 digits) for integer string conversion" ++ found ++
    "; use sys.set_int_max_str_digits() to increase the limit"

/-- The text of an integer, unless it has too many digits. -/
def write (n : Int) : Except DigitLimit String :=
  if Binary64.digitCount n.natAbs ≤ limit then .ok (Text.ofInt n) else .error ⟨none⟩

end DigitLimit

end Parley
