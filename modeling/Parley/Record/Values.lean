import Parley.Record.Checked
import Parley.Scalar

/-!
# Reading single values

The readers of the values that records hold.  They are generous: a whole number may come as a
binary number without a fractional part or as a text, a truth value as a word, and so on.  A value
that needs no such conversion is taken as it is.
-/

namespace Parley

/-- A number that keeps whether it is whole. -/
inductive Quantity where
  | whole (n : Int)
  | binary (x : Binary64)
deriving DecidableEq

/-- The value of the data format that a quantity is. -/
def Quantity.toJson : Quantity → Json
  | .whole n => .int n
  | .binary x => .float x

namespace Checked

/-- Reads a text. -/
def text : Json → Checked String
  | .str s => .ok s
  | _ => fault .notText

/-- Reads a text of at least one character. -/
def nonemptyText : Json → Checked String
  | .str s => if s.isEmpty then fault .emptyText else .ok s
  | _ => fault .notText

/-- The integers of 64 bits. -/
def fitsWord (n : Int) : Bool :=
  decide (Int64.minValue.toInt ≤ n ∧ n ≤ Int64.maxValue.toInt)

/-- A text without the point at which a fractional part of zeros begins. -/
def dropZeros (cs : List Char) : List Char :=
  let (whole, fraction) := Text.span (· != '.') cs
  if 1 < fraction.length && (fraction.drop 1).all (· == '0') then whole else cs

/-- The integer that a text spells: a sign and digits, with single underscores inside, and at most a
point behind which there are only zeros. -/
def spelledInteger? (cs : List Char) : Option Int :=
  let cs := dropZeros cs
  let (negative, ds) := Literal.takeSign ((Text.dropUnderscores? cs).getD cs)
  if !ds.isEmpty && ds.all Text.isAsciiDigit then
    let n : Int := Text.number ds
    some (if negative then -n else n)
  else none

/-- The binary number that a text spells: a number with white space around it, or one without white
space and with single underscores inside, wherever they stand. -/
def spelledBinary? (cs : List Char) : Option Binary64 :=
  (spelledNumber? Text.isAsciiDigit (Text.trim Text.isSpace cs)).or
    ((Text.dropUnderscores? cs).bind (spelledNumber? Text.isAsciiDigit))

/-- Reads a whole number. -/
def integer : Json → Checked Int
  | .int n => .ok n
  | .bool b => .ok (if b then 1 else 0)
  | .float x =>
    if !x.isFinite then fault .notFinite
    else match x.toInt? with
      | some n => if fitsWord n then .ok n else fault .oversizeInteger
      | none => fault .fractional
  | .str s =>
    if DigitLimit.limit < s.utf8ByteSize then fault .oversizeInteger
    else match spelledInteger? (Text.trim Text.isSpace s.toList) with
      | some n => .ok n
      | none => fault .unreadableInteger
  | _ => fault .notInteger

/-- Reads a whole number that is not negative. -/
def natural (v : Json) : Checked Nat :=
  (integer v).andThen fun n => if n < 0 then fault .negative else .ok n.toNat

/-- Reads a binary number. -/
def number : Json → Checked Binary64
  | .float x => .ok x
  | .int n =>
    match Binary64.ofInt? n with
    | some x => .ok x
    | none => fault .notNumber
  | .bool b => .ok (if b then Binary64.ofDecimal false 1 0 else .zero)
  | .str s =>
    match spelledBinary? s.toList with
    | some x => .ok x
    | none => fault .unreadableNumber
  | _ => fault .notNumber

/-- The truth value that a word stands for. -/
def spelledFlag? (s : String) : Option Bool :=
  match s.map Char.toLower with
  | "0" | "off" | "f" | "false" | "n" | "no" => some false
  | "1" | "on" | "t" | "true" | "y" | "yes" => some true
  | _ => none

/-- The truth value that a whole number counts as. -/
def numberedFlag (n : Int) : Checked Bool :=
  if n == 0 then .ok false
  else if n == 1 then .ok true
  else if fitsWord n then fault .unreadableFlag
  else fault .notFlag

/-- Reads a truth value. -/
def flag : Json → Checked Bool
  | .bool b => .ok b
  | .int n => numberedFlag n
  | .float x => (x.toInt?.map numberedFlag).getD (fault .notFlag)
  | .str s =>
    match spelledFlag? s with
    | some b => .ok b
    | none => fault .unreadableFlag
  | _ => fault .notFlag

/-- Reads a scalar.  Every value is one but lists and objects, which have a fault for each kind of
scalar that they are not. -/
def scalar : Json → Checked Scalar
  | .null => .ok .null
  | .bool b => .ok (.bool b)
  | .int n => .ok (.int n)
  | .float x => .ok (.float x)
  | .str s => .ok (.text s)
  | v => .faults ((integer v).faultsUnder "int" ++ (number v).faultsUnder "float" ++
      (flag v).faultsUnder "bool" ++ (text v).faultsUnder "str")

/-- Reads a whole or binary number, whole where the value is or spells a whole number. -/
def quantity : Json → Checked Quantity
  | .int n => .ok (.whole n)
  | .float x => .ok (.binary x)
  | v =>
    match integer v, number v with
    | .ok n, _ => .ok (.whole n)
    | _, .ok x => .ok (.binary x)
    | _, _ => .faults ((integer v).faultsUnder "int" ++ (number v).faultsUnder "float")

/-- Reads one of the words of an enumeration. -/
def word {α : Type} (words : List (String × α)) (v : Json) : Checked α :=
  match v with
  | .str s =>
    match words.lookup s with
    | some a => .ok a
    | none => fault (.unknownWord (words.map (·.1)))
  | _ => fault (.unknownWord (words.map (·.1)))

end Checked

end Parley
