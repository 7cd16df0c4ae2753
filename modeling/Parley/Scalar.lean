import Parley.Json.Reader

/-!
# Scalars

The typed values of executors and conditions, which authors edit as free text.  `Scalar.parse`
reads such a text and `Scalar.format` writes one back.  A number in an unusual spelling, such as
`007` or `1.50`, comes back in its plain one; this is the one loss.

Both fail on a whole number with too many digits, and on nothing else.
-/

namespace Parley

/-- A typed scalar. -/
inductive Scalar where
  | null
  | bool (b : Bool)
  | int (n : Int)
  | float (x : Binary64)
  | text (s : String)
deriving DecidableEq

namespace Scalar

/-- The value of the data format that a scalar is. -/
def toJson : Scalar → Json
  | .null => .null
  | .bool b => .bool b
  | .int n => .int n
  | .float x => .float x
  | .text s => .str s

/-- The scalar that a text without a reading of its own stands for: a truth value or itself. -/
def ofWord (text : String) : Scalar :=
  if text == "true" then .bool true
  else if text == "false" then .bool false
  else .text text

/-- Reads an edited text: the null word, a finite decimal number, a truth value, or else the text
itself. -/
def parse (text : String) : Except DigitLimit Scalar :=
  if text == "null" then .ok .null
  else match Literal.read? Text.isDigit text.toList with
    | none => .ok (ofWord text)
    | some literal =>
      if literal.isWhole then
        if literal.whole.length ≤ DigitLimit.limit then .ok (.int literal.toInt)
        else .error ⟨some literal.whole.length⟩
      else
        let x := literal.toBinary
        .ok (if x.isFinite then .float x else ofWord text)

/-- The text in which a scalar is edited.  A binary number without a fractional part is written as
a whole number. -/
def format : Scalar → Except DigitLimit String
  | .null => .ok "null"
  | .bool b => .ok (if b then "true" else "false")
  | .int n => DigitLimit.write n
  | .float x =>
    match x.toInt? with
    | some n => DigitLimit.write n
    | none => .ok (NumberStyle.plain.text x)
  | .text s => .ok s

end Scalar

end Parley
