import Parley.Json.Basic

/-!
# Message templates

A template is a text in which a percent sign and a letter stand for the next of a row of values: `d`
and `i` for a whole number, `s` for the value as messages name it, and `r` for the value as messages
show it.  Two percent signs stand for one.  A template without values is taken as it is.
-/

namespace Parley.Log.Template

/-- Why values do not fit a template. -/
inductive Fault where
  | tooFew
  | tooMany
  /-- The template ends behind a percent sign. -/
  | cutOff
  /-- A letter at an index has no meaning. -/
  | unknownLetter (letter : Char) (index : Nat)
  /-- A value of a type that is no number stands where a letter asks for one. -/
  | notNumber (letter : Char) (type : String)
  | infinite
  | nan
  /-- A whole number has too many digits to be shown. -/
  | digits (e : DigitLimit)
deriving DecidableEq

/-- What is reported about values that do not fit. -/
def Fault.message : Fault → String
  | .tooFew => "not enough arguments for format string"
  | .tooMany => "not all arguments converted during string formatting"
  | .cutOff => "incomplete format"
  | .unknownLetter letter index =>
    "unsupported format character '" ++ letter.toString ++ "' (0x" ++
      String.ofList (Nat.toDigits 16 letter.toNat) ++ ") at index " ++ Text.ofNat index
  | .notNumber letter type =>
    "%" ++ letter.toString ++ " format: a real number is required, not " ++ type
  | .infinite => "cannot convert float infinity to integer"
  | .nan => "cannot convert float NaN to integer"
  | .digits e => e.message

/-- The whole number that a value counts as where a letter asks for one. -/
def wholeNumber (letter : Char) : Json → Except Fault Int
  | .int n => .ok n
  | .bool b => .ok (if b then 1 else 0)
  | .float .nan => .error .nan
  | .float x => (x.truncate?.map Except.ok).getD (.error .infinite)
  | v => .error (.notNumber letter v.typeName)

/-- The text that a letter at an index makes of a value. -/
def convert (letter : Char) (index : Nat) (v : Json) : Except Fault String :=
  match letter with
  | 's' => v.label.mapError .digits
  | 'r' => v.display.mapError .digits
  | 'd' => (wholeNumber letter v).bind fun n => (DigitLimit.write n).mapError .digits
  | 'i' => (wholeNumber letter v).bind fun n => (DigitLimit.write n).mapError .digits
  | _ => .error (.unknownLetter letter index)

/-- Fills values in one after the other, from an index on; `spare` says whether values may be left
over. -/
def fill (spare : Bool) (index : Nat) : List Char → List Json → Except Fault (List Char)
  | [], vs => if vs.isEmpty || spare then .ok [] else .error .tooMany
  | ['%'], _ => .error .cutOff
  | '%' :: '%' :: cs, vs => (fill spare (index + 2) cs vs).map ('%' :: ·)
  | '%' :: _ :: _, [] => .error .tooFew
  | '%' :: letter :: cs, v :: vs => do
    let s ← convert letter (index + 1) v
    pure (s.toList ++ (← fill spare (index + 2) cs vs))
  | c :: cs, vs => (fill spare (index + 1) cs vs).map (c :: ·)

/-- The message that a template makes of a row of values.  A single object need not be used. -/
def message (template : String) (values : List Json) : Except Fault String :=
  let spare := match values with
    | [.obj fields] => !fields.isEmpty
    | _ => false
  if values.isEmpty then .ok template
  else (fill spare 0 template.toList values).map String.ofList

end Parley.Log.Template
