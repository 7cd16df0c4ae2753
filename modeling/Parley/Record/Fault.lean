import Parley.Json.Basic

/-!
# Faults of records

A value that does not fit the shape a record asks for has one or more faults.  A fault says what is
wrong and where: its place is the path of field names and list positions from the value that was
read.  `Invalid` gathers the faults of one reading under the name of the shape.
-/

namespace Parley

/-- One step of a path into a value. -/
inductive Step where
  | name (key : String)
  | index (position : Nat)
deriving DecidableEq

/-- The text of a step. -/
def Step.text : Step → String
  | .name key => key
  | .index position => Text.ofNat position

/-- What is wrong with a value. -/
inductive Defect where
  | missing
  | notText
  | emptyText
  | notInteger
  | unreadableInteger
  | oversizeInteger
  | fractional
  | notFinite
  | negative
  | notNumber
  | unreadableNumber
  | notFlag
  | unreadableFlag
  | notList
  /-- Not an object, where a record of the given name is asked for. -/
  | notRecord (name : String)
  /-- Not an object, where one of several records is asked for. -/
  | notTagged
  | noTag
  /-- A tag that is none of the expected ones. -/
  | unknownTag (found : String) (expected : List String)
  /-- None of the words of an enumeration. -/
  | unknownWord (expected : List String)
  /-- None of the words that a reference allows. -/
  | unknownReference (expected : List String)
deriving DecidableEq

namespace Defect

/-- The code under which a defect is reported. -/
def code : Defect → String
  | .missing => "missing"
  | .notText => "string_type"
  | .emptyText => "string_too_short"
  | .notInteger => "int_type"
  | .unreadableInteger => "int_parsing"
  | .oversizeInteger => "int_parsing_size"
  | .fractional => "int_from_float"
  | .notFinite => "finite_number"
  | .negative => "greater_than_equal"
  | .notNumber => "float_type"
  | .unreadableNumber => "float_parsing"
  | .notFlag => "bool_type"
  | .unreadableFlag => "bool_parsing"
  | .notList => "list_type"
  | .notRecord _ => "model_type"
  | .notTagged => "model_attributes_type"
  | .noTag => "union_tag_not_found"
  | .unknownTag _ _ => "union_tag_invalid"
  | .unknownWord _ => "enum"
  | .unknownReference _ => "literal_error"

/-- The name of a tag that is none of the expected ones.  One that cannot be shown is named by its
kind. -/
def tagName (tag : Json) : String :=
  match tag.label with
  | .ok name => name
  | .error _ => "<unprintable " ++ tag.typeName ++ " object>"

/-- Words between single quotes, the last one behind an "or". -/
def choice (words : List String) : String :=
  let quote (w : String) := "'" ++ w ++ "'"
  match words.reverse with
  | [] => ""
  | [w] => quote w
  | last :: before => ", ".intercalate (before.reverse.map quote) ++ " or " ++ quote last

/-- What is reported about a defect. -/
def message : Defect → String
  | .missing => "Field required"
  | .notText => "Input should be a valid string"
  | .emptyText => "String should have at least 1 character"
  | .notInteger => "Input should be a valid integer"
  | .unreadableInteger => "Input should be a valid integer, unable to parse string as an integer"
  | .oversizeInteger => "Unable to parse input string as an integer, exceeded maximum size"
  | .fractional => "Input should be a valid integer, got a number with a fractional part"
  | .notFinite => "Input should be a finite number"
  | .negative => "Input should be greater than or equal to 0"
  | .notNumber => "Input should be a valid number"
  | .unreadableNumber => "Input should be a valid number, unable to parse string as a number"
  | .notFlag => "Input should be a valid boolean"
  | .unreadableFlag => "Input should be a valid boolean, unable to interpret input"
  | .notList => "Input should be a valid list"
  | .notRecord name => "Input should be a valid dictionary or instance of " ++ name
  | .notTagged => "Input should be a valid dictionary or object to extract fields from"
  | .noTag => "Unable to extract tag using discriminator 'type'"
  | .unknownTag found expected =>
    "Input tag '" ++ found ++ "' found using 'type' does not match any of the expected tags: " ++
      ", ".intercalate (expected.map fun w => "'" ++ w ++ "'")
  | .unknownWord expected => "Input should be " ++ choice expected
  | .unknownReference expected => "Input should be " ++ choice expected

end Defect

/-- A defect and its place. -/
structure Fault where
  defect : Defect
  place : List Step
deriving DecidableEq

namespace Fault

/-- A fault of the value that is read itself. -/
def here (defect : Defect) : Fault := ⟨defect, []⟩

/-- The fault seen from one step further out. -/
def under (step : Step) (f : Fault) : Fault := ⟨f.defect, step :: f.place⟩

/-- The steps of the place, joined by points. -/
def path (f : Fault) : String := ".".intercalate (f.place.map Step.text)

/-- The lines that a full report gives to a fault. -/
def lines (f : Fault) : List String :=
  (if f.place.isEmpty then [] else [f.path]) ++
    ["  " ++ f.defect.message ++ " [type=" ++ f.defect.code ++ "]"]

end Fault

/-- The faults of a value that was read as a shape of the given title. -/
structure Invalid where
  title : String
  faults : List Fault

namespace Invalid

/-- The first line of a report. -/
def headline (e : Invalid) : String :=
  let n := e.faults.length
  Text.ofNat n ++ " validation error" ++ (if n == 1 then "" else "s") ++ " for " ++ e.title

/-- The full report. -/
def report (e : Invalid) : String :=
  "\n".intercalate (e.headline :: e.faults.flatMap Fault.lines)

/-- The report of the first fault on one line, with the number of the others. -/
def brief (e : Invalid) : String :=
  match e.faults with
  | [] => ""
  | f :: others =>
    (if f.path.isEmpty then "document" else f.path) ++ ": " ++ f.defect.message ++
      (if others.isEmpty then "" else " (+" ++ Text.ofNat others.length ++ " more)")

end Invalid

end Parley
