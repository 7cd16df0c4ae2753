import Parley.Json.Basic

/-!
# Values of configurations

A configuration is written in YAML.  Its values are those of the data format, but that keys need not
be texts, and that a number which was read keeps its spelling where the plain one differs, so that a
setting that nobody changes is written as it was.  `toJson` forgets all of that.
-/

namespace Parley

/-- Where a list or map comes from. -/
inductive Origin where
  /-- The program made it. -/
  | program
  /-- It was read with its parts on lines of their own. -/
  | lines
  /-- It was read between brackets. -/
  | brackets
deriving DecidableEq

/-- A value of a configuration. -/
inductive Yaml where
  | null
  | bool (b : Bool)
  | int (n : Int) (spelling : Option String)
  | float (x : Binary64) (spelling : Option String)
  | text (s : String)
  | list (origin : Origin) (items : List Yaml)
  | map (origin : Origin) (entries : List (Yaml × Yaml))

namespace Yaml

instance : Inhabited Yaml := ⟨.null⟩

/-- A whole number in its plain spelling. -/
def ofInt (n : Int) : Yaml := .int n none

mutual

/-- The value of a configuration that a JSON value is. -/
def ofJson : Json → Yaml
  | .null => .null
  | .bool b => .bool b
  | .int n => .int n none
  | .float x => .float x none
  | .str s => .text s
  | .arr items => .list .program (ofItems items)
  | .obj fields => .map .program (ofFields fields)

/-- The values that the items of an array are. -/
def ofItems : List Json → List Yaml
  | [] => []
  | v :: vs => ofJson v :: ofItems vs

/-- The entries that the fields of an object are. -/
def ofFields : List (String × Json) → List (Yaml × Yaml)
  | [] => []
  | (k, v) :: fields => (.text k, ofJson v) :: ofFields fields

end

mutual

/-- The form in which messages show a value. -/
def display : Yaml → Except DigitLimit String
  | .null => Json.null.display
  | .bool b => (Json.bool b).display
  | .int n _ => (Json.int n).display
  | .float x _ => (Json.float x).display
  | .text s => (Json.str s).display
  | .list _ items => do pure ("[" ++ ", ".intercalate (← displayItems items) ++ "]")
  | .map .program entries => do
    pure ("\x7b" ++ ", ".intercalate (← displayEntries entries) ++ "\x7d")
  | .map _ entries => do
    pure ("ordereddict([" ++ ", ".intercalate (← displayPairs entries) ++ "])")

/-- The displayed items of a list. -/
def displayItems : List Yaml → Except DigitLimit (List String)
  | [] => .ok []
  | v :: vs => do pure ((← display v) :: (← displayItems vs))

/-- The displayed entries of a map that the program made. -/
def displayEntries : List (Yaml × Yaml) → Except DigitLimit (List String)
  | [] => .ok []
  | (k, v) :: entries => do
    pure (((← display k) ++ ": " ++ (← display v)) :: (← displayEntries entries))

/-- The displayed entries of a map that was read, as pairs. -/
def displayPairs : List (Yaml × Yaml) → Except DigitLimit (List String)
  | [] => .ok []
  | (k, v) :: entries => do
    pure (("(" ++ (← display k) ++ ", " ++ (← display v) ++ ")") :: (← displayPairs entries))

end

/-- The form in which messages name a value: a text stands for itself. -/
def label : Yaml → Except DigitLimit String
  | .text s => .ok s
  | v => v.display

/-- The text that stands for a key where only texts are keys. -/
def keyText (k : Yaml) : String :=
  match k.label with
  | .ok s => s
  | .error e => e.message

mutual

/-- The JSON value that is left when the spelling is forgotten.  A key becomes the text that names
it. -/
def toJson : Yaml → Json
  | .null => .null
  | .bool b => .bool b
  | .int n _ => .int n
  | .float x _ => .float x
  | .text s => .str s
  | .list _ items => .arr (toItems items)
  | .map _ entries => .obj (toFields entries)

/-- The items that are left when the spelling is forgotten. -/
def toItems : List Yaml → List Json
  | [] => []
  | v :: vs => toJson v :: toItems vs

/-- The fields that are left when the spelling is forgotten. -/
def toFields : List (Yaml × Yaml) → List (String × Json)
  | [] => []
  | (k, v) :: entries => (keyText k, toJson v) :: toFields entries

end

/-- Null, false, the zeros, and the texts, lists and maps that hold nothing. -/
def isVoid (v : Yaml) : Bool := v.toJson.isVoid

/-- The name that messages give to the kind of a whole number by its spelling. -/
def intTypeName : Option (List Char) → String
  | none => "int"
  | some cs =>
    match cs.dropWhile fun c => c == '-' || c == '+' with
    | '0' :: 'b' :: _ => "BinaryInt"
    | '0' :: 'o' :: _ => "OctalInt"
    | '0' :: 'x' :: ds =>
      match ds.find? Char.isAlpha with
      | some d => if d.isUpper then "HexCapsInt" else "HexInt"
      | none => "HexInt"
    | _ => "ScalarInt"

/-- The name that messages give to the kind of a value. -/
def typeName : Yaml → String
  | .int _ spelling => intTypeName (spelling.map String.toList)
  | .float _ (some _) => "ScalarFloat"
  | .list .program _ => "list"
  | .list _ _ => "CommentedSeq"
  | .map .program _ => "dict"
  | .map _ _ => "CommentedMap"
  | v => v.toJson.typeName

/-- Whether two keys of a map are the same. -/
def agrees (a b : Yaml) : Bool := a.toJson.agrees b.toJson

/-- The value of the entry with a text as its key. -/
def get? (entries : List (Yaml × Yaml)) (key : String) : Option Yaml :=
  (entries.find? fun e =>
    match e.1 with
    | .text k => k == key
    | _ => false).map (·.2)

end Yaml

end Parley
