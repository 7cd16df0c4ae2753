import Parley.Number.Style
import Parley.Text.Printable

/-!
# JSON values

The values of the data format, with whole and binary numbers kept apart.  An object is the list of
its fields in the order in which the keys first came; no key comes twice in an object that is built
by the functions here.

`display` is the form in which messages show a value.  It has a spelling of its own: texts stand
between single quotes and the three named constants are capitalised.  A whole number of too many
digits cannot be shown, and nothing that holds one can.
-/

namespace Parley

/-- A JSON value. -/
inductive Json where
  | null
  | bool (b : Bool)
  | int (n : Int)
  | float (x : Binary64)
  | str (s : String)
  | arr (items : List Json)
  | obj (fields : List (String × Json))

instance : Inhabited Json := ⟨.null⟩

/-- The fields of an object, in order. -/
abbrev Fields := List (String × Json)

namespace Fields

/-- The value under a key. -/
def get? (fields : Fields) (key : String) : Option Json := fields.lookup key

/-- Whether there is a value under a key. -/
def has (fields : Fields) (key : String) : Bool := (fields.get? key).isSome

/-- Sets the value under a key.  A key that is there keeps its place, a new one comes last. -/
def put (key : String) (value : Json) : Fields → Fields
  | [] => [(key, value)]
  | (k, v) :: rest => if k == key then (key, value) :: rest else (k, v) :: put key value rest

/-- Leaves out the value under a key. -/
def erase (fields : Fields) (key : String) : Fields := fields.filter (·.1 != key)

/-- The fields that a row of pairs sets, one pair after the other. -/
def ofPairs (pairs : List (String × Json)) : Fields :=
  pairs.foldl (fun fields pair => fields.put pair.1 pair.2) []

@[simp] theorem get?_nil (key : String) : get? [] key = none := rfl

@[simp] theorem get?_cons (k : String) (v : Json) (rest : Fields) (key : String) :
    get? ((k, v) :: rest) key = if key = k then some v else rest.get? key := by
  by_cases h : key = k
  · simp [get?, h]
  · have h' : (key == k) = false := by simpa using h
    simp [get?, List.lookup_cons, h, h']

theorem get?_put_self (fields : Fields) (key : String) (value : Json) :
    (put key value fields).get? key = some value := by
  induction fields with
  | nil => simp [put, get?]
  | cons field rest ih =>
    obtain ⟨k, v⟩ := field
    by_cases h : k = key
    · simp [put, get?, h]
    · have h' : (key == k) = false := by simpa using fun e => h e.symm
      simpa [put, get?, List.lookup_cons, h, h'] using ih

theorem get?_put_of_ne (fields : Fields) {key other : String} (value : Json) (h : other ≠ key) :
    (put key value fields).get? other = fields.get? other := by
  have h' : (other == key) = false := by simpa using h
  induction fields with
  | nil => simp [put, get?, List.lookup_cons, h']
  | cons field rest ih =>
    obtain ⟨k, v⟩ := field
    by_cases hk : k = key
    · simp [put, get?, List.lookup_cons, hk, h']
    · by_cases ho : other = k
      · simp [put, get?, hk, ho]
      · have ho' : (other == k) = false := by simpa using ho
        simpa [put, get?, List.lookup_cons, hk, ho'] using ih

end Fields

namespace Json

/-- An object or an array of text, for writing values down. -/
def ofTexts (texts : List String) : Json := .arr (texts.map .str)

/-- A text or null. -/
def ofText? : Option String → Json
  | none => .null
  | some s => .str s

/-- Null, false, the zeros, and the texts, arrays and objects that hold nothing. -/
def isVoid : Json → Bool
  | .null => true
  | .bool b => !b
  | .int n => n == 0
  | .float x => x.sameNumber .zero
  | .str s => s.isEmpty
  | .arr items => items.isEmpty
  | .obj fields => fields.isEmpty

/-- The name that messages give to the kind of a value. -/
def typeName : Json → String
  | .null => "NoneType"
  | .bool _ => "bool"
  | .int _ => "int"
  | .float _ => "float"
  | .str _ => "str"
  | .arr _ => "list"
  | .obj _ => "dict"

/-- The values that are met when a value is gone through: the items of an array, the keys of an
object, the characters of a text.  The other values cannot be gone through. -/
def elements? : Json → Option (List Json)
  | .arr items => some items
  | .obj fields => some (fields.map (.str ·.1))
  | .str s => some (s.toList.map fun c => .str c.toString)
  | _ => none

end Json

namespace Text

/-- The lower case hexadecimal digits of a number, at least `width` of them. -/
def hex (width n : Nat) : List Char :=
  let ds := Nat.toDigits 16 n
  List.replicate (width - ds.length) '0' ++ ds

/-- How a quoted text shows a character that is neither its quote nor a backslash. -/
def quotedChar (c : Char) : List Char :=
  if c == '\n' then ['\\', 'n']
  else if c == '\r' then ['\\', 'r']
  else if c == '\t' then ['\\', 't']
  else if isPrintable c then [c]
  else if c.toNat < 0x100 then ['\\', 'x'] ++ hex 2 c.toNat
  else if c.toNat < 0x10000 then ['\\', 'u'] ++ hex 4 c.toNat
  else ['\\', 'U'] ++ hex 8 c.toNat

/-- A text between quotes, as messages show it: single quotes, unless it holds one of these and no
double quote. -/
def quoted (s : String) : String :=
  let cs := s.toList
  let quote := if cs.contains '\'' && !cs.contains '"' then '"' else '\''
  let body := cs.flatMap fun c =>
    if c == quote || c == '\\' then ['\\', c] else quotedChar c
  String.ofList ([quote] ++ body ++ [quote])

end Text

namespace Json

mutual

/-- The form in which messages show a value. -/
def display : Json → Except DigitLimit String
  | .null => .ok "None"
  | .bool b => .ok (if b then "True" else "False")
  | .int n => DigitLimit.write n
  | .float x => .ok (NumberStyle.plain.text x)
  | .str s => .ok (Text.quoted s)
  | .arr items => do pure ("[" ++ ", ".intercalate (← displayItems items) ++ "]")
  | .obj fields => do pure ("\x7b" ++ ", ".intercalate (← displayFields fields) ++ "\x7d")

/-- The displayed items of an array. -/
def displayItems : List Json → Except DigitLimit (List String)
  | [] => .ok []
  | v :: vs => do pure ((← display v) :: (← displayItems vs))

/-- The displayed fields of an object. -/
def displayFields : List (String × Json) → Except DigitLimit (List String)
  | [] => .ok []
  | (k, v) :: fields => do
    pure ((Text.quoted k ++ ": " ++ (← display v)) :: (← displayFields fields))

end

/-- The form in which messages name a value: a text stands for itself. -/
def label : Json → Except DigitLimit String
  | .str s => .ok s
  | v => v.display

mutual

/-- Whether two values are the same, where whole and binary numbers of the same size are the same
and the order of fields does not matter. -/
def agrees : Json → Json → Bool
  | .null, .null => true
  | .bool a, .bool b => a == b
  | .int a, .int b => a == b
  | .float a, .float b => a.sameNumber b
  | .int a, .float b => b.toInt? == some a
  | .float a, .int b => a.toInt? == some b
  | .str a, .str b => a == b
  | .arr a, .arr b => agreeItems a b
  | .obj a, .obj b => a.length == b.length && agreeFields a b
  | _, _ => false

/-- Whether two rows of values agree one by one. -/
def agreeItems : List Json → List Json → Bool
  | [], [] => true
  | a :: as, b :: bs => agrees a b && agreeItems as bs
  | _, _ => false

/-- Whether each field of the first row agrees with the one of the same key in the second. -/
def agreeFields : List (String × Json) → List (String × Json) → Bool
  | [], _ => true
  | (k, a) :: as, bs =>
    (match bs.lookup k with
      | some b => agrees a b
      | none => false) && agreeFields as bs

end

end Json

end Parley
