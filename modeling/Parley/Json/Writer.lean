import Parley.Json.Reader

/-!
# Writing JSON text

Two layouts are in use.  A document is set out on many lines, each level indented by two blanks,
and shows every character but the control characters, the quote and the backslash as it is.  A log
line is a single line of ASCII characters.
-/

namespace Parley.Json

/-- The choices of a layout. -/
structure Layout where
  /-- Whether every item and field stands on a line of its own. -/
  spread : Bool
  /-- Whether characters beyond ASCII are written by their code units. -/
  ascii : Bool

/-- The layout of documents and drafts. -/
def Layout.document : Layout := ⟨true, false⟩

/-- The layout of log lines. -/
def Layout.line : Layout := ⟨false, true⟩

/-- The code unit form of a character, as one or as two halves. -/
def unitEscape (n : Nat) : List Char :=
  if n < 0x10000 then ['\\', 'u'] ++ Text.hex 4 n
  else
    let high := 0xd800 + (n - 0x10000) / 1024
    let low := 0xdc00 + (n - 0x10000) % 1024
    ['\\', 'u'] ++ Text.hex 4 high ++ ['\\', 'u'] ++ Text.hex 4 low

/-- The written form of one character of a text. -/
def writeChar (ascii : Bool) (c : Char) : List Char :=
  match c with
  | '"' => ['\\', '"']
  | '\\' => ['\\', '\\']
  | '\n' => ['\\', 'n']
  | '\r' => ['\\', 'r']
  | '\t' => ['\\', 't']
  | '\x0c' => ['\\', 'f']
  | '\x08' => ['\\', 'b']
  | c =>
    if c.toNat < 0x20 || (ascii && 0x7e < c.toNat) then unitEscape c.toNat else [c]

/-- The written form of a text. -/
def writeText (ascii : Bool) (s : String) : List Char :=
  ['"'] ++ s.toList.flatMap (writeChar ascii) ++ ['"']

/-- A line break and the indentation of a level. -/
def lineBreak (level : Nat) : List Char := '\n' :: List.replicate (2 * level) ' '

/-- What stands between the opening bracket of a level and its first part. -/
def Layout.opening (layout : Layout) (level : Nat) : List Char :=
  if layout.spread then lineBreak (level + 1) else []

/-- What stands between two parts of a level. -/
def Layout.between (layout : Layout) (level : Nat) : List Char :=
  ',' :: (if layout.spread then lineBreak (level + 1) else [' '])

/-- What stands between the last part of a level and its closing bracket. -/
def Layout.closing (layout : Layout) (level : Nat) : List Char :=
  if layout.spread then lineBreak level else []

mutual

/-- The written form of a value at a level of nesting. -/
def write (layout : Layout) (level : Nat) : Json → List Char
  | .null => ['n', 'u', 'l', 'l']
  | .bool true => ['t', 'r', 'u', 'e']
  | .bool false => ['f', 'a', 'l', 's', 'e']
  | .int n => (Text.ofInt n).toList
  | .float x => (NumberStyle.document.text x).toList
  | .str s => writeText layout.ascii s
  | .arr [] => ['[', ']']
  | .arr (v :: vs) =>
    ['['] ++ layout.opening level ++ write layout (level + 1) v ++
      writeItems layout level vs ++ layout.closing level ++ [']']
  | .obj [] => ['\x7b', '\x7d']
  | .obj ((k, v) :: fields) =>
    ['\x7b'] ++ layout.opening level ++ writeText layout.ascii k ++ [':', ' '] ++
      write layout (level + 1) v ++ writeFields layout level fields ++
      layout.closing level ++ ['\x7d']

/-- The items behind the first one of an array, each with what stands before it. -/
def writeItems (layout : Layout) (level : Nat) : List Json → List Char
  | [] => []
  | v :: vs => layout.between level ++ write layout (level + 1) v ++ writeItems layout level vs

/-- The fields behind the first one of an object, each with what stands before it. -/
def writeFields (layout : Layout) (level : Nat) : List (String × Json) → List Char
  | [] => []
  | (k, v) :: fields =>
    layout.between level ++ writeText layout.ascii k ++ [':', ' '] ++
      write layout (level + 1) v ++ writeFields layout level fields

end

mutual

/-- Whether a value holds a whole number of too many digits. -/
def hasLongInteger : Json → Bool
  | .int n => DigitLimit.limit < Binary64.digitCount n.natAbs
  | .arr items => anyLongItem items
  | .obj fields => anyLongField fields
  | _ => false

/-- Whether one of the values holds a whole number of too many digits. -/
def anyLongItem : List Json → Bool
  | [] => false
  | v :: vs => v.hasLongInteger || anyLongItem vs

/-- Whether one of the fields holds a whole number of too many digits. -/
def anyLongField : List (String × Json) → Bool
  | [] => false
  | (_, v) :: fields => v.hasLongInteger || anyLongField fields

end

/-- The text of a value of which no whole number is too long. -/
def text (layout : Layout) (v : Json) : Except DigitLimit String :=
  if v.hasLongInteger then .error ⟨none⟩ else .ok (String.ofList (v.write layout 0))

end Parley.Json
