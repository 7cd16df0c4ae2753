import Parley.Yaml.Plain

/-!
# Reading along a configuration

A `Cursor` is a place in a text: what is left, the line and column, and the named values met so far.
A reading that fails answers a flaw and its place.
-/

namespace Parley.Yaml

/-- Why a text is not a configuration. -/
inductive Flaw where
  /-- A character that no text may hold. -/
  | unprintable
  /-- Something stands where it may not. -/
  | unexpected
  /-- A quote or bracket is not closed. -/
  | unclosed
  /-- A key without a colon behind it. -/
  | noColon
  /-- An unknown form behind a backslash. -/
  | escape
  /-- An unknown sign at the head of a block of lines. -/
  | header
  /-- A name that stands for no value. -/
  | unnamed (name : String)
  /-- A key that comes twice in a map. -/
  | repeated (key : String)
  /-- A value that is merged into a map but is none. -/
  | unmergeable
  /-- A value that does not fit its tag. -/
  | tagged (tag : String)
  /-- A second document. -/
  | second
  /-- A whole number of too many digits. -/
  | digits (limit : DigitLimit)
deriving Inhabited

/-- What is reported about a flaw. -/
def Flaw.message : Flaw → String
  | .unprintable => "special characters are not allowed"
  | .unexpected => "found something unexpected"
  | .unclosed => "found unexpected end of stream"
  | .noColon => "could not find expected ':'"
  | .escape => "found unknown escape character"
  | .header => "expected chomping or indentation indicators"
  | .unnamed name => "found undefined alias '" ++ name ++ "'"
  | .repeated key => "found duplicate key \"" ++ key ++ "\""
  | .unmergeable => "expected a mapping or list of mappings for merging"
  | .tagged tag => "could not construct a value for the tag '" ++ tag ++ "'"
  | .second => "expected a single document in the stream"
  | .digits limit => limit.message

/-- A flaw and its place, both counted from zero. -/
structure ReadError where
  flaw : Flaw
  line : Nat
  column : Nat

/-- What is reported about a text that is not a configuration.  A number of too many digits has no
place. -/
def ReadError.message (e : ReadError) : String :=
  match e.flaw with
  | .digits limit => limit.message
  | flaw => flaw.message ++ "\n  line " ++ Text.ofNat (e.line + 1) ++ ", column " ++
      Text.ofNat (e.column + 1)

/-- A place in a text. -/
structure Cursor where
  /-- What is left of the text. -/
  rest : List Char
  line : Nat := 0
  column : Nat := 0
  /-- The values that have a name. -/
  named : List (String × Yaml) := []

/-- The end of a line. -/
def isBreak (c : Char) : Bool := c == '\n' || c == '\r' || c == '\x85'

/-- A blank within a line. -/
def isGap (c : Char) : Bool := c == ' ' || c == '\t'

/-- Whether a word ends before a text. -/
def endsWord : List Char → Bool
  | [] => true
  | c :: _ => isGap c || isBreak c

namespace Cursor

/-- Fails at a place. -/
def fail {α : Type} (c : Cursor) (flaw : Flaw) : Except ReadError α :=
  .error ⟨flaw, c.line, c.column⟩

/-- The next character. -/
def head? (c : Cursor) : Option Char := c.rest.head?

/-- Goes on by a number of characters of the same line. -/
def advance (c : Cursor) (n : Nat) : Cursor :=
  { c with rest := c.rest.drop n, column := c.column + n }

/-- Goes to the place in the same or another line at which a given text is left. -/
def goto (c : Cursor) (rest : List Char) (line column : Nat) : Cursor :=
  { c with rest, line, column }

/-- Gives a value a name. -/
def name (c : Cursor) (name : Option String) (v : Yaml) : Cursor :=
  match name with
  | some name => { c with named := (name, v) :: c.named }
  | none => c

/-- What is left behind blanks, ends of lines and comments, with its line and column.  Tabs are
blanks only between brackets. -/
def skipFrom (brackets comment : Bool) (line column : Nat) :
    List Char → List Char × Nat × Nat
  | [] => ([], line, column)
  | c :: cs =>
    if isBreak c then skipFrom brackets false (line + 1) 0 cs
    else if comment || c == '#' then skipFrom brackets true line (column + 1) cs
    else if c == ' ' || (brackets && c == '\t') then skipFrom brackets false line (column + 1) cs
    else (c :: cs, line, column)

/-- Goes on behind blanks, ends of lines and comments. -/
def skip (brackets : Bool) (c : Cursor) : Cursor :=
  let (rest, line, column) := skipFrom brackets false c.line c.column c.rest
  c.goto rest line column

/-- Goes on behind blanks of the same line. -/
def skipGaps (c : Cursor) : Cursor := c.advance (c.rest.takeWhile (· == ' ')).length

/-- Whether a mark of three characters stands at the start of a line. -/
def atMark (c : Cursor) (mark : Char) : Bool :=
  c.column == 0 && c.rest.take 3 == [mark, mark, mark] && endsWord (c.rest.drop 3)

/-- Whether the document ends. -/
def atEnd (c : Cursor) : Bool := c.rest.isEmpty || c.atMark '-' || c.atMark '.'

/-- Whether an indicator stands here that is followed by the end of a word. -/
def atIndicator (c : Cursor) (indicator : Char) : Bool :=
  match c.rest with
  | d :: rest => d == indicator && endsWord rest
  | [] => false

end Cursor

/-- What a row of line ends within a scalar becomes. -/
def folded (breaks : Nat) : List Char :=
  if breaks ≤ 1 then [' '] else List.replicate (breaks - 1) '\n'

/-- What is left behind blanks and ends of lines, with the number of the latter and the column. -/
def blankLines (gap : Char → Bool) (breaks column : Nat) : List Char → List Char × Nat × Nat
  | [] => ([], breaks, column)
  | c :: cs =>
    if isBreak c then blankLines gap (breaks + 1) 0 cs
    else if gap c then blankLines gap breaks (column + 1) cs
    else (c :: cs, breaks, column)

namespace Cursor

/-- Goes on behind blanks and ends of lines; answers how many of the latter there were. -/
def blanks (gap : Char → Bool) (c : Cursor) : Nat × Cursor :=
  let (rest, breaks, column) := blankLines gap 0 c.column c.rest
  (breaks, c.goto rest (c.line + breaks) column)

end Cursor

end Parley.Yaml
