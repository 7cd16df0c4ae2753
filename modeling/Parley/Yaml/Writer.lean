import Parley.Yaml.Reader

/-!
# Writing configurations

A map is written with an entry on each line, and what it holds is indented by two blanks more; the
dashes of a list stand as deep as the key of the list.  A text stands without quotes where it would
be read back as the same text, else between double quotes if it holds a single one or a line end,
and else between single quotes.  A long text goes on in the next line: behind the width of a line, a
blank between two words becomes a line end.
-/

namespace Parley.Yaml

/-- The column behind which a line ends at the next blank. -/
def lineWidth : Nat := 80

/-- The depth by which what a map or list holds is indented. -/
def stepWidth : Nat := 2

/-- How a text is written. -/
inductive TextStyle where
  | plain
  | single
  | double
deriving DecidableEq

/-- The characters that count as line ends in a text that is written. -/
def isLineEnd (c : Char) : Bool :=
  c == '\n' || c == '\x85' || c == '\u2028' || c == '\u2029'

/-- The characters before and behind which some indicators have a meaning. -/
def isWordBound (c : Char) : Bool :=
  isLineEnd c || c == '\x00' || c == ' ' || c == '\t' || c == '\r'

/-- Whether a text is written with this character as it is. -/
def isOpen (c : Char) : Bool :=
  let n := c.toNat
  c == '\n' || (0x20 ≤ n && n ≤ 0x7e) || n == 0x85 || (0xa0 ≤ n && n ≤ 0xfffd && n != 0xfeff) ||
    0x10000 ≤ n

/-- The indicators that may not stand at the front of a plain text. -/
def isLeadingIndicator (c : Char) : Bool :=
  "#,[]&*!|>'\"%@".toList.contains c || c == '\x60' || c == '\x7b' || c == '\x7d'

/-- Whether a text starts with a sign that has a meaning there. -/
def startsWithIndicator : List Char → Bool
  | [] => false
  | c :: rest =>
    isLeadingIndicator c ||
      ((c == '?' || c == ':' || c == '-') && (rest.isEmpty || rest.head?.any isWordBound)) ||
      [['-', '-', '-'], ['.', '.', '.']].contains ((c :: rest).take 3)

/-- Whether a text holds a colon before the end of a word, or a number sign behind one; its first
character does not count. -/
def holdsIndicator : List Char → Bool
  | a :: b :: rest =>
    (b == ':' && (rest.isEmpty || rest.head?.any isWordBound)) || (b == '#' && isWordBound a) ||
      holdsIndicator (b :: rest)
  | _ => false

/-- Whether a blank stands on either side of a line end. -/
def holdsBlankAtEnd (first second : Char → Bool) : List Char → Bool
  | c :: d :: rest => (first c && second d) || holdsBlankAtEnd first second (d :: rest)
  | _ => false

/-- Whether a text can stand without quotes, also as far as its reading goes. -/
def allowsPlain (brackets : Bool) (cs : List Char) : Bool :=
  Plain.isText cs && cs.all (fun c => isOpen c && !isLineEnd c) &&
    cs.head? != some ' ' && cs.getLast? != some ' ' && !startsWithIndicator cs &&
    !holdsIndicator cs &&
    !(brackets && (cs.any isBracketMark || cs == ['?'] || cs == [':']))

/-- Whether a text can stand between single quotes. -/
def allowsSingle (cs : List Char) : Bool :=
  cs.all isOpen && !holdsBlankAtEnd isLineEnd (· == ' ') cs &&
    !holdsBlankAtEnd (· == ' ') isLineEnd cs

/-- The style in which a text is written. -/
def styleOf (brackets : Bool) (cs : List Char) : TextStyle :=
  if allowsPlain brackets cs then .plain
  else if cs.contains '\'' || cs.contains '\n' then .double
  else if allowsSingle cs then .single
  else .double

/-- The end of a line and the indentation of the next one. -/
def nextLine (indent : Nat) : List Char := '\n' :: List.replicate indent ' '

/-- The rows of blanks and of other characters that a text consists of. -/
def words (cs : List Char) : List (List Char) := cs.splitBy fun a b => (a == ' ') == (b == ' ')

/-- Writes words one after the other from a column on.  A single blank behind the width of a line
becomes a line end. -/
def foldWords (fold : Bool) (indent : Nat) (column : Nat) : List (List Char) → List Char
  | [] => []
  | w :: ws =>
    if fold && w == [' '] && lineWidth < column && !ws.isEmpty then
      nextLine indent ++ foldWords fold indent indent ws
    else w ++ foldWords fold indent (column + w.length) ws

/-- Writes words without quotes.  A word that is longer than a line has a line of its own. -/
def foldPlain (fold : Bool) (indent : Nat) (column : Nat) : List (List Char) → List Char
  | [] => []
  | w :: ws =>
    if fold && w == [' '] && lineWidth < column then
      nextLine indent ++ foldPlain fold indent indent ws
    else if fold && !w.all (· == ' ') && lineWidth < w.length && indent < column then
      nextLine indent ++ w ++ foldPlain fold indent (indent + w.length) ws
    else w ++ foldPlain fold indent (column + w.length) ws

/-- The form behind a backslash that stands for a character. -/
def escapeOf (c : Char) : List Char :=
  match c with
  | '\x00' => ['0']
  | '\x07' => ['a']
  | '\x08' => ['b']
  | '\t' => ['t']
  | '\n' => ['n']
  | '\x0b' => ['v']
  | '\x0c' => ['f']
  | '\r' => ['r']
  | '\x1b' => ['e']
  | '"' => ['"']
  | '\\' => ['\\']
  | '\x85' => ['N']
  | '\xa0' => ['_']
  | '\u2028' => ['L']
  | '\u2029' => ['P']
  | c =>
    let upper (width : Nat) : List Char := (Text.hex width c.toNat).map Char.toUpper
    if c.toNat ≤ 0xff then 'x' :: upper 2
    else if c.toNat ≤ 0xffff then 'u' :: upper 4
    else 'U' :: upper 8

/-- A character between double quotes. -/
def doubleQuotedChar (c : Char) : List Char :=
  if c == '"' || c == '\\' || isLineEnd c || !isOpen c then '\\' :: escapeOf c else [c]

/-- Writes a text between double quotes.  Behind the width of a line, a single blank becomes a line
end, and one of several blanks is kept by a backslash on either side of the line end. -/
def foldDouble (fold : Bool) (indent : Nat) (column : Nat) (first : Bool) : List Char → List Char
  | [] => []
  | c :: rest =>
    if fold && !first && c == ' ' && lineWidth < column && 1 < rest.length then
      if rest.head? == some ' ' then
        ['\\'] ++ nextLine indent ++ ['\\', ' '] ++ foldDouble fold indent (indent + 2) false rest
      else nextLine indent ++ foldDouble fold indent indent false rest
    else
      let w := doubleQuotedChar c
      w ++ foldDouble fold indent (column + w.length) false rest

/-- Indents what stands behind the ends of lines that a text has of its own. -/
def indentLines (indent : Nat) : List Char → List Char
  | [] => []
  | c :: rest =>
    if isLineEnd c && c != '\n' && !rest.head?.any isLineEnd then
      c :: (List.replicate indent ' ' ++ indentLines indent rest)
    else c :: indentLines indent rest

/-- Writes a text from a column on; the lines behind the first one are indented. -/
def writeText (brackets fold : Bool) (indent column : Nat) (s : String) : List Char :=
  let cs := s.toList
  match styleOf brackets cs with
  | .plain => foldPlain fold indent column (words cs)
  | .single =>
    let body := match words cs with
      | [] => []
      | w :: ws => w ++ foldWords fold indent (column + 1 + w.length) ws
    ['\''] ++ indentLines indent body ++ ['\'']
  | .double => ['"'] ++ foldDouble fold indent (column + 1) true cs ++ ['"']

/-- The spelling of a whole number. -/
def writeInt (n : Int) (spelling : Option String) : List Char :=
  match spelling with
  | some s => s.toList.dropWhile (· == '+')
  | none => (Text.ofInt n).toList

/-- The spelling of a binary number. -/
def writeFloat (x : Binary64) (spelling : Option String) : List Char :=
  (spelling.getD (NumberStyle.config.text x)).toList

/-- Parts with a comma and a blank between them. -/
def joinParts : List (List Char) → List Char
  | [] => []
  | [part] => part
  | part :: parts => part ++ [',', ' '] ++ joinParts parts

mutual

/-- Writes a value between brackets. -/
def writeBracketed : Yaml → List Char
  | .null => ['n', 'u', 'l', 'l']
  | .bool b => (if b then "true" else "false").toList
  | .int n spelling => writeInt n spelling
  | .float x spelling => writeFloat x spelling
  | .text s => writeText true false 0 0 s
  | .list _ items => ['['] ++ joinParts (bracketedItems items) ++ [']']
  | .map _ entries => ['\x7b'] ++ joinParts (bracketedEntries entries) ++ ['\x7d']

/-- The items of a list between brackets. -/
def bracketedItems : List Yaml → List (List Char)
  | [] => []
  | v :: vs => writeBracketed v :: bracketedItems vs

/-- The entries of a map between brackets. -/
def bracketedEntries : List (Yaml × Yaml) → List (List Char)
  | [] => []
  | (k, v) :: entries =>
    (writeBracketed k ++ [':', ' '] ++ writeBracketed v) :: bracketedEntries entries

end

/-- Writes a scalar from a column on. -/
def writeScalar (indent column : Nat) : Yaml → List Char
  | .null => []
  | .text s => writeText false true indent column s
  | v => foldPlain true indent column [writeBracketed v]

/-- Writes a key. -/
def writeKey : Yaml → List Char
  | .text s => writeText false false 0 0 s
  | v => writeBracketed v

/-- A blank in front of a written scalar, unless nothing is written. -/
def behindBlank : List Char → List Char
  | [] => []
  | cs => ' ' :: cs

/-- Puts a mark in the place of the indentation of the first of a row of lines. -/
def marked (mark : List Char) : List (List Char) → List (List Char)
  | [] => [mark]
  | line :: lines => (mark ++ line.drop mark.length) :: lines

mutual

/-- The lines of the entries of a map at a depth. -/
def entryLines (indent : Nat) : List (Yaml × Yaml) → List (List Char)
  | [] => []
  | (k, v) :: entries =>
    let key := List.replicate indent ' ' ++ writeKey k ++ [':']
    (match v with
      | .map .brackets inner => [key ++ [' '] ++ writeBracketed (.map .brackets inner)]
      | .list .brackets items => [key ++ [' '] ++ writeBracketed (.list .brackets items)]
      | .map origin [] => [key ++ [' '] ++ writeBracketed (.map origin [])]
      | .list origin [] => [key ++ [' '] ++ writeBracketed (.list origin [])]
      | .map _ (e :: inner) => key :: entryLines (indent + stepWidth) (e :: inner)
      | .list _ (item :: items) => key :: itemLines indent (item :: items)
      | v => [key ++ behindBlank (writeScalar (indent + stepWidth) (key.length + 1) v)]) ++
      entryLines indent entries

/-- The lines of the items of a list at a depth. -/
def itemLines (indent : Nat) : List Yaml → List (List Char)
  | [] => []
  | v :: vs =>
    let dash := List.replicate indent ' ' ++ ['-']
    (match v with
      | .map .brackets inner => [dash ++ [' '] ++ writeBracketed (.map .brackets inner)]
      | .list .brackets items => [dash ++ [' '] ++ writeBracketed (.list .brackets items)]
      | .map origin [] => [dash ++ [' '] ++ writeBracketed (.map origin [])]
      | .list origin [] => [dash ++ [' '] ++ writeBracketed (.list origin [])]
      | .map _ (e :: inner) =>
        marked (dash ++ [' ']) (entryLines (indent + stepWidth) (e :: inner))
      | .list _ (item :: items) =>
        marked (dash ++ [' ']) (itemLines (indent + stepWidth) (item :: items))
      | v => [dash ++ behindBlank (writeScalar (indent + stepWidth) (indent + stepWidth) v)]) ++
      itemLines indent vs

end

/-- The text of a configuration that is a map with the given entries. -/
def write (entries : List (Yaml × Yaml)) : String :=
  match entries with
  | [] => "\x7b\x7d\n"
  | entries => String.ofList ((entryLines 0 entries).flatMap (· ++ ['\n']))

end Parley.Yaml
