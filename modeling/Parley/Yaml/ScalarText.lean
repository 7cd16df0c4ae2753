import Parley.Yaml.Cursor

/-!
# Reading the text of scalars

A scalar is written without quotes, between quotes, or as a block of lines.  Line ends inside it
fold: a single one becomes a blank, and of several all but the first stay; a block may also keep
its lines as they are.
-/

namespace Parley.Yaml

/-! ## Scalars without quotes -/

/-- The characters that end a word between brackets. -/
def isBracketMark (c : Char) : Bool := [',', '[', ']', '\x7b', '\x7d'].contains c

/-- The longest row of characters that belong to a word. -/
def wordLength (brackets : Bool) : List Char → Nat
  | [] => 0
  | c :: cs =>
    if endsWord [c] || (c == ':' && endsWord cs) || (brackets && isBracketMark c) then 0
    else wordLength brackets cs + 1

/-- Whether a scalar without quotes begins here. -/
def beginsPlain (brackets : Bool) : List Char → Bool
  | [] => false
  | c :: cs =>
    if endsWord [c] || "#&*!|>'\"%@,[]".toList.contains c || c == '\x60' || isBracketMark c then
      false
    else if c == '-' then !endsWord cs
    else if c == ':' then !endsWord cs
    else if c == '?' then !brackets && !endsWord cs
    else true

/-- What stands between two words of a scalar, if another one may follow. -/
def plainGap (c : Cursor) : Option (List Char) × Cursor :=
  let spaces := c.rest.takeWhile (· == ' ')
  let next := c.advance spaces.length
  if next.head?.any isBreak then
    let (breaks, next) := next.blanks (· == ' ')
    (if next.atEnd then none else some (folded breaks), next)
  else (if spaces.isEmpty then none else some spaces, next)

/-- Reads on in a scalar without quotes behind a gap.  The lines after its first one have at least
the given column, unless it stands between brackets. -/
def plainFrom (brackets : Bool) (indent : Int) : Nat → List Char → List Char → Cursor →
    List Char × Cursor
  | 0, done, _, c => (done, c)
  | fuel + 1, done, gap, c =>
    let n := wordLength brackets c.rest
    if n = 0 || c.head? == some '#' then (done, c)
    else
      let done := done ++ gap ++ c.rest.take n
      match plainGap (c.advance n) with
      | (none, c) => (done, c)
      | (some gap, c) =>
        if !brackets && c.column < indent then (done, c)
        else plainFrom brackets indent fuel done gap c

/-- Reads a scalar without quotes. -/
def plain (brackets : Bool) (indent : Int) (c : Cursor) : List Char × Cursor :=
  plainFrom brackets indent c.rest.length [] [] c

/-! ## Scalars between quotes -/

/-- The character that a letter behind a backslash stands for. -/
def escaped? : Char → Option Char
  | '0' => some '\x00'
  | 'a' => some '\x07'
  | 'b' => some '\x08'
  | 't' => some '\t'
  | '\t' => some '\t'
  | 'n' => some '\n'
  | 'v' => some '\x0b'
  | 'f' => some '\x0c'
  | 'r' => some '\r'
  | 'e' => some '\x1b'
  | ' ' => some ' '
  | '"' => some '"'
  | '/' => some '/'
  | '\\' => some '\\'
  | 'N' => some '\x85'
  | '_' => some '\xa0'
  | 'L' => some '\u2028'
  | 'P' => some '\u2029'
  | _ => none

/-- The number of hexadecimal digits behind a letter that stands behind a backslash. -/
def escapeWidth? : Char → Option Nat
  | 'x' => some 2
  | 'u' => some 4
  | 'U' => some 8
  | _ => none

/-- Reads the form behind a backslash: the characters that it stands for, and what follows. -/
def escape (c : Cursor) : Except ReadError (List Char × Cursor) :=
  match c.rest with
  | [] => c.fail .unclosed
  | e :: rest =>
    if isBreak e then
      let (breaks, next) := ({ c with rest, line := c.line + 1, column := 0 } : Cursor).blanks isGap
      if next.atEnd && next.column == 0 then next.fail .unexpected
      else .ok (List.replicate breaks '\n', next)
    else match escaped? e, escapeWidth? e with
      | some d, _ => .ok ([d], c.advance 1)
      | none, some width =>
        let ds := rest.take width
        if ds.length = width && ds.all (Text.hexValue? · |>.isSome) then
          .ok ([Char.ofNat (ds.foldl (fun n d => n * 16 + (Text.hexValue? d).getD 0) 0)],
            c.advance (width + 1))
        else c.fail .escape
      | none, none => c.fail .escape

/-- Reads the blanks and ends of lines within quotes. -/
def quotedGap (c : Cursor) : Except ReadError (List Char × Cursor) :=
  let (breaks, next) := c.blanks isGap
  if breaks = 0 then .ok (c.rest.takeWhile isGap, next)
  else if next.atEnd && next.column == 0 then next.fail .unexpected
  else .ok (folded breaks, next)

/-- Reads on between quotes up to the closing one. -/
def quotedFrom (double : Bool) : Nat → List Char → Cursor → Except ReadError (List Char × Cursor)
  | 0, _, c => c.fail .unclosed
  | fuel + 1, done, c =>
    match c.rest with
    | [] => c.fail .unclosed
    | d :: rest =>
      if double && d == '"' then .ok (done, c.advance 1)
      else if double && d == '\\' then do
        let (more, c) ← escape (c.advance 1)
        quotedFrom double fuel (done ++ more) c
      else if !double && d == '\'' then
        if rest.head? == some '\'' then quotedFrom double fuel (done ++ ['\'']) (c.advance 2)
        else .ok (done, c.advance 1)
      else if isGap d || isBreak d then do
        let (more, c) ← quotedGap c
        quotedFrom double fuel (done ++ more) c
      else quotedFrom double fuel (done ++ [d]) (c.advance 1)

/-- Reads a scalar between quotes, behind the opening one. -/
def quoted (double : Bool) (c : Cursor) : Except ReadError (List Char × Cursor) :=
  quotedFrom double (c.rest.length + 1) [] c

/-! ## Blocks of lines -/

/-- What becomes of the line ends behind a block. -/
inductive Chomping where
  | strip
  | clip
  | keep
deriving DecidableEq

/-- Reads the signs at the head of a block: what becomes of the last line ends, and how far the
block is indented. -/
def blockHeader (c : Cursor) : Except ReadError ((Chomping × Option Nat) × Cursor) :=
  let chomping : Char → Option Chomping
    | '+' => some .keep
    | '-' => some .strip
    | _ => none
  let depth (d : Char) : Option Nat :=
    if Text.isAsciiDigit d && d != '0' then some (d.toNat - 48) else none
  let (signs, rest) := Text.span (fun d => !isGap d && !isBreak d) c.rest
  let line := rest.dropWhile (· == ' ')
  let next := c.advance (c.rest.length - line.length)
  let next := next.advance (if line.head? == some '#'
    then (line.takeWhile fun d => !isBreak d).length else 0)
  if !(next.rest.isEmpty || next.head?.any isBreak) then next.fail .unexpected
  else
    let header := match signs with
      | [] => some (Chomping.clip, none)
      | [s] =>
        match chomping s, depth s with
        | some k, _ => some (k, none)
        | none, some n => some (.clip, some n)
        | none, none => none
      | [s, t] =>
        match chomping s, depth t, chomping t, depth s with
        | some k, some n, _, _ => some (k, some n)
        | _, _, some k, some n => some (k, some n)
        | _, _, _, _ => none
      | _ => none
    match header with
    | some header => .ok (header, next)
    | none => c.fail .header

/-- Goes on behind the ends of lines and the indentation of at most a given depth. -/
def indentation (depth : Nat) (breaks line column : Nat) : List Char → Nat × List Char × Nat × Nat
  | [] => (breaks, [], line, column)
  | c :: cs =>
    if isBreak c then indentation depth (breaks + 1) (line + 1) 0 cs
    else if c == ' ' && column < depth then indentation depth breaks line (column + 1) cs
    else (breaks, c :: cs, line, column)

/-- The greatest column that the blanks before the first line of a block reach. -/
def blockDepth (deepest column : Nat) : List Char → Nat
  | [] => deepest
  | c :: cs =>
    if isBreak c then blockDepth deepest 0 cs
    else if c == ' ' then blockDepth (max deepest (column + 1)) (column + 1) cs
    else deepest

/-- Reads the lines of a block that is indented to a depth.  Answers them with the number of line
ends behind the last of them. -/
def blockLines (fold : Bool) (depth : Nat) : Nat → List Char → Cursor → List Char × Nat × Cursor
  | 0, done, c => (done, 0, c)
  | fuel + 1, done, c =>
    let (line, rest) := Text.span (fun d => !isBreak d) c.rest
    let (ends, rest, row, column) := indentation depth 0 c.line (c.column + line.length) rest
    let next := c.goto rest row column
    let done := done ++ line
    if column != depth || rest.isEmpty then (done, ends, next)
    else
      let joins := fold && !line.head?.any isGap && !rest.head?.any isGap
      let gap := if joins then folded ends else List.replicate ends '\n'
      blockLines fold depth fuel (done ++ gap) next

/-- Reads a block of lines behind its opening sign; its lines are indented deeper than `indent`. -/
def block (fold : Bool) (indent : Int) (c : Cursor) : Except ReadError (List Char × Cursor) := do
  let ((chomping, depth), c) ← blockHeader c
  let least := (max (indent + 1) 1).toNat
  let depth := match depth with
    | some n => least + n - 1
    | none => max least (blockDepth 0 c.column c.rest)
  let (breaks, rest, line, column) := indentation depth 0 c.line c.column c.rest
  let first := List.replicate (breaks - 1) '\n'
  let c := c.goto rest line column
  if column != depth || rest.isEmpty then pure (if chomping == .keep then first else [], c)
  else
    let (body, ends, c) := blockLines fold depth (rest.length + 1) first c
    pure (body ++ List.replicate (match chomping with
      | .strip => 0
      | .clip => min ends 1
      | .keep => ends) '\n', c)

end Parley.Yaml
