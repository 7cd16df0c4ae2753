import Parley.Yaml.ScalarText

/-!
# Reading configurations

The structure of a configuration: maps and lists that are told by their indentation, maps and lists
between brackets, and scalars.  A key and the colon behind it stand on one line.  `read` takes a
text that holds at most one document; a text without any has the value null.

The readers call one another with less and less fuel, of which `read` gives them enough for every
character of the text.
-/

namespace Parley.Yaml

/-- What may stand before a value: its name and its tag. -/
structure Properties where
  name : Option String := none
  tag : Option String := none

namespace Properties

/-- Whether there are any. -/
def given (p : Properties) : Bool := p.name.isSome || p.tag.isSome

/-- The length of a name or tag. -/
def wordLength (cs : List Char) : Nat :=
  (cs.takeWhile fun c => !isGap c && !isBreak c && !isBracketMark c).length

/-- Reads the properties in front of a value, each at most once. -/
def readFrom : Nat → Properties → Cursor → Except ReadError (Properties × Cursor)
  | 0, p, c => .ok (p, c)
  | fuel + 1, p, c =>
    let n := wordLength (c.rest.drop 1)
    let word := String.ofList ((c.rest.drop 1).take n)
    let next := (c.advance (n + 1)).skipGaps
    match c.head? with
    | some '&' =>
      if p.name.isSome || n = 0 then c.fail .unexpected
      else readFrom fuel { p with name := some word } next
    | some '!' =>
      if p.tag.isSome then c.fail .unexpected
      else readFrom fuel { p with tag := some word } next
    | _ => .ok (p, c)

/-- Reads the properties in front of a value. -/
def read (c : Cursor) : Except ReadError (Properties × Cursor) := readFrom 3 {} c

end Properties

/-- The name that a tag has in the schema of scalars. -/
def schemaName (tag : String) : String :=
  if tag.startsWith "!" then ((tag.drop 1).toString)
  else if tag.startsWith "<tag:yaml.org,2002:" then
    (((tag.drop 19).takeWhile (· != '>')).toString)
  else ""

/-- The value of a scalar with a tag; none if it does not fit. -/
def ofTagged? (tag : String) (cs : List Char) : Option Yaml :=
  match schemaName tag with
  | "int" => (Plain.int? cs).map (.int · none)
  | "float" => (Plain.float? cs).map (.float · none)
  | "bool" => (Plain.bool? cs).map .bool
  | "null" => some .null
  | _ => some (.text (String.ofList cs))

/-- The value of a scalar at a place. -/
def scalar (c : Cursor) (tag : Option String) (plain : Bool) (cs : List Char) :
    Except ReadError Yaml :=
  match tag with
  | some tag =>
    match ofTagged? tag cs with
    | some v => .ok v
    | none => c.fail (.tagged tag)
  | none =>
    if plain then
      match Plain.read cs with
      | .ok v => .ok v
      | .error limit => c.fail (.digits limit)
    else .ok (.text (String.ofList cs))

/-- Whether the key of an entry asks for a merge. -/
def isMerge (e : Yaml × Yaml) : Bool :=
  match e.1 with
  | .text k => k == "<<"
  | _ => false

/-- The first key that comes a second time. -/
def repeatedKey? : List (Yaml × Yaml) → Option Yaml
  | [] => none
  | (k, _) :: entries =>
    if entries.any fun e => e.1.agrees k then some k else repeatedKey? entries

/-- The entries of a map. -/
def entriesOf? : Yaml → Option (List (Yaml × Yaml))
  | .map _ entries => some entries
  | _ => none

/-- The entries that a merged value brings in, the ones that count before the others. -/
def mergedEntries? : Yaml → Option (List (Yaml × Yaml))
  | .map _ entries => some entries
  | .list _ items => (items.mapM entriesOf?).map List.flatten
  | _ => none

/-- Adds merged entries whose keys are not there. -/
def addMissing (entries : List (Yaml × Yaml)) : List (Yaml × Yaml) → List (Yaml × Yaml)
  | [] => entries
  | e :: more =>
    addMissing (if entries.any fun d => d.1.agrees e.1 then entries else entries ++ [e]) more

/-- The map of a row of entries, with what they merge into it. -/
def mapOf (c : Cursor) (origin : Origin) (entries : List (Yaml × Yaml)) : Except ReadError Yaml :=
  let (merges, own) := entries.partition isMerge
  match repeatedKey? own with
  | some k =>
    match k.label with
    | .ok name => c.fail (.repeated name)
    | .error e => c.fail (.digits e)
  | none =>
    match merges.mapM fun e => mergedEntries? e.2 with
    | some merged => .ok (.map origin (merged.foldl addMissing own))
    | none => c.fail .unmergeable

/-- Whether a value from one place to another is a key: a colon follows it on the same line, not too
far from its start.  Answers the place behind the colon. -/
def afterKey? (brackets pair : Bool) (start c : Cursor) : Option Cursor :=
  let c := if brackets then c.advance (c.rest.takeWhile isGap).length else c.skipGaps
  if start.line == c.line && c.column ≤ start.column + 1024 && c.head? == some ':' &&
    ((brackets && !pair) || c.atIndicator ':') then some (c.advance 1)
  else none

/-- Whether a value between brackets is left out: a comma or a closing bracket stands in its
place. -/
def leftOut (c : Cursor) : Bool := c.head?.any fun d => [',', ']', '\x7d'].contains d

/-- The value with a name. -/
def reference (c : Cursor) : Except ReadError (Yaml × Cursor) :=
  let n := Properties.wordLength (c.rest.drop 1)
  let name := String.ofList ((c.rest.drop 1).take n)
  match c.named.lookup name with
  | some v => .ok (v, c.advance (n + 1))
  | none => c.fail (.unnamed name)

mutual

/-- Reads a value that begins here: a reference, a scalar, or a list or map between brackets. -/
def content (fuel : Nat) (brackets : Bool) (indent : Int) (p : Properties) (c : Cursor) :
    Except ReadError (Yaml × Cursor) :=
  match fuel with
  | 0 => c.fail .unclosed
  | fuel + 1 =>
    match c.head? with
    | some '*' => if p.given then c.fail .unexpected else reference c
    | some '\'' => do
      let (cs, next) ← quoted false (c.advance 1)
      let v ← scalar c p.tag false cs
      pure (v, next.name p.name v)
    | some '"' => do
      let (cs, next) ← quoted true (c.advance 1)
      let v ← scalar c p.tag false cs
      pure (v, next.name p.name v)
    | some '[' => do
      let (items, next) ← bracketItems fuel [] (c.advance 1)
      let v := Yaml.list .brackets items
      pure (v, next.name p.name v)
    | some '\x7b' => do
      let (entries, next) ← bracketEntries fuel [] (c.advance 1)
      let v ← mapOf c .brackets entries
      pure (v, next.name p.name v)
    | _ =>
      if c.atEnd || !beginsPlain brackets c.rest then c.fail .unexpected
      else do
        let (cs, next) := plain brackets (indent + 1) c
        let v ← scalar c p.tag true cs
        pure (v, next.name p.name v)

/-- Reads a value between brackets. -/
def bracketValue (fuel : Nat) (c : Cursor) : Except ReadError (Yaml × Cursor) :=
  match fuel with
  | 0 => c.fail .unclosed
  | fuel + 1 => do
    let (p, next) ← Properties.read (c.skip true)
    let next := next.skip true
    if p.given && (leftOut next || next.atIndicator ':') then
      let v ← scalar next p.tag true []
      pure (v, next.name p.name v)
    else content fuel true 0 p next

/-- Reads what stands behind the colon of an entry between brackets. -/
def bracketRest (fuel : Nat) (c : Cursor) : Except ReadError (Yaml × Cursor) :=
  match fuel with
  | 0 => c.fail .unclosed
  | fuel + 1 =>
    let c := c.skip true
    if leftOut c then .ok (.null, c) else bracketValue fuel c

/-- Reads the items of a list between brackets up to the closing one.  An item with a colon is a map
of one entry. -/
def bracketItems (fuel : Nat) (done : List Yaml) (c : Cursor) :
    Except ReadError (List Yaml × Cursor) :=
  match fuel with
  | 0 => c.fail .unclosed
  | fuel + 1 => do
    let start := c.skip true
    if start.head? == some ']' then pure (done, start.advance 1)
    else
      let (k, c) ← bracketValue fuel start
      let (v, c) ← match afterKey? true true start c with
        | none => pure (k, c)
        | some c => do
          let (v, c) ← bracketRest fuel c
          pure (← mapOf start .brackets [(k, v)], c)
      let c := c.skip true
      match c.head? with
      | some ',' => bracketItems fuel (done ++ [v]) (c.advance 1)
      | some ']' => pure (done ++ [v], c.advance 1)
      | some _ => c.fail .unexpected
      | none => c.fail .unclosed

/-- Reads the entries of a map between brackets up to the closing one. -/
def bracketEntries (fuel : Nat) (done : List (Yaml × Yaml)) (c : Cursor) :
    Except ReadError (List (Yaml × Yaml) × Cursor) :=
  match fuel with
  | 0 => c.fail .unclosed
  | fuel + 1 => do
    let start := c.skip true
    if start.head? == some '\x7d' then pure (done, start.advance 1)
    else
      let (k, c) ← bracketValue fuel start
      let (v, c) ← match afterKey? true false start c with
        | none => pure (Yaml.null, c)
        | some c => bracketRest fuel c
      let c := c.skip true
      match c.head? with
      | some ',' => bracketEntries fuel (done ++ [(k, v)]) (c.advance 1)
      | some '\x7d' => pure (done ++ [(k, v)], c.advance 1)
      | some _ => c.fail .unexpected
      | none => c.fail .unclosed

end

mutual

/-- Reads a value that is indented deeper than `indent`; null if there is none.  A list that is the
value of an entry may stand as deep as the entry.  On the line at which it is asked for, a map or
list by indentation begins only if `opens` holds. -/
def value (fuel : Nat) (indent : Int) (opens ofEntry : Bool) (start : Cursor) :
    Except ReadError (Yaml × Cursor) :=
  match fuel with
  | 0 => start.fail .unclosed
  | fuel + 1 =>
    let c := start.skip false
    let opens := opens || start.line < c.line
    let flush := ofEntry && c.column == indent && c.atIndicator '-'
    if c.atEnd || (start.line < c.line && c.column ≤ indent && !flush) then .ok (.null, c)
    else if c.atIndicator '-' then
      if opens then do
        let (items, c) ← items fuel c.column flush [] c
        pure (.list .lines items, c)
      else c.fail .unexpected
    else if opens && c.atIndicator '?' then entries fuel c.column [] c
    else do
      let (p, next) ← Properties.read c
      if p.given && ((next.skip false).line != c.line || (next.skip false).atEnd) then
        let (v, next) ← value fuel indent true ofEntry next
        let v ← match p.tag, v with
          | some tag, .null => scalar c (some tag) true []
          | _, v => pure v
        pure (v, next.name p.name v)
      else if next.head? == some '|' || next.head? == some '>' then
        let (cs, next) ← block (next.head? == some '>') indent (next.advance 1)
        let v ← scalar c p.tag false cs
        pure (v, next.name p.name v)
      else
        let (v, after) ← content fuel false indent p next
        if opens && (afterKey? false false c after).isSome then entries fuel c.column [] c
        else pure (v, after)

/-- Reads the items of a list whose dashes stand in a column. -/
def items (fuel : Nat) (column : Nat) (flush : Bool) (done : List Yaml) (c : Cursor) :
    Except ReadError (List Yaml × Cursor) :=
  match fuel with
  | 0 => c.fail .unclosed
  | fuel + 1 => do
    let (v, c) ← value fuel column true false (c.advance 1)
    let c := c.skip false
    let done := done ++ [v]
    if c.atEnd || c.column < column then pure (done, c)
    else if c.column == column && c.atIndicator '-' then items fuel column flush done c
    else if c.column == column && flush then pure (done, c)
    else c.fail .unexpected

/-- Reads the entries of a map whose keys stand in a column. -/
def entries (fuel : Nat) (column : Nat) (done : List (Yaml × Yaml)) (c : Cursor) :
    Except ReadError (Yaml × Cursor) :=
  match fuel with
  | 0 => c.fail .unclosed
  | fuel + 1 => do
    let (e, next) ← if c.atIndicator '?' then explicitEntry fuel column c else entry fuel column c
    let next := next.skip false
    let done := done ++ [e]
    if next.atEnd || next.column < column then pure (← mapOf c .lines done, next)
    else if next.column == column && !next.atIndicator '-' then entries fuel column done next
    else next.fail .unexpected

/-- Reads an entry whose key stands on one line. -/
def entry (fuel : Nat) (column : Nat) (c : Cursor) : Except ReadError ((Yaml × Yaml) × Cursor) :=
  match fuel with
  | 0 => c.fail .unclosed
  | fuel + 1 => do
    let (p, next) ← Properties.read c
    let (k, next) ← content fuel false column p next
    match afterKey? false false c next with
    | none => c.fail .noColon
    | some next => do
      let (v, next) ← value fuel column false true next
      pure ((k, v), next)

/-- Reads an entry whose key stands behind a question mark. -/
def explicitEntry (fuel : Nat) (column : Nat) (c : Cursor) :
    Except ReadError ((Yaml × Yaml) × Cursor) :=
  match fuel with
  | 0 => c.fail .unclosed
  | fuel + 1 => do
    let (k, next) ← value fuel column true true (c.advance 1)
    let next := next.skip false
    if next.column == column && next.atIndicator ':' then
      let (v, next) ← value fuel column true true (next.advance 1)
      pure ((k, v), next)
    else pure ((k, .null), next)

end

/-- Whether a text may hold a character. -/
def isPrintable (c : Char) : Bool :=
  let n := c.toNat
  n == 0x9 || n == 0xa || n == 0xd || n == 0x85 || (0x20 ≤ n && n ≤ 0x7e) ||
    (0xa0 ≤ n && n ≤ 0xfffd) || 0x10000 ≤ n

/-- The first place of a character that a text may not hold. -/
def unprintable? (c : Cursor) : List Char → Option Cursor
  | [] => none
  | d :: rest =>
    if !isPrintable d then some c
    else if isBreak d then unprintable? (c.goto rest (c.line + 1) 0) rest
    else unprintable? (c.advance 1) rest

/-- Goes on behind the directives in front of a document; the flag says whether there are any. -/
def directives : Nat → Bool → Cursor → Bool × Cursor
  | 0, found, c => (found, c)
  | fuel + 1, found, c =>
    let c := c.skip false
    if c.column == 0 && c.head? == some '%' then
      directives fuel true (c.advance (c.rest.takeWhile fun d => !isBreak d).length)
    else (found, c)

/-- Checks that nothing follows a document but marks of its end. -/
def finish : Nat → Cursor → Except ReadError Unit
  | 0, c => c.fail .unclosed
  | fuel + 1, c =>
    let c := c.skip false
    if c.rest.isEmpty then .ok ()
    else if c.atMark '.' then finish fuel (c.advance 3)
    else if c.atMark '-' then c.fail .second
    else c.fail .unexpected

/-- Reads a text as a configuration. -/
def read (text : String) : Except ReadError Yaml :=
  let cs := match text.toList with
    | '\ufeff' :: cs => cs
    | cs => cs
  let fuel := 4 * cs.length + 16
  match unprintable? ⟨cs, 0, 0, []⟩ cs with
  | some c => c.fail .unprintable
  | none => do
    let (directed, c) := directives fuel false ⟨cs, 0, 0, []⟩
    let marked := c.atMark '-'
    if directed && !marked then c.fail .unexpected
    else
      let (v, c) ← value fuel (-1) (!marked) false (if marked then c.advance 3 else c)
      finish fuel c
      pure v

end Parley.Yaml
