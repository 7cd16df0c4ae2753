import Parley.Json.Basic

/-!
# Reading JSON text

A reader takes characters from the front of a text and answers the value with what is left.  A
flaw is located by the number of characters that are left at its place, which needs no counting on
the way; `ReadError.message` turns it into a line and a column.

Besides the standard grammar the names `NaN`, `Infinity` and `-Infinity` are numbers.  A literal
with neither a point nor an exponent is a whole number of any size up to a limit of digits.  A lone
half of a surrogate pair, which is no character, reads as the replacement character.
-/

namespace Parley

namespace Json

/-- What is wrong at a place of a text. -/
inductive Flaw where
  | byteOrderMark
  | value
  | name
  | colon
  | comma
  | unterminated
  | control
  | escape
  | codePoint
  | extra
deriving DecidableEq

/-- What is reported about a flaw. -/
def Flaw.message : Flaw → String
  | .byteOrderMark => "Unexpected UTF-8 BOM (decode using utf-8-sig)"
  | .value => "Expecting value"
  | .name => "Expecting property name enclosed in double quotes"
  | .colon => "Expecting ':' delimiter"
  | .comma => "Expecting ',' delimiter"
  | .unterminated => "Unterminated string starting at"
  | .control => "Invalid control character at"
  | .escape => "Invalid \\escape"
  | .codePoint => "Invalid \\uXXXX escape"
  | .extra => "Extra data"

/-- Why a text is not read. -/
inductive ReadError where
  /-- A flaw with the number of characters from its place to the end of the text. -/
  | malformed (flaw : Flaw) (left : Nat)
  /-- A whole number that is too long. -/
  | tooLong (limit : DigitLimit)

/-- Fails with a flaw at the front of what is left. -/
def flawAt {α : Type} (flaw : Flaw) (cs : List Char) : Except ReadError α :=
  .error (.malformed flaw cs.length)

/-- The blanks between tokens. -/
def isGap (c : Char) : Bool := c == ' ' || c == '\t' || c == '\n' || c == '\r'

/-- Leaves out the blanks at the front. -/
def skip (cs : List Char) : List Char := cs.dropWhile isGap

/-- The number of four hexadecimal digits. -/
def hexNumber? (a b c d : Char) : Option Nat := do
  let a ← Text.hexValue? a
  let b ← Text.hexValue? b
  let c ← Text.hexValue? c
  let d ← Text.hexValue? d
  pure (((a * 16 + b) * 16 + c) * 16 + d)

/-- The character that a letter behind a backslash stands for. -/
def escaped? : Char → Option Char
  | '"' => some '"'
  | '\\' => some '\\'
  | '/' => some '/'
  | 'b' => some '\x08'
  | 'f' => some '\x0c'
  | 'n' => some '\n'
  | 'r' => some '\r'
  | 't' => some '\t'
  | _ => none

/-- The first half of a surrogate pair. -/
def isHighHalf (n : Nat) : Bool := decide (0xd800 ≤ n ∧ n < 0xdc00)

/-- The second half of a surrogate pair. -/
def isLowHalf (n : Nat) : Bool := decide (0xdc00 ≤ n ∧ n < 0xe000)

/-- The character of a code unit that stands alone. -/
def ofUnit (n : Nat) : Char :=
  if isHighHalf n || isLowHalf n then Char.ofNat 0xfffd else Char.ofNat n

/-- The character of a surrogate pair. -/
def ofPair (high low : Nat) : Char :=
  Char.ofNat (0x10000 + (high - 0xd800) * 1024 + (low - 0xdc00))

/-- The code unit of four digits behind `\u`; it is complete only if another character follows. -/
def codeUnit (cs : List Char) : Except ReadError Nat :=
  match cs with
  | 'u' :: a :: b :: c :: d :: _ :: _ =>
    match hexNumber? a b c d with
    | some unit => .ok unit
    | none => flawAt .codePoint cs
  | _ => flawAt .codePoint cs

/-- The second half of a pair, if an escaped code unit follows that is one. -/
def lowHalf? (cs : List Char) : Except ReadError (Option Nat) :=
  match cs with
  | '\\' :: 'u' :: rest =>
    if rest.length < 5 then .ok none
    else do
      let unit ← codeUnit ('u' :: rest)
      pure (if isLowHalf unit then some unit else none)
  | _ => .ok none

/-- The character of an escape and the number of characters behind the backslash that spell it. -/
def escape (opening : Nat) (cs : List Char) : Except ReadError (Char × Nat) :=
  match cs with
  | [] => .error (.malformed .unterminated opening)
  | 'u' :: rest => do
    let unit ← codeUnit cs
    if isHighHalf unit then
      match ← lowHalf? (rest.drop 4) with
      | some low => pure (ofPair unit low, 11)
      | none => pure (ofUnit unit, 5)
    else pure (ofUnit unit, 5)
  | c :: _ =>
    match escaped? c with
    | some c => .ok (c, 1)
    | none => flawAt .escape ('\\' :: cs)

/-- Reads a text behind its opening quote.  `opening` is the number of characters from that quote
to the end, `done` holds the characters before the front, last first, and the next `spent`
characters are parts of an escape that is in `done` already. -/
def readText (opening : Nat) (done : List Char) (spent : Nat) :
    List Char → Except ReadError (String × List Char)
  | [] => .error (.malformed .unterminated opening)
  | c :: cs =>
    match spent with
    | spent + 1 => readText opening done spent cs
    | 0 =>
      if c == '"' then .ok (String.ofList done.reverse, cs)
      else if c == '\\' then
        match escape opening cs with
        | .ok (e, spent) => readText opening (e :: done) spent cs
        | .error e => .error e
      else if c.toNat < 0x20 then flawAt .control (c :: cs)
      else readText opening (c :: done) 0 cs

/-- Takes the whole part of a number: a single zero, or digits that do not begin with one. -/
def takeWhole? : List Char → Option (List Char × List Char)
  | '0' :: cs => some (['0'], cs)
  | cs =>
    let (ds, rest) := Text.span Text.isAsciiDigit cs
    if ds.isEmpty then none else some (ds, rest)

/-- Takes a point and the digits behind it, if there are any. -/
def takeFraction (cs : List Char) : Option (List Char) × List Char :=
  match cs with
  | '.' :: rest =>
    let (ds, rest) := Text.span Text.isAsciiDigit rest
    if ds.isEmpty then (none, cs) else (some ds, rest)
  | _ => (none, cs)

/-- Takes an exponent, if there are digits in it. -/
def takeExponent (cs : List Char) : Option Int × List Char :=
  match cs with
  | c :: rest =>
    if c == 'e' || c == 'E' then
      let (negative, rest) := Literal.takeSign rest
      let (ds, rest) := Text.span Text.isAsciiDigit rest
      if ds.isEmpty then (none, cs)
      else
        let n : Int := Text.number ds
        (some (if negative then -n else n), rest)
    else (none, cs)
  | [] => (none, cs)

/-- Reads a number in digits. -/
def readDigits (limit : Nat) (start : List Char) : Except ReadError (Json × List Char) :=
  let (negative, cs) := match start with
    | '-' :: cs => (true, cs)
    | cs => (false, cs)
  match takeWhole? cs with
  | none => flawAt .value start
  | some (whole, cs) =>
    let (fraction, cs) := takeFraction cs
    let (exponent, cs) := takeExponent cs
    let literal : Literal := ⟨negative, whole, fraction, exponent⟩
    if literal.isWhole then
      if whole.length ≤ limit then .ok (.int literal.toInt, cs)
      else .error (.tooLong ⟨some whole.length⟩)
    else .ok (.float literal.toBinary, cs)

/-- Reads a constant by its name, or else a number in digits. -/
def readAtom (limit : Nat) (cs : List Char) : Except ReadError (Json × List Char) :=
  match cs with
  | 'n' :: 'u' :: 'l' :: 'l' :: rest => .ok (.null, rest)
  | 't' :: 'r' :: 'u' :: 'e' :: rest => .ok (.bool true, rest)
  | 'f' :: 'a' :: 'l' :: 's' :: 'e' :: rest => .ok (.bool false, rest)
  | 'N' :: 'a' :: 'N' :: rest => .ok (.float .nan, rest)
  | 'I' :: 'n' :: 'f' :: 'i' :: 'n' :: 'i' :: 't' :: 'y' :: rest =>
    .ok (.float (.infinite false), rest)
  | '-' :: 'I' :: 'n' :: 'f' :: 'i' :: 'n' :: 'i' :: 't' :: 'y' :: rest =>
    .ok (.float (.infinite true), rest)
  | _ => readDigits limit cs

mutual

/-- Reads a value.  Each of the three readers gives one unit of `fuel` to each call it makes, and
no two calls begin at the same place more than twice, so twice the length of the text suffices. -/
def readValue (limit : Nat) : Nat → List Char → Except ReadError (Json × List Char)
  | 0, cs => flawAt .value cs
  | fuel + 1, cs =>
    match cs with
    | '"' :: rest => do
      let (s, rest) ← readText cs.length [] 0 rest
      pure (.str s, rest)
    | '[' :: rest =>
      match skip rest with
      | ']' :: rest => .ok (.arr [], rest)
      | rest => readItems limit fuel [] rest
    | '\x7b' :: rest =>
      match skip rest with
      | '\x7d' :: rest => .ok (.obj [], rest)
      | rest => readFields limit fuel [] rest
    | _ => readAtom limit cs

/-- Reads the items of an array from the front of an item on; `done` holds those before it, last
first. -/
def readItems (limit : Nat) : Nat → List Json → List Char → Except ReadError (Json × List Char)
  | 0, _, cs => flawAt .value cs
  | fuel + 1, done, cs => do
    let (v, rest) ← readValue limit fuel cs
    match skip rest with
    | ']' :: rest => .ok (.arr (v :: done).reverse, rest)
    | ',' :: rest => readItems limit fuel (v :: done) (skip rest)
    | rest => flawAt .comma rest

/-- Reads the fields of an object from the front of a key on; `done` holds those before it, last
first. -/
def readFields (limit : Nat) :
    Nat → List (String × Json) → List Char → Except ReadError (Json × List Char)
  | 0, _, cs => flawAt .value cs
  | fuel + 1, done, cs =>
    match cs with
    | '"' :: rest => do
      let (k, rest) ← readText cs.length [] 0 rest
      match skip rest with
      | ':' :: rest =>
        let (v, rest) ← readValue limit fuel (skip rest)
        match skip rest with
        | '\x7d' :: rest => .ok (.obj (Fields.ofPairs ((k, v) :: done).reverse), rest)
        | ',' :: rest => readFields limit fuel ((k, v) :: done) (skip rest)
        | rest => flawAt .comma rest
      | rest => flawAt .colon rest
    | _ => flawAt .name cs

end

/-- Reads a whole text as one value, with blanks around it. -/
def readChars (limit : Nat) (cs : List Char) : Except ReadError Json :=
  match cs with
  | '\ufeff' :: _ => flawAt .byteOrderMark cs
  | _ => do
    let (v, rest) ← readValue limit (2 * cs.length + 2) (skip cs)
    match skip rest with
    | [] => .ok v
    | rest => flawAt .extra rest

/-- Reads a whole text as one value. -/
def read (text : String) : Except ReadError Json := readChars DigitLimit.limit text.toList

/-- The place of the end of a text, in words: line and column count from one, characters from
zero. -/
def placeAfter (cs : List Char) : String :=
  let line := cs.count '\n' + 1
  let column := (cs.reverse.takeWhile (· != '\n')).length + 1
  "line " ++ Text.ofNat line ++ " column " ++ Text.ofNat column ++
    " (char " ++ Text.ofNat cs.length ++ ")"

/-- What is reported about a text that is not read. -/
def ReadError.message (text : String) : ReadError → String
  | .malformed flaw left =>
    let cs := text.toList
    flaw.message ++ ": " ++ placeAfter (cs.take (cs.length - left))
  | .tooLong e => e.message

end Json

end Parley
