import Parley.Json.Reader
import Parley.Yaml.Basic

/-!
# Plain scalars

A scalar that stands without quotes is a truth value, a number or null if it is spelled like one,
and else a text.  `read` tells which; `isText` tells which texts may be written without quotes as
far as their reading goes.
-/

namespace Parley.Yaml.Plain

/-- Digits in which underscores are mixed. -/
def isDigitOrGap (c : Char) : Bool := Text.isAsciiDigit c || c == '_'

/-- A text without its underscores. -/
def joined (cs : List Char) : List Char := cs.filter (· != '_')

/-- The truth value of a word. -/
def bool? (cs : List Char) : Option Bool :=
  match String.ofList cs with
  | "true" | "True" | "TRUE" => some true
  | "false" | "False" | "FALSE" => some false
  | _ => none

/-- Whether a text is a spelling of null. -/
def isNull (cs : List Char) : Bool := ["", "~", "null", "Null", "NULL"].contains (String.ofList cs)

/-- Whether digits of a base, mixed with underscores, are all that there is. -/
def isInBase (base : Nat) (cs : List Char) : Bool :=
  !cs.isEmpty && cs.all fun c => c == '_' || (Text.hexValue? c).any (· < base)

/-- The value of digits in a base; underscores do not count. -/
def inBase (base : Nat) (cs : List Char) : Nat :=
  (joined cs).foldl (fun n c => n * base + (Text.hexValue? c).getD 0) 0

/-- Whether a whole number stays in a spelling of its own: in another base than ten, with zeros at
its front, or with underscores. -/
def isSpelled (cs : List Char) : Bool :=
  let magnitude := (Literal.takeSign cs).2
  magnitude.contains '_' || (magnitude.head? == some '0' && 1 < magnitude.length)

/-- The base and the digits of a magnitude. -/
def magnitude : List Char → Nat × List Char
  | '0' :: 'b' :: ds => (2, ds)
  | '0' :: 'o' :: ds => (8, ds)
  | '0' :: 'x' :: ds => (16, ds)
  | ds => (10, ds)

/-- The whole number that a text spells. -/
def int? (cs : List Char) : Option Int :=
  let (negative, ds) := Literal.takeSign cs
  let (base, ds) := magnitude ds
  if cs.head? != some '_' && isInBase base ds then
    let n : Int := inBase base ds
    some (if negative then -n else n)
  else none

/-- Whether a text is an exponent part, with a sign if it needs one. -/
def isExponent (signed : Bool) : List Char → Bool
  | c :: cs =>
    (c == 'e' || c == 'E') &&
      (!signed || cs.head? == some '-' || cs.head? == some '+') &&
      (Literal.readExponent? Text.isAsciiDigit (c :: cs)).isSome
  | [] => false

/-- Whether a text without a sign has the shape of a binary number: digits with a point among or
before them or an exponent behind them.  Behind a fraction alone the exponent needs a sign. -/
def isFraction (cs : List Char) : Bool :=
  let (whole, rest) := Text.span isDigitOrGap cs
  match rest with
  | '.' :: rest =>
    let (fraction, rest) := Text.span isDigitOrGap rest
    if whole.isEmpty then !fraction.isEmpty && (rest.isEmpty || isExponent true rest)
    else whole.head? != some '_' && (rest.isEmpty || isExponent false rest)
  | rest => !whole.isEmpty && whole.head? != some '_' && isExponent false rest

/-- The binary number that a text names. -/
def named? (cs : List Char) : Option Binary64 :=
  let (negative, body) := Literal.takeSign cs
  if [".inf", ".Inf", ".INF"].contains (String.ofList body) then some (.infinite negative)
  else if [".nan", ".NaN", ".NAN"].contains (String.ofList cs) then some .nan
  else none

/-- Whether a text has the shape of a binary number. -/
def isFloat (cs : List Char) : Bool :=
  (named? cs).isSome || isFraction (Literal.takeSign cs).2

/-- The binary number that a text spells. -/
def float? (cs : List Char) : Option Binary64 :=
  match named? cs with
  | some x => some x
  | none =>
    if isFraction (Literal.takeSign cs).2 then
      (Literal.read? Text.isAsciiDigit (joined cs)).map Literal.toBinary
    else none

/-- Takes between `least` and `most` digits off the front. -/
def takeDigits? (least most : Nat) (cs : List Char) : Option (List Char) :=
  let n := ((cs.take most).takeWhile Text.isAsciiDigit).length
  if least ≤ n then some (cs.drop n) else none

/-- Takes a character off the front. -/
def takeChar? (c : Char) : List Char → Option (List Char)
  | d :: cs => if c == d then some cs else none
  | [] => none

/-- Whether a text is a zone of time behind blanks, or nothing. -/
def isZone (cs : List Char) : Bool :=
  let zone := cs.dropWhile fun c => c == ' ' || c == '\t'
  match zone with
  | [] => cs.isEmpty
  | ['Z'] => true
  | c :: rest =>
    (c == '-' || c == '+') &&
      match takeDigits? 1 2 rest with
      | some [] => true
      | some (':' :: minutes) => takeDigits? 2 2 minutes == some []
      | _ => false

/-- Whether a text is a time of day with a zone, as it stands behind a date. -/
def isTime (cs : List Char) : Bool :=
  let start := match cs with
    | 'T' :: rest => some rest
    | 't' :: rest => some rest
    | c :: rest =>
      if c == ' ' || c == '\t' then some (rest.dropWhile fun c => c == ' ' || c == '\t') else none
    | [] => none
  let seconds := (((start.bind (takeDigits? 1 2)).bind (takeChar? ':')).bind
    (takeDigits? 2 2)).bind (takeChar? ':')
  match seconds.bind (takeDigits? 2 2) with
  | some ('.' :: rest) => isZone (rest.dropWhile Text.isAsciiDigit)
  | some rest => isZone rest
  | none => false

/-- Whether a text is a date, or a date with a time of day. -/
def isDate (cs : List Char) : Bool :=
  let month := (takeDigits? 4 4 cs).bind (takeChar? '-')
  let long := ((month.bind (takeDigits? 2 2)).bind (takeChar? '-')).bind (takeDigits? 2 2)
  let short := ((month.bind (takeDigits? 1 2)).bind (takeChar? '-')).bind (takeDigits? 1 2)
  long == some [] ||
    match short with
    | some rest => isTime rest
    | none => false

/-- The marks that have a reading of their own. -/
def isMark (cs : List Char) : Bool := ["<<", "="].contains (String.ofList cs)

/-- The value of a whole number.  A decimal one may not have too many digits. -/
def readInt (cs : List Char) (n : Int) : Except DigitLimit Yaml :=
  let ds := joined (Literal.takeSign cs).2
  if ds.all Text.isAsciiDigit && DigitLimit.limit < ds.length then .error ⟨some ds.length⟩
  else .ok (.int n (if isSpelled cs then some (String.ofList cs) else none))

/-- The value of a scalar without quotes. -/
def read (cs : List Char) : Except DigitLimit Yaml :=
  if isNull cs then .ok .null
  else match bool? cs, float? cs, int? cs with
    | some b, _, _ => .ok (.bool b)
    | none, some x, _ => .ok (.float x (if x.isFinite then some (String.ofList cs) else none))
    | none, none, some n => readInt cs n
    | none, none, none => .ok (.text (String.ofList cs))

/-- Whether a text has no reading but itself. -/
def isText (cs : List Char) : Bool :=
  !isNull cs && (bool? cs).isNone && !isFloat cs && (int? cs).isNone && !isDate cs &&
    !isMark cs

end Parley.Yaml.Plain
