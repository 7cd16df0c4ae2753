import Parley.Text.Digits

/-!
# Reading octets as text

Characters come as sequences of one to four octets.  A flaw names the octets of a sequence up to
the one at which it could not go on, and says whether its first octet starts no sequence, an octet
does not continue it, or the data end inside it.
-/

namespace Parley.Text

/-- Why octets are not a text. -/
inductive Utf8Flaw where
  | start
  | continuation
  | ending
deriving DecidableEq

/-- A flaw with the octets of the broken sequence and their position. -/
structure Utf8Error where
  flaw : Utf8Flaw
  position : Nat
  octets : List UInt8
deriving DecidableEq

namespace Utf8Error

/-- The words for a flaw. -/
def reason : Utf8Flaw → String
  | .start => "invalid start byte"
  | .continuation => "invalid continuation byte"
  | .ending => "unexpected end of data"

/-- Two hexadecimal digits. -/
def hexOctet (b : UInt8) : String :=
  let ds := Nat.toDigits 16 b.toNat
  String.ofList (if ds.length < 2 then '0' :: ds else ds)

/-- What is reported about octets that are not a text. -/
def message (e : Utf8Error) : String :=
  let what := match e.octets with
    | [b] => "byte 0x" ++ hexOctet b ++ " in position " ++ ofNat e.position
    | bs => "bytes in position " ++ ofNat e.position ++ "-" ++
        ofNat (e.position + bs.length - 1)
  "'utf-8' codec can't decode " ++ what ++ ": " ++ reason e.flaw

end Utf8Error

/-- An octet that continues a sequence. -/
def isContinuation (b : UInt8) : Bool := decide (0x80 ≤ b ∧ b < 0xc0)

/-- Whether the second octet may follow the first one: some would spell a character in more octets
than it needs, a surrogate, or a number beyond the characters. -/
def mayFollow (first second : UInt8) : Bool :=
  isContinuation second &&
    !(first == 0xe0 && second < 0xa0) && !(first == 0xed && 0xa0 ≤ second) &&
    !(first == 0xf0 && second < 0x90) && !(first == 0xf4 && 0x90 ≤ second)

/-- The number of octets in the sequence that an octet starts. -/
def sequenceLength? (b : UInt8) : Option Nat :=
  if b < 0x80 then some 1
  else if b < 0xc2 then none
  else if b < 0xe0 then some 2
  else if b < 0xf0 then some 3
  else if b < 0xf5 then some 4
  else none

/-- How many octets of a sequence are in order, out of those that it needs. -/
def goodOctets (first : UInt8) (needed : Nat) (rest : List UInt8) : Nat :=
  match rest with
  | second :: more =>
    if mayFollow first second then
      2 + ((more.take (needed - 2)).takeWhile isContinuation).length
    else 1
  | [] => 1

/-- The number of a sequence of octets. -/
def codePoint (first : UInt8) (rest : List UInt8) : Nat :=
  let lead := match rest.length with
    | 0 => first.toNat
    | 1 => first.toNat % 0x20
    | 2 => first.toNat % 0x10
    | _ => first.toNat % 8
  rest.foldl (fun n b => n * 64 + b.toNat % 64) lead

/-- Reads octets from a position on; `done` holds the characters before it, last first. -/
def decodeFrom (position : Nat) (done : List Char) : List UInt8 → Except Utf8Error String
  | [] => .ok (String.ofList done.reverse)
  | b :: bs =>
    match sequenceLength? b with
    | none => .error ⟨.start, position, [b]⟩
    | some 1 => decodeFrom (position + 1) (Char.ofNat b.toNat :: done) bs
    | some needed =>
      let good := goodOctets b needed bs
      if good < needed then
        let flaw := if bs.length < good then Utf8Flaw.ending else .continuation
        .error ⟨flaw, position, b :: bs.take (good - 1)⟩
      else
        decodeFrom (position + needed) (Char.ofNat (codePoint b (bs.take (needed - 1))) :: done)
          (bs.drop (needed - 1))
termination_by bs => bs.length
decreasing_by all_goals (simp only [List.length_cons, List.length_drop]; omega)

/-- Reads octets as a text. -/
def decode (octets : List UInt8) : Except Utf8Error String := decodeFrom 0 [] octets

/-- Gives every kind of line end the one form that texts use. -/
def plainLines : List Char → List Char
  | [] => []
  | '\r' :: '\n' :: cs => '\n' :: plainLines cs
  | c :: cs => (if c == '\r' then '\n' else c) :: plainLines cs

end Parley.Text
