/-!
# Decimal digits of every script

A number may be written with the digits of any script, also mixed within one number.  Each script
lays out its ten digits in a row, so the class is given by the places of the zeros alone.  The
reading functions below work on lists of characters and leave what they do not consume.
-/

namespace Parley.Text

/-- The code points of the digit zero, in rising order. -/
def zeros : List Nat := [
  0x30, 0x660, 0x6f0, 0x7c0, 0x966, 0x9e6, 0xa66, 0xae6, 0xb66, 0xbe6, 0xc66, 0xce6, 0xd66,
  0xde6, 0xe50, 0xed0, 0xf20, 0x1040, 0x1090, 0x17e0, 0x1810, 0x1946, 0x19d0, 0x1a80, 0x1a90,
  0x1b50, 0x1bb0, 0x1c40, 0x1c50, 0xa620, 0xa8d0, 0xa900, 0xa9d0, 0xa9f0, 0xaa50, 0xabf0,
  0xff10, 0x104a0, 0x10d30, 0x11066, 0x110f0, 0x11136, 0x111d0, 0x112f0, 0x11450, 0x114d0,
  0x11650, 0x116c0, 0x11730, 0x118e0, 0x11950, 0x11c50, 0x11d50, 0x11da0, 0x16a60, 0x16ac0,
  0x16b50, 0x1d7ce, 0x1d7d8, 0x1d7e2, 0x1d7ec, 0x1d7f6, 0x1e140, 0x1e2f0, 0x1e950, 0x1fbf0]

/-- The value of a decimal digit of any script. -/
def digitValue? (c : Char) : Option Nat :=
  if c.toNat < 128 then
    if '0' ≤ c ∧ c ≤ '9' then some (c.toNat - 48) else none
  else
    (zeros.find? fun z => z ≤ c.toNat ∧ c.toNat < z + 10).map (c.toNat - ·)

/-- A decimal digit of any script. -/
def isDigit (c : Char) : Bool := (digitValue? c).isSome

/-- One of the ten digits of the ASCII row. -/
def isAsciiDigit (c : Char) : Bool := decide ('0' ≤ c ∧ c ≤ '9')

/-- The number that a row of digits spells after the digits whose number is `n`.  A character that
is no digit counts as a zero; callers pass digits only. -/
def numberFrom (n : Nat) : List Char → Nat
  | [] => n
  | c :: cs => numberFrom (10 * n + (digitValue? c).getD 0) cs

/-- The number that a row of digits spells. -/
def number (ds : List Char) : Nat := numberFrom 0 ds

@[simp] theorem numberFrom_append (n : Nat) (a b : List Char) :
    numberFrom n (a ++ b) = numberFrom (numberFrom n a) b := by
  induction a generalizing n with
  | nil => rfl
  | cons c cs ih => exact ih _

/-- The value of a hexadecimal digit. -/
def hexValue? (c : Char) : Option Nat :=
  if '0' ≤ c ∧ c ≤ '9' then some (c.toNat - 48)
  else if 'a' ≤ c ∧ c ≤ 'f' then some (c.toNat - 87)
  else if 'A' ≤ c ∧ c ≤ 'F' then some (c.toNat - 55)
  else none

/-- The ASCII digits of a number, most significant first. -/
def digits (n : Nat) : List Char := Nat.toDigits 10 n

/-- The decimal text of a number. -/
def ofNat (n : Nat) : String := Nat.repr n

/-- The decimal text of an integer, with a minus sign in front where it is negative. -/
def ofInt : Int → String
  | .ofNat n => ofNat n
  | .negSucc n => "-" ++ ofNat (n + 1)

/-- The two parts of a text around the longest row of characters of a class at its start. -/
def span (p : Char → Bool) (cs : List Char) : List Char × List Char :=
  (cs.takeWhile p, cs.dropWhile p)

@[simp] theorem span_append (p : Char → Bool) (cs : List Char) :
    (span p cs).1 ++ (span p cs).2 = cs := List.takeWhile_append_dropWhile

end Parley.Text
