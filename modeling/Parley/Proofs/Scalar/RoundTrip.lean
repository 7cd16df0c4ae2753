import Parley.Proofs.Number.Literal
import Parley.Proofs.Number.Whole
import Parley.Scalar

/-!
# Scalars that are written and read back

The texts of the five kinds of scalars do not get into each other's way.  A whole number is written
as a literal with neither a point nor an exponent, another binary number as a literal with one of
them, and the constants as words that are no literals.  A binary number that is a whole one is
written as that and comes back as that.
-/

namespace Parley.Scalar

open Text (isDigit)
open Binary64 (unitsOfOne digitCount)

variable {v : Scalar} {text : String} {l : Literal} {n : Int} {x : Binary64}

section Reading

variable (written : l.Written isDigit text.toList)

include written

theorem beq_of_literal {word : String} (unread : Literal.read? isDigit word.toList = none) :
    (text == word) = false := by
  rw [beq_eq_false_iff_ne]
  rintro rfl
  cases unread.symm.trans (Literal.read?_isDigit.mpr written)

theorem ofWord_of_literal : ofWord text = .text text := by
  have affirmed : (text == "true") = false := beq_of_literal written rfl
  have denied : (text == "false") = false := beq_of_literal written rfl
  simp [ofWord, affirmed, denied]

/-- What a literal is read as: a whole number, a finite binary number or, where that would be too
great, the text. -/
theorem parse_of_literal : parse text =
    if l.isWhole then
      if l.whole.length ≤ DigitLimit.limit then .ok (.int l.toInt)
      else .error ⟨some l.whole.length⟩
    else .ok (if l.toBinary.isFinite then .float l.toBinary else .text text) := by
  have other : (text == "null") = false := beq_of_literal written rfl
  have read := Literal.read?_isDigit.mpr written
  simp only [parse, other, read, ofWord_of_literal written, Bool.false_eq_true, if_false]

end Reading

section Writing

theorem write_of_short (short : digitCount n.natAbs ≤ DigitLimit.limit) :
    DigitLimit.write n = .ok (Text.ofInt n) := if_pos short

theorem parse_ofInt (short : digitCount n.natAbs ≤ DigitLimit.limit) :
    parse (Text.ofInt n) = .ok (.int n) := by
  obtain ⟨l, plain, isWhole, value, length, spelled⟩ := Json.exists_literal_ofInt (n := n)
  have written : l.Written isDigit (Text.ofInt n).toList := spelled ▸ plain.written
  rw [parse_of_literal written, if_pos isWhole, if_pos (length ▸ short), value]

theorem parse_text (finite : x.isFinite = true) :
    parse (NumberStyle.plain.text x) = .ok (.float x) := by
  cases x with
  | finite negative exponent fraction =>
      obtain ⟨l, plain, notWhole, value, spelled⟩ := Json.toList_text negative
      have written : l.Written isDigit (NumberStyle.plain.text _).toList := spelled ▸ plain.written
      rw [parse_of_literal written, notWhole, value]
      rfl
  | _ => cases finite

end Writing

/-- Whether a scalar can be written so that it is read back: a whole number is short, a binary
number is finite and a text has no other reading. -/
def Writable : Scalar → Prop
  | .int n => digitCount n.natAbs ≤ DigitLimit.limit
  | .float x => x.isFinite = true
  | .text s => parse s = .ok (.text s)
  | _ => True

/-- The scalar in its simplest form, in which a binary number that is a whole one is that. -/
def settled : Scalar → Scalar
  | .float x => (x.toInt?.map .int).getD (.float x)
  | v => v

theorem settled_of_whole (whole : x.toInt? = some n) : settled (.float x) = .int n := by
  rw [settled, whole]
  rfl

theorem settled_of_fractional (fractional : x.toInt? = none) : settled (.float x) = .float x := by
  rw [settled, fractional]
  rfl

/-- The simplest form has the same text. -/
theorem format_settled (v : Scalar) : format v.settled = format v := by
  cases v with
  | float x =>
      cases whole : x.toInt? with
      | none => rw [settled_of_fractional whole]
      | some n => simp only [settled_of_whole whole, format, whole]
  | _ => rfl

/-- What is written of a scalar is read as its simplest form. -/
theorem exists_format_parse (writable : v.Writable) :
    ∃ text, format v = .ok text ∧ parse text = .ok v.settled := by
  cases v with
  | null => exact ⟨"null", rfl, rfl⟩
  | bool b =>
      cases b with
      | true => exact ⟨"true", rfl, rfl⟩
      | false => exact ⟨"false", rfl, rfl⟩
  | int n => exact ⟨_, write_of_short writable, parse_ofInt writable⟩
  | float x =>
      cases whole : x.toInt? with
      | none =>
          rw [settled_of_fractional whole]
          exact ⟨_, by simp only [format, whole], parse_text writable⟩
      | some n =>
          have short : digitCount n.natAbs ≤ DigitLimit.limit :=
            Nat.le_trans (Binary64.digitCount_toInt? whole) (by decide)
          rw [settled_of_whole whole]
          exact ⟨_, by simp only [format, whole, write_of_short short], parse_ofInt short⟩
  | text s => exact ⟨s, rfl, writable⟩

section Value

/-- The number that a scalar is, in units of `2 ^ -1074`. -/
def units? : Scalar → Option Int
  | .int n => some (n * unitsOfOne)
  | .float x => if x.isFinite then some x.signedUnits else none
  | _ => none

/-- Whether two scalars have the same value: they are the same number, whole or binary, or the same
in all else. -/
def SameValue (v w : Scalar) : Prop := v = w ∨ ∃ n, v.units? = some n ∧ w.units? = some n

theorem settled_sameValue (v : Scalar) : v.settled.SameValue v := by
  cases v with
  | float x =>
      cases whole : x.toInt? with
      | none => exact .inl (settled_of_fractional whole)
      | some n =>
          obtain ⟨finite, same⟩ := Binary64.toInt?_eq_some.mp whole
          refine .inr ⟨n * unitsOfOne, by rw [settled_of_whole whole, units?], ?_⟩
          rw [units?, if_pos finite, same]
  | _ => exact .inl rfl

end Value

/-- A scalar that can be written is read back from its text as the same value.  A binary number that
is a whole one comes back as that whole number, and all else as itself. -/
theorem parse_format {v : Scalar} (writable : v.Writable) :
    ∃ text w, format v = .ok text ∧ parse text = .ok w ∧ w.SameValue v ∧
      (∀ x (n : Int), v = .float x → x.signedUnits = n * unitsOfOne → w = .int n) ∧
      ((∀ x (n : Int), v = .float x → x.signedUnits ≠ n * unitsOfOne) → w = v) := by
  obtain ⟨text, written, read⟩ := exists_format_parse writable
  refine ⟨text, v.settled, written, read, settled_sameValue v, ?_, fun fractional => ?_⟩
  · rintro x n rfl whole
    exact settled_of_whole (Binary64.toInt?_eq_some.mpr ⟨writable, whole⟩)
  · cases v with
    | float x =>
        have none : x.toInt? = none := Option.eq_none_iff_forall_ne_some.mpr fun n whole =>
          fractional x n rfl (Binary64.toInt?_eq_some.mp whole).2
        exact settled_of_fractional none
    | _ => rfl

/-- Minus zero comes back as the whole number, a half as itself, and so does a sign alone. -/
theorem parse_format_of_samples :
    let minusZero := Binary64.finite true 0 0
    let half := Binary64.finite false 1022 0
    (float minusZero).Writable ∧ (float half).Writable ∧ (Scalar.text "-").Writable ∧
      minusZero.signedUnits = 0 * unitsOfOne ∧ half.toInt? = none ∧
      (∃ text, format (.float minusZero) = .ok text ∧ parse text = .ok (.int 0)) ∧
      (∃ text, format (.float half) = .ok text ∧ parse text = .ok (.float half)) ∧
      ∃ text, format (.text "-") = .ok text ∧ parse text = .ok (.text "-") := by
  intro minusZero half
  have writable : (float minusZero).Writable ∧ (float half).Writable ∧ (Scalar.text "-").Writable :=
    ⟨rfl, rfl, rfl⟩
  have zero : minusZero.signedUnits = 0 * unitsOfOne := by decide +kernel
  have fractional : half.toInt? = none := by decide +kernel
  obtain ⟨nought, _, written₁, read₁, -, whole, -⟩ := parse_format writable.1
  obtain ⟨point, _, written₂, read₂, -, -, same₂⟩ := parse_format writable.2.1
  obtain ⟨dash, _, written₃, read₃, -, -, same₃⟩ := parse_format writable.2.2
  obtain rfl := whole minusZero 0 rfl zero
  obtain rfl := same₂ <| by
    rintro _ n ⟨⟩ multiple
    cases fractional.symm.trans (Binary64.toInt?_eq_some.mpr ⟨rfl, multiple⟩)
  obtain rfl := same₃ fun _ _ other => nomatch other
  exact ⟨writable.1, writable.2.1, writable.2.2, zero, fractional, ⟨nought, written₁, read₁⟩,
    ⟨point, written₂, read₂⟩, ⟨dash, written₃, read₃⟩⟩

end Parley.Scalar
