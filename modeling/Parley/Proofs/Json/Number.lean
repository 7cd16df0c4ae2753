import Parley.Json.Reader
import Parley.Proofs.Number.Style

/-!
# Numbers that are written

A number is written as a literal behind a sign, or by the name of one that is not finite, in a few
characters that are of no other use.
-/

namespace Parley.Json

open Text (digits isAsciiDigit)

variable {negative : Bool} {c : Char} {e : Int} {l : Literal}

/-- The exponent part has digits that spell the exponent. -/
theorem exponentPart_eq : ∃ ds, ds ≠ [] ∧ (∀ c ∈ ds, isAsciiDigit c = true) ∧
    Text.number ds = e.natAbs ∧
    NumberStyle.exponentPart e = 'e' :: (if e < 0 then '-' else '+') :: ds := by
  have padded : Text.number ('0' :: digits e.natAbs) = e.natAbs := Text.number_digits
  by_cases short : (digits e.natAbs).length < 2
  · refine ⟨'0' :: digits e.natAbs, by simp, ?_, padded, by simp [NumberStyle.exponentPart, short]⟩
    exact List.forall_mem_cons.mpr ⟨rfl, Text.ascii_digits⟩
  · exact ⟨digits e.natAbs, Text.digits_ne_nil, Text.ascii_digits, Text.number_digits,
      by simp [NumberStyle.exponentPart, short]⟩

/-- The sign of a literal as it is written. -/
def sign (negative : Bool) : List Char := if negative then ['-'] else []

/-- A whole number is written as the digits of its magnitude behind a sign. -/
theorem toList_ofInt {n : Int} :
    (Text.ofInt n).toList = sign (decide (n < 0)) ++ digits n.natAbs := by
  cases n with
  | ofNat m =>
      have positive : ¬ (m : Int) < 0 := by omega
      simp [Text.ofInt, Text.toList_ofNat, sign, positive]
  | negSucc m => simp [Text.ofInt, Text.toList_ofNat, sign, Int.negSucc_lt_zero]

/-- A whole number is written as a literal behind a sign. -/
theorem exists_literal_ofInt {n : Int} : ∃ l : Literal, l.Plain ∧ l.isWhole = true ∧
    l.toInt = n ∧ l.whole.length = Binary64.digitCount n.natAbs ∧
      (Text.ofInt n).toList = sign l.negative ++ l.spelling := by
  refine ⟨⟨decide (n < 0), digits n.natAbs, none, none⟩,
    ⟨NumberStyle.tight_digits, fun _ h => nomatch h⟩, rfl, ?_, Binary64.digitCount_eq.symm, ?_⟩
  · simp only [Literal.toInt, Text.number_digits, decide_eq_true_eq]
    split <;> omega
  · simp [toList_ofInt, Literal.spelling, Literal.pointPart, Literal.markPart]

variable (negative) in
/-- A finite number is written as a literal behind a sign. -/
theorem toList_text {style : NumberStyle} {exponent : Fin 2047}
    {fraction : Fin (2 ^ (52 : Nat))} :
    let x := Binary64.finite negative exponent fraction
    ∃ l : Literal, l.Plain ∧ l.isWhole = false ∧ l.toBinary = x ∧
      (style.text x).toList = sign l.negative ++ l.spelling := by
  intro x
  have spells : Literal.Spells (style.magnitude x) negative x :=
    NumberStyle.magnitude_spells
  obtain ⟨l, signed, plain, notWhole, spelled, value⟩ := spells
  refine ⟨l, plain, notWhole, value, ?_⟩
  rw [signed, spelled]
  cases negative <;> simp [NumberStyle.text, sign, x]

section Characters

/-- The characters of which numbers are written. -/
def isNumberChar (c : Char) : Bool :=
  isAsciiDigit c || ['-', '+', '.', 'e', 'N', 'a', 'I', 'n', 'f', 'i', 't', 'y'].contains c

theorem isNumberChar_of_digit (digit : isAsciiDigit c = true) : isNumberChar c = true := by
  simp [isNumberChar, digit]

theorem ne_of_isNumberChar {c' : Char} (first : isNumberChar c = true)
    (second : isNumberChar c' = false) : c ≠ c' := by
  rintro rfl
  cases first.symm.trans second

theorem isNumberChar_sign : ∀ c ∈ sign negative, isNumberChar c = true := by
  cases negative with
  | true => exact List.forall_mem_singleton.mpr rfl
  | false => exact fun _ member => nomatch member

theorem isNumberChar_spelling (plain : l.Plain) : ∀ c ∈ l.spelling, isNumberChar c = true := by
  have whole : ∀ c ∈ l.whole, isNumberChar c = true :=
    fun c member => isNumberChar_of_digit (plain.whole.ascii c member)
  have point : ∀ c ∈ Literal.pointPart l.fraction, isNumberChar c = true := by
    cases behind : l.fraction with
    | none => exact fun _ member => nomatch member
    | some ds =>
        exact List.forall_mem_cons.mpr
          ⟨rfl, fun c member => isNumberChar_of_digit ((plain.fraction ds behind).2 c member)⟩
  have mark : ∀ c ∈ Literal.markPart l.exponent, isNumberChar c = true := by
    cases l.exponent with
    | none => exact fun _ member => nomatch member
    | some e =>
        obtain ⟨ds, -, ascii, -, form⟩ := exponentPart_eq (e := e)
        rw [Literal.markPart, form]
        refine List.forall_mem_cons.mpr ⟨rfl, List.forall_mem_cons.mpr ⟨by split <;> rfl, ?_⟩⟩
        exact fun c member => isNumberChar_of_digit (ascii c member)
  exact List.forall_mem_append.mpr ⟨whole, List.forall_mem_append.mpr ⟨point, mark⟩⟩

theorem isNumberChar_ofInt {n : Int} :
    (Text.ofInt n).toList ≠ [] ∧ ∀ c ∈ (Text.ofInt n).toList, isNumberChar c = true := by
  rw [toList_ofInt]
  refine ⟨by simp [Text.digits_ne_nil], List.forall_mem_append.mpr ⟨isNumberChar_sign, ?_⟩⟩
  exact fun c member => isNumberChar_of_digit (Text.ascii_digits c member)

/-- Numbers are written of these characters in every style that names the others by them. -/
theorem isNumberChar_styled {style : NumberStyle} (nan : style.nan.toList ≠ [] ∧
      ∀ c ∈ style.nan.toList, isNumberChar c = true)
    (infinity : style.infinity.toList ≠ [] ∧ ∀ c ∈ style.infinity.toList, isNumberChar c = true)
    (x : Binary64) : (style.text x).toList ≠ [] ∧
      ∀ c ∈ (style.text x).toList, isNumberChar c = true := by
  cases x with
  | nan => exact nan
  | infinite negative =>
      have written : (style.text (.infinite negative)).toList =
          sign negative ++ style.infinity.toList := by
        cases negative <;> simp [NumberStyle.text, sign]
      rw [written]
      exact ⟨List.append_ne_nil_of_right_ne_nil _ infinity.1,
        List.forall_mem_append.mpr ⟨isNumberChar_sign, infinity.2⟩⟩
  | finite negative exponent fraction =>
      obtain ⟨l, plain, -, -, written⟩ := toList_text negative
      rw [written]
      refine ⟨by simp [Literal.spelling, plain.whole.nonempty], ?_⟩
      exact List.forall_mem_append.mpr ⟨isNumberChar_sign, isNumberChar_spelling plain⟩

theorem isNumberChar_text {x : Binary64} : (NumberStyle.document.text x).toList ≠ [] ∧
    ∀ c ∈ (NumberStyle.document.text x).toList, isNumberChar c = true :=
  isNumberChar_styled ⟨by decide, List.all_eq_true.mp rfl⟩ ⟨by decide, List.all_eq_true.mp rfl⟩ x

end Characters

end Parley.Json
