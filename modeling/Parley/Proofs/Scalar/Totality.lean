import Parley.Proofs.Scalar.Normal

/-!
# Which texts are read at all

Every text is read as a scalar, and what was read is written again, with one exception: a whole
number with more digits than the limit, zeros at its front and digits of any script counted.
Reading it fails and tells how many digits it has.
-/

namespace Parley.Scalar

open Text (isDigit)

variable {text : String} {n : Nat}

/-- Whether a text is a whole number of so many digits, more than are read: a sign or none, and
digits of any script. -/
def IsOverlong (text : String) (n : Nat) : Prop :=
  4300 < n ∧ ∃ negative sign ds, Literal.IsSign negative sign ∧ text.toList = sign ++ ds ∧
    (∀ c ∈ ds, isDigit c = true) ∧ ds.length = n

/-- The whole numbers with too many digits are those among the literals. -/
theorem isOverlong_iff : IsOverlong text n ↔ ∃ l : Literal, l.Written isDigit text.toList ∧
    l.isWhole = true ∧ l.whole.length = n ∧ DigitLimit.limit < n := by
  constructor
  · rintro ⟨long, negative, sign, ds, isSign, spelled, digits, rfl⟩
    have some : ds ++ [] ≠ [] := by
      rintro none
      rw [List.append_nil] at none
      simp [none] at long
    refine ⟨⟨negative, ds, none, none⟩, ⟨digits, fun _ there => (nomatch there), some, sign, [],
      isSign, rfl, ?_⟩, rfl, rfl, long⟩
    rw [spelled, Literal.pointPart, List.nil_append, List.append_nil]
  · rintro ⟨⟨negative, whole, fraction, exponent⟩, written, isWhole, rfl, long⟩
    obtain ⟨rfl, rfl⟩ : fraction = none ∧ exponent = none := by
      simpa [Literal.isWhole] using isWhole
    obtain ⟨sign, rest, isSign, rfl, spelled⟩ := written.parts
    refine ⟨long, negative, sign, whole, isSign, ?_, written.whole, rfl⟩
    rw [spelled, Literal.pointPart, List.nil_append, List.append_nil]

/-- A whole number with too many digits is not read. -/
theorem parse_of_isOverlong (long : IsOverlong text n) : parse text = .error ⟨some n⟩ := by
  obtain ⟨l, written, whole, rfl, long⟩ := isOverlong_iff.mp long
  rw [parse_of_literal written, if_pos whole, if_neg (Nat.not_le.mpr long)]

/-- Any other text is read, and what was read is written. -/
theorem exists_format_of_fits (fits : ∀ n, ¬ IsOverlong text n) :
    ∃ v written, parse text = .ok v ∧ format v = .ok written := by
  obtain ⟨v, read, writable⟩ := exists_parse_of_fits fun l written whole =>
    Nat.not_lt.mp fun long => fits _ (isOverlong_iff.mpr ⟨l, written, whole, rfl, long⟩)
  obtain ⟨written, formatted, -⟩ := exists_format_parse writable
  exact ⟨v, written, read, formatted⟩

/-- Reading a text fails exactly on the whole numbers with more than 4300 digits, and tells how many
there are.  Every other text is read as a scalar of which a text is written. -/
theorem parse_total (text : String) :
    (∀ e, parse text = .error e ↔ ∃ n, IsOverlong text n ∧ e = ⟨some n⟩) ∧
      ((∃ v written, parse text = .ok v ∧ format v = .ok written) ↔ ∀ n, ¬ IsOverlong text n) := by
  by_cases long : ∃ n, IsOverlong text n
  · obtain ⟨n, long⟩ := long
    have failed := parse_of_isOverlong long
    refine ⟨fun e => ⟨fun same => ⟨n, long, ?_⟩, ?_⟩, ?_, fun none => absurd long (none n)⟩
    · exact Except.error.inj (same.symm.trans failed)
    · rintro ⟨m, other, rfl⟩
      exact parse_of_isOverlong other
    · rintro ⟨v, written, read, -⟩
      cases failed.symm.trans read
  · have fits := not_exists.mp long
    obtain ⟨v, written, read, formatted⟩ := exists_format_of_fits fits
    refine ⟨fun e => ⟨fun failed => ?_, ?_⟩, fun _ => fits, fun _ => ⟨v, written, read, formatted⟩⟩
    · cases read.symm.trans failed
    · rintro ⟨n, other, -⟩
      exact absurd other (fits n)

/-- Zeros beyond the limit are a whole number, zero, that is not read. -/
theorem parse_zeros : parse (String.ofList (List.replicate 4301 '0')) = .error ⟨some 4301⟩ := by
  refine parse_of_isOverlong ⟨by decide, false, [], List.replicate 4301 '0', .inl rfl, ?_, ?_, ?_⟩
  · rw [String.toList_ofList, List.nil_append]
  · exact fun c member => Text.isDigit_of_ascii (Text.ascii_zeros c member)
  · rw [List.length_replicate]

end Parley.Scalar
