import Mathlib.Algebra.Group.Nat.Defs
import Mathlib.Data.List.Basic
import Parley.Text.Digits

/-!
# The digits of a number

The digits that are written of a number spell it, and begin with a zero only if it is zero.
-/

namespace Parley.Text

variable {n m : Nat} {c : Char} {ds rest : List Char}

theorem isAsciiDigit_eq : isAsciiDigit c = c.isDigit := by
  rw [isAsciiDigit, Char.isDigit, Bool.decide_and]
  rfl

theorem isAsciiDigit_iff : isAsciiDigit c = true ↔ 48 ≤ c.toNat ∧ c.toNat ≤ 57 := by
  rw [isAsciiDigit, decide_eq_true_iff]
  rfl

/-- Digits of the ASCII row have the values that the standard library gives them. -/
theorem digitValue?_of_ascii (ascii : isAsciiDigit c = true) :
    digitValue? c = some (c.toNat - 48) := by
  obtain ⟨low, high⟩ := isAsciiDigit_iff.mp ascii
  rw [digitValue?, if_pos (by omega), if_pos (by simpa [isAsciiDigit] using ascii)]

theorem numberFrom_eq (ascii : ∀ c ∈ ds, isAsciiDigit c = true) :
    numberFrom n ds = Nat.ofDigitChars 10 ds n := by
  induction ds generalizing n with
  | nil => rfl
  | cons c ds ih =>
      obtain ⟨here, ascii⟩ := List.forall_mem_cons.mp ascii
      rw [numberFrom, digitValue?_of_ascii here, ih ascii, Nat.ofDigitChars_cons]
      rfl

theorem ascii_digits : ∀ c ∈ digits n, isAsciiDigit c = true := by
  intro c member
  rw [isAsciiDigit_eq]
  exact Nat.isDigit_of_mem_toDigits (by decide) (by decide) member

theorem toList_ofNat : (ofNat n).toList = digits n := by
  rw [ofNat, Nat.repr_eq_ofList_toDigits, String.toList_ofList, digits]

theorem ascii_zeros : ∀ c ∈ List.replicate n '0', isAsciiDigit c = true := by
  intro c member
  rw [List.eq_of_mem_replicate member]
  rfl

/-- The digits of a number spell it. -/
theorem number_digits : number (digits n) = n := by
  rw [number, numberFrom_eq ascii_digits]
  exact Nat.ofDigitChars_ten_toDigits

/-- Zeros behind digits multiply their number. -/
theorem numberFrom_zeros : numberFrom m (List.replicate n '0') = m * 10 ^ n := by
  rw [numberFrom_eq ascii_zeros, Nat.ofDigitChars_replicate_zero, Nat.mul_comm]

theorem digitValue?_lt (digit : digitValue? c = some n) : n < 10 := by
  rw [digitValue?] at digit
  split at digit
  next =>
    split at digit
    next range =>
      cases digit
      have high : c.toNat ≤ 57 := range.2
      omega
    next => cases digit
  next =>
    obtain ⟨first, found, rfl⟩ := Option.map_eq_some_iff.mp digit
    have range := List.find?_some found
    simp only [decide_eq_true_eq] at range
    omega

theorem numberFrom_lt : numberFrom n ds < (n + 1) * 10 ^ ds.length := by
  induction ds generalizing n with
  | nil => simp [numberFrom]
  | cons c ds ih =>
      have value : (digitValue? c).getD 0 < 10 := by
        cases digit : digitValue? c with
        | none => decide
        | some _ => exact digitValue?_lt digit
      calc numberFrom n (c :: ds)
          < (10 * n + (digitValue? c).getD 0 + 1) * 10 ^ ds.length := ih
        _ ≤ (n + 1) * 10 * 10 ^ ds.length := Nat.mul_le_mul_right _ (by omega)
        _ = (n + 1) * 10 ^ (ds.length + 1) := by rw [Nat.mul_assoc, Nat.pow_succ']

/-- A number is bounded by the number of its digits. -/
theorem number_lt : number ds < 10 ^ ds.length := by
  have bound : numberFrom 0 ds < (0 + 1) * 10 ^ ds.length := numberFrom_lt
  simpa only [number, Nat.zero_add, Nat.one_mul] using bound

theorem digits_ne_nil : digits n ≠ [] := Nat.toDigits_ne_nil

/-- The digits of a number that is not zero do not begin with a zero. -/
theorem head_digits (positive : 0 < n) : (digits n).head? ≠ some '0' := by
  induction n using Nat.strongRecOn with
  | ind n ih =>
      by_cases small : n < 10
      · rw [digits, Nat.toDigits_of_lt_base small]
        simpa [Nat.digitChar_eq_zero] using Nat.ne_of_gt positive
      · have shorter : digits n = digits (n / 10) ++ [(n % 10).digitChar] :=
          Nat.toDigits_of_base_le (by decide) (by omega)
        rw [shorter, List.head?_append_of_ne_nil _ digits_ne_nil]
        exact ih (n / 10) (by omega) (by omega)

theorem digits_mul_ten (positive : 0 < n) : digits (n * 10) = digits n ++ ['0'] := by
  have step : digits n ++ digits 0 = digits (10 * n + 0) :=
    Nat.toDigits_append_toDigits (by decide) positive (by decide)
  rw [Nat.mul_comm]
  exact step.symm

theorem isDigit_of_ascii (ascii : isAsciiDigit c = true) : isDigit c = true := by
  rw [isDigit, digitValue?_of_ascii ascii]
  rfl

theorem digits_of_ascii (ascii : isAsciiDigit c = true) : digits (c.toNat - 48) = [c] := by
  obtain ⟨low, high⟩ := isAsciiDigit_iff.mp ascii
  rw [digits, Nat.toDigits_of_lt_base (by omega), List.singleton_inj, ← Char.toNat_inj,
    Nat.toNat_digitChar_of_lt_ten (by omega)]
  omega

/-- Digits behind those of a number that is not zero are the digits of the whole. -/
theorem digits_numberFrom (ascii : ∀ c ∈ ds, isAsciiDigit c = true) (positive : 0 < n) :
    digits (numberFrom n ds) = digits n ++ ds := by
  induction ds generalizing n with
  | nil => simp [numberFrom]
  | cons c ds ih =>
      obtain ⟨here, ascii⟩ := List.forall_mem_cons.mp ascii
      obtain ⟨low, high⟩ := isAsciiDigit_iff.mp here
      have step : digits n ++ digits (c.toNat - 48) = digits (10 * n + (c.toNat - 48)) :=
        Nat.toDigits_append_toDigits (by decide) positive (by omega)
      rw [numberFrom, digitValue?_of_ascii here, Option.getD_some, ih ascii (by omega), ← step,
        digits_of_ascii here, List.append_assoc, List.singleton_append]

/-- A row of characters of a class is taken off up to the first one that is of another class. -/
theorem span_of_stop {p : Char → Bool} (inside : ∀ c ∈ ds, p c = true)
    (stop : ∀ c ∈ rest.head?, p c = false) : span p (ds ++ rest) = (ds, rest) := by
  have ends : rest.takeWhile p = [] ∧ rest.dropWhile p = rest := by
    cases rest with
    | nil => exact ⟨rfl, rfl⟩
    | cons c rest =>
        have here : p c = false := stop c rfl
        simp [here]
  rw [span, List.takeWhile_append_of_pos inside, List.dropWhile_append_of_pos inside, ends.1,
    ends.2, List.append_nil]

theorem span_eq {p : Char → Bool} {cs : List Char} : span p cs = (ds, rest) ↔
    cs = ds ++ rest ∧ (∀ c ∈ ds, p c = true) ∧ ∀ c ∈ rest.head?, p c = false := by
  constructor
  · intro taken
    obtain ⟨rfl, rfl⟩ := Prod.mk.inj taken
    refine ⟨List.takeWhile_append_dropWhile.symm, List.all_eq_true.mp List.all_takeWhile, ?_⟩
    intro c first
    have stop := List.head?_dropWhile_not p cs
    rw [Option.mem_def.mp first] at stop
    exact stop
  · rintro ⟨rfl, inside, stop⟩
    exact span_of_stop inside stop

end Parley.Text
