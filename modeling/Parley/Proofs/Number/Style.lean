import Parley.Number.Style
import Parley.Proofs.Number.Shortest

/-!
# The text of a binary number is a literal of it

In either form the text of a finite number is that of a decimal literal with a point or an exponent,
and the number of the literal is the number itself.
-/

namespace Parley

-- Powers of natural numbers are those of the core library, whatever else is imported.
attribute [local instance (2000)] instPowNat

/-- Whether a row of digits begins with no zero to spare. -/
structure Text.Tight (ds : List Char) : Prop where
  nonempty : ds ≠ []
  ascii : ∀ c ∈ ds, Text.isAsciiDigit c = true
  head : ds = ['0'] ∨ ds.head? ≠ some '0'

namespace Text

variable {ds : List Char}

/-- Digits that begin with no zero to spare are those of their number. -/
theorem digits_number (tight : Tight ds) : digits (number ds) = ds := by
  rcases tight.head with rfl | head
  · rfl
  · obtain ⟨c, ds, rfl⟩ := List.exists_cons_of_ne_nil tight.nonempty
    obtain ⟨here, ascii⟩ := List.forall_mem_cons.mp tight.ascii
    have positive : 0 < c.toNat - 48 := by
      have other : c.toNat ≠ 48 := fun same => head (congrArg some (Char.toNat_inj.mp same))
      have low := (isAsciiDigit_iff.mp here).1
      omega
    rw [number, numberFrom, digitValue?_of_ascii here, Option.getD_some, Nat.mul_zero, Nat.zero_add,
      digits_numberFrom ascii positive, digits_of_ascii here, List.singleton_append]

theorem number_pos (tight : Tight ds) (some : ds ≠ ['0']) : 0 < number ds := by
  refine Nat.pos_of_ne_zero fun zero => some ?_
  rw [← digits_number tight, zero]
  rfl

end Text

namespace Literal

variable {l : Literal}

/-- The point and the digits behind it. -/
def pointPart : Option (List Char) → List Char
  | none => []
  | some ds => '.' :: ds

/-- The exponent with its mark. -/
def markPart : Option Int → List Char
  | none => []
  | some e => NumberStyle.exponentPart e

/-- The characters of a literal behind its sign. -/
def spelling (l : Literal) : List Char := l.whole ++ (pointPart l.fraction ++ markPart l.exponent)

/-- Whether a literal is written as numbers are: without needless zeros, and with digits behind a
point. -/
structure Plain (l : Literal) : Prop where
  whole : Text.Tight l.whole
  fraction : ∀ ds ∈ l.fraction, ds ≠ [] ∧ ∀ c ∈ ds, Text.isAsciiDigit c = true

/-- Whether characters are the spelling of a literal with a sign that stands for a binary number. -/
def Spells (cs : List Char) (negative : Bool) (x : Binary64) : Prop :=
  ∃ l : Literal, l.negative = negative ∧ l.Plain ∧ l.isWhole = false ∧ l.spelling = cs ∧
    l.toBinary = x

variable {negative : Bool} {whole ds : List Char} {e : Int}

variable (negative) in
/-- Digits around a point are a literal. -/
theorem spells_point (tight : Text.Tight whole) (nonempty : ds ≠ [])
    (ascii : ∀ c ∈ ds, Text.isAsciiDigit c = true) :
    Spells (whole ++ '.' :: ds) negative
      (Binary64.ofDecimal negative (Text.number (whole ++ ds)) (-ds.length)) := by
  refine ⟨⟨negative, whole, some ds, none⟩, rfl, ⟨tight, ?_⟩, rfl,
    by simp [spelling, pointPart, markPart], ?_⟩
  · rintro _ ⟨⟩
    exact ⟨nonempty, ascii⟩
  · simp [toBinary]

variable (negative) in
/-- A digit, others behind a point if there are any, and an exponent are a literal. -/
theorem spells_exponent {c : Char} (ascii : ∀ c' ∈ c :: ds, Text.isAsciiDigit c' = true) :
    Spells ((if ds.isEmpty then [c] else c :: '.' :: ds) ++ NumberStyle.exponentPart e) negative
      (Binary64.ofDecimal negative (Text.number (c :: ds)) (e - ds.length)) := by
  have tight : Text.Tight [c] := by
    refine ⟨by simp, by simpa using ascii c (by simp), ?_⟩
    by_cases zero : c = '0'
    · exact .inl (congrArg (fun c => [c]) zero)
    · exact .inr (by simpa using zero)
  cases ds with
  | nil =>
      refine ⟨⟨negative, [c], none, some e⟩, rfl, ⟨tight, fun _ h => nomatch h⟩, rfl, ?_, ?_⟩
      · simp [spelling, pointPart, markPart]
      · simp [toBinary]
  | cons c' ds =>
      refine ⟨⟨negative, [c], some (c' :: ds), some e⟩, rfl, ⟨tight, ?_⟩, rfl, ?_, ?_⟩
      · rintro _ ⟨⟩
        exact ⟨by simp, (List.forall_mem_cons.mp ascii).2⟩
      · simp [spelling, pointPart, markPart]
      · simp [toBinary]

end Literal

namespace NumberStyle

open Text (digits)
open Literal (Spells)

variable {style : NumberStyle} {negative : Bool} {d : Nat} {e : Int}

theorem tight_digits {n : Nat} : Text.Tight (digits n) where
  nonempty := Text.digits_ne_nil
  ascii := Text.ascii_digits
  head := by
    rcases Nat.eq_zero_or_pos n with rfl | positive
    · exact .inl rfl
    · exact .inr (Text.head_digits positive)

variable (negative) in
/-- A number below one has zeros between the point and its digits. -/
theorem spells_below {k : Nat} :
    Spells (['0', '.'] ++ List.replicate k '0' ++ digits d) negative
      (Binary64.ofDecimal negative d (-(k + (digits d).length : Int))) := by
  have tight : Text.Tight ['0'] := ⟨by simp, by simp [Text.isAsciiDigit], .inl rfl⟩
  have ascii := List.forall_mem_append.mpr
    ⟨Text.ascii_zeros (n := k), Text.ascii_digits (n := d)⟩
  have spells := Literal.spells_point negative tight
    (List.append_ne_nil_of_right_ne_nil _ Text.digits_ne_nil) ascii
  have value : Text.number (['0'] ++ (List.replicate k '0' ++ digits d)) = d := by
    have zero : Text.numberFrom 0 ['0'] = 0 := rfl
    have spelled : Text.numberFrom 0 (digits d) = d := Text.number_digits
    rw [Text.number, Text.numberFrom_append, Text.numberFrom_append, zero, Text.numberFrom_zeros,
      Nat.zero_mul, spelled]
  rw [value] at spells
  simpa using spells

variable (negative) in
/-- A whole number has zeros up to the point and one behind it. -/
theorem spells_whole {k : Nat} (tidy : d ≠ 0 ∨ k = 0) :
    Spells (digits d ++ List.replicate k '0' ++ ['.', '0']) negative
      (Binary64.ofDecimal negative d k) := by
  have tight : Text.Tight (digits d ++ List.replicate k '0') := by
    refine ⟨by simp [Text.digits_ne_nil],
      List.forall_mem_append.mpr ⟨Text.ascii_digits, Text.ascii_zeros⟩, ?_⟩
    rcases tidy with some | rfl
    · refine .inr ?_
      rw [List.head?_append_of_ne_nil _ Text.digits_ne_nil]
      exact Text.head_digits (Nat.pos_of_ne_zero some)
    · simpa using tight_digits.head
  have spells := Literal.spells_point negative tight (List.cons_ne_nil '0' [])
    (by simp [Text.isAsciiDigit])
  have value : Text.number (digits d ++ List.replicate k '0' ++ ['0']) = d * 10 ^ k * 10 := by
    have zero := Text.numberFrom_zeros (m := d * 10 ^ k) (n := 1)
    have spelled : Text.numberFrom 0 (digits d) = d := Text.number_digits
    rw [Text.number, Text.numberFrom_append, Text.numberFrom_append, spelled, Text.numberFrom_zeros]
    simpa using zero
  have power : -((['0'] : List Char).length : Int) + 1 + k = k := by
    simp only [List.length_singleton]
    omega
  rw [value, Binary64.ofDecimal_mul_ten, Binary64.ofDecimal_mul_pow, power] at spells
  simpa using spells

variable (negative) in
/-- The point of another number stands among its digits. -/
theorem spells_inside {k : Nat} (some : d ≠ 0) (front : 0 < k) (back : k < (digits d).length) :
    Spells ((digits d).take k ++ ['.'] ++ (digits d).drop k) negative
      (Binary64.ofDecimal negative d (k - (digits d).length)) := by
  have tight : Text.Tight ((digits d).take k) := by
    refine ⟨by simp [Text.digits_ne_nil]; omega,
      fun c member => Text.ascii_digits c (List.mem_of_mem_take member), .inr ?_⟩
    rw [List.head?_take, if_neg (by omega)]
    exact Text.head_digits (Nat.pos_of_ne_zero some)
  have behind : (digits d).drop k ≠ [] :=
    List.ne_nil_of_length_pos (by rw [List.length_drop]; omega)
  have spells := Literal.spells_point negative tight behind
    fun c member => Text.ascii_digits c (List.mem_of_mem_drop member)
  have power : -(((digits d).drop k).length : Int) = k - (digits d).length := by
    rw [List.length_drop]
    omega
  rw [List.take_append_drop, Text.number_digits, power] at spells
  simpa using spells

variable (negative) in
/-- The positional form of digits is a literal with a point. -/
theorem positional_spells (tidy : d ≠ 0 ∨ e = 0) :
    Spells (positional (digits d) (e + (digits d).length)) negative
      (Binary64.ofDecimal negative d e) := by
  have size : 0 < (digits d).length := List.length_pos_iff.mpr Text.digits_ne_nil
  obtain ⟨places, shifted⟩ : ∃ places, places = e + (digits d).length := ⟨_, rfl⟩
  rw [positional, ← shifted]
  split
  next below =>
    have power : -((-places).toNat + (digits d).length : Int) = e := by omega
    simpa only [power] using spells_below negative (d := d) (k := (-places).toNat)
  next above =>
    split
    next whole =>
      have power : ((places.toNat - (digits d).length : Nat) : Int) = e := by omega
      have tidy' : d ≠ 0 ∨ places.toNat - (digits d).length = 0 := by omega
      simpa only [power] using spells_whole negative tidy'
    next inside =>
      have power : (places.toNat - (digits d).length : Int) = e := by omega
      have some : d ≠ 0 := by omega
      simpa only [power] using
        spells_inside negative some (by omega) (k := places.toNat) (by omega)

variable (negative) in
/-- The exponent form of digits is a literal with an exponent. -/
theorem scientific_spells :
    Spells (scientific (digits d) (e + (digits d).length - 1)) negative
      (Binary64.ofDecimal negative d e) := by
  have tight : Text.Tight (digits d) := tight_digits
  have spelled : Text.number (digits d) = d := Text.number_digits
  cases all : digits d with
  | nil => exact absurd all tight.nonempty
  | cons c ds =>
      rw [all] at tight spelled
      have spells := Literal.spells_exponent negative (e := e + ds.length) tight.ascii
      have top : e + ((c :: ds).length : Int) - 1 = e + ds.length := by
        rw [List.length_cons]
        omega
      rw [spelled, Int.add_sub_cancel] at spells
      rw [top]
      cases ds <;> exact spells

/-- The text of a finite number is that of a literal that stands for it. -/
theorem magnitude_spells {exponent : Fin 2047} {fraction : Fin (2 ^ (52 : Nat))} :
    let x := Binary64.finite negative exponent fraction
    Spells (style.magnitude x) negative x := by
  intro x
  have back : Binary64.ofDecimal negative x.shortest.1 x.shortest.2 = x :=
    Binary64.ofDecimal_shortest ..
  have tidy : x.shortest.1 ≠ 0 ∨ x.shortest.2 = 0 := by
    by_cases none : x.units = 0
    · exact .inr (by rw [Binary64.shortest, if_pos none])
    · exact .inl (Nat.ne_of_gt (Binary64.shortest_pos _ _ none))
  have positional := positional_spells negative tidy
  have scientific := scientific_spells negative (d := x.shortest.1) (e := x.shortest.2)
  rw [back] at positional scientific
  rw [magnitude]
  dsimp only
  split
  next => rwa [Int.sub_add_cancel]
  next => exact scientific

end NumberStyle

end Parley
