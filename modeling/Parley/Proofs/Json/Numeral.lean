import Parley.Proofs.Number.Literal
import Parley.Proofs.Record.Checked

/-!
# Numbers that are read

A number is read as far as it goes on: digits that begin with no zero to spare, a point with digits
behind it, and an exponent.  `Literal.Numeral` says which characters are such a number.  Reading
takes one off the front of a text where the text behind it does not go on with it, and it takes
nothing else.
-/

namespace Parley

open Text (Tight isAsciiDigit)

/-- Whether characters are a number as it may stand in a text: plain digits behind a minus sign or
none, a point only between digits, and an exponent or none. -/
structure Literal.Numeral (l : Literal) (cs : List Char) : Prop extends Literal.Plain l where
  parts : ∃ exponent, IsExponent isAsciiDigit l.exponent exponent ∧
    cs = Json.sign l.negative ++ (l.whole ++ (pointPart l.fraction ++ exponent))

theorem Literal.separate_isAsciiDigit : Separate isAsciiDigit := by
  simp only [Separate, List.forall_mem_cons]
  exact ⟨rfl, rfl, rfl, rfl, rfl, List.forall_mem_nil _⟩

/-- What is written of a number may stand in a text. -/
theorem Literal.Plain.numeral {l : Literal} (plain : l.Plain) :
    l.Numeral (Json.sign l.negative ++ l.spelling) where
  toPlain := plain
  parts := ⟨_, isExponent_markPart _, rfl⟩

namespace Json

variable {limit : Nat} {negative : Bool} {c : Char} {ds cs rest : List Char} {l : Literal}
  {fraction : Option (List Char)} {exponent : Option Int} {e : DigitLimit} {v : Json}

section Ends

/-- Whether a text does not begin with a digit. -/
def Ended (rest : List Char) : Prop := ∀ c ∈ rest.head?, isAsciiDigit c = false

/-- Whether a text does not begin with a point and a digit. -/
def NoFraction (rest : List Char) : Prop := ∀ behind, rest = '.' :: behind → Ended behind

/-- Whether a text does not begin with the mark of an exponent and a digit, past a sign. -/
def NoExponent (rest : List Char) : Prop :=
  ∀ mark behind, mark = 'e' ∨ mark = 'E' → rest = mark :: behind →
    Ended (Literal.takeSign behind).2

/-- Whether a text does not go on with a number that stands before it. -/
structure Stops (rest : List Char) : Prop where
  ended : Ended rest
  noFraction : NoFraction rest
  noExponent : NoExponent rest

theorem ended_cons : Ended (c :: rest) ↔ isAsciiDigit c = false :=
  ⟨fun ended => ended c rfl, fun other => by rintro _ ⟨⟩; exact other⟩

theorem stops_of_head (other : ∀ c ∈ rest.head?,
    isAsciiDigit c = false ∧ c ≠ '.' ∧ c ≠ 'e' ∧ c ≠ 'E') : Stops rest where
  ended c first := (other c first).1
  noFraction behind same := by
    subst same
    exact absurd rfl (other '.' rfl).2.1
  noExponent mark behind marked same := by
    subst same
    obtain ⟨-, -, small, great⟩ := other mark rfl
    exact absurd marked (by simp [small, great])

theorem ended_pointPart (ended : Ended rest) : Ended (Literal.pointPart fraction ++ rest) := by
  cases fraction with
  | none => exact ended
  | some ds => exact ended_cons.mpr rfl

end Ends

section Parts

theorem takeWhole?_eq_some : takeWhole? cs = some (ds, rest) ↔
    cs = ds ++ rest ∧ Tight ds ∧ (ds = ['0'] ∨ Ended rest) := by
  constructor
  · intro taken
    unfold takeWhole? at taken
    split at taken
    next rest =>
      cases taken
      exact ⟨rfl, ⟨by decide, List.forall_mem_singleton.mpr rfl, .inl rfl⟩, .inl rfl⟩
    next notZero =>
      rcases spanned : Text.span isAsciiDigit cs with ⟨front, behind⟩
      obtain ⟨whole, ascii, ended⟩ := Text.span_eq.mp spanned
      simp only [spanned, Option.ite_none_left_eq_some, List.isEmpty_iff] at taken
      obtain ⟨nonempty, same⟩ := taken
      cases same
      refine ⟨whole, ⟨nonempty, ascii, .inr fun zero => ?_⟩, .inr ended⟩
      obtain ⟨ds, rfl⟩ := List.head?_eq_some_iff.mp zero
      exact notZero _ whole
  · rintro ⟨rfl, tight, stop⟩
    rcases tight.head with rfl | head
    · rfl
    · have ended : Ended rest := stop.resolve_left (by rintro rfl; exact head rfl)
      have taken := Text.span_of_stop tight.ascii ended
      obtain ⟨c, ds, rfl⟩ := List.exists_cons_of_ne_nil tight.nonempty
      have other : c ≠ '0' := by simpa using head
      rw [takeWhole?, taken]
      · simp
      · exact fun cs same => other (List.cons.inj same).1

/-- No digits are taken where there are none. -/
theorem span_of_ended (ended : Ended rest) : Text.span isAsciiDigit rest = ([], rest) :=
  Text.span_of_stop (List.forall_mem_nil _) ended

theorem takeFraction_eq : takeFraction cs = (fraction, rest) ↔
    cs = Literal.pointPart fraction ++ rest ∧
      (∀ ds ∈ fraction, ds ≠ [] ∧ ∀ c ∈ ds, isAsciiDigit c = true) ∧
        (if fraction.isSome then Ended rest else NoFraction rest) := by
  constructor
  · intro taken
    unfold takeFraction at taken
    split at taken
    next behind =>
      rcases spanned : Text.span isAsciiDigit behind with ⟨ds, after⟩
      obtain ⟨rfl, ascii, ended⟩ := Text.span_eq.mp spanned
      simp only [spanned, List.isEmpty_iff] at taken
      split at taken
      next none =>
        obtain ⟨rfl, rfl⟩ := Prod.mk.inj taken
        subst none
        exact ⟨rfl, by simp, fun _ same => (List.cons.inj same).2 ▸ ended⟩
      next some =>
        obtain ⟨rfl, rfl⟩ := Prod.mk.inj taken
        exact ⟨rfl, by simpa using ⟨some, ascii⟩, ended⟩
    next other =>
      obtain ⟨rfl, rfl⟩ := Prod.mk.inj taken
      exact ⟨rfl, by simp, fun behind same => absurd same (other behind)⟩
  · rintro ⟨rfl, plain, ended⟩
    cases fraction with
    | some ds =>
        obtain ⟨nonempty, ascii⟩ := plain ds rfl
        simp [Literal.pointPart, takeFraction, Text.span_of_stop ascii ended, nonempty]
    | none =>
        have stop : NoFraction rest := ended
        unfold takeFraction
        rw [Literal.pointPart, List.nil_append]
        split
        next => simp [span_of_ended (stop _ rfl)]
        next => rfl

/-- What is taken as an exponent is one, and the numeral ends with it; or nothing is taken. -/
theorem isExponent_of_takeExponent (taken : takeExponent cs = (exponent, rest)) :
    ∃ part, Literal.IsExponent isAsciiDigit exponent part ∧ cs = part ++ rest ∧
      (if exponent.isSome then Ended rest else NoExponent rest) := by
  unfold takeExponent at taken
  split at taken
  next mark behind =>
    split at taken
    next marked =>
      have marked : mark = 'e' ∨ mark = 'E' := by simpa using marked
      obtain ⟨sign, isSign, signed⟩ := Literal.isSign_takeSign behind
      rcases spanned : Text.span isAsciiDigit (Literal.takeSign behind).2 with ⟨ds, after⟩
      obtain ⟨whole, ascii, ended⟩ := Text.span_eq.mp spanned
      simp only [spanned, List.isEmpty_iff] at taken
      split at taken
      next none =>
        obtain ⟨rfl, rfl⟩ := Prod.mk.inj taken
        refine ⟨[], rfl, rfl, fun _ _ _ same => ?_⟩
        rw [← (List.cons.inj same).2, whole, none]
        exact ended
      next some =>
        obtain ⟨rfl, rfl⟩ := Prod.mk.inj taken
        refine ⟨mark :: (sign ++ ds), ⟨mark, _, sign, ds, marked, isSign, ⟨some, ascii⟩, rfl, rfl⟩,
          ?_, ended⟩
        rw [List.cons_append, List.append_assoc, ← whole, ← signed]
    next unmarked =>
      obtain ⟨rfl, rfl⟩ := Prod.mk.inj taken
      refine ⟨[], rfl, rfl, fun _ _ marked same => ?_⟩
      obtain ⟨rfl, -⟩ := List.cons.inj same
      exact absurd marked (by simpa using unmarked)
  next =>
    obtain ⟨rfl, rfl⟩ := Prod.mk.inj taken
    exact ⟨[], rfl, rfl, fun _ _ _ same => nomatch same⟩

/-- An exponent is taken as a whole, if the numeral ends with it. -/
theorem takeExponent_append {e : Int} {part : List Char}
    (isExponent : Literal.IsExponent isAsciiDigit (some e) part) (ended : Ended rest) :
    takeExponent (part ++ rest) = (some e, rest) := by
  obtain ⟨mark, negative, sign, ds, marked, isSign, ⟨nonempty, ascii⟩, rfl, rfl⟩ := isExponent
  have unsigned : ∀ c ∈ (ds ++ rest).head?, c ≠ '-' ∧ c ≠ '+' := by
    rw [List.head?_append_of_ne_nil _ nonempty]
    exact Literal.separate_isAsciiDigit.head?_ne ascii
  have marked : (mark == 'e' || mark == 'E') = true := by simpa using marked
  rw [List.cons_append, List.append_assoc]
  simp [takeExponent, marked, Literal.takeSign_append isSign unsigned,
    Text.span_of_stop ascii ended, nonempty]

/-- Nothing is taken where no exponent begins. -/
theorem takeExponent_of_noExponent (stop : NoExponent rest) :
    takeExponent rest = (none, rest) := by
  unfold takeExponent
  split
  next =>
    split
    next marked => simp [span_of_ended (stop _ _ (by simpa using marked) rfl)]
    next => rfl
  next => rfl

theorem takeExponent_eq : takeExponent cs = (exponent, rest) ↔
    ∃ part, Literal.IsExponent isAsciiDigit exponent part ∧ cs = part ++ rest ∧
      (if exponent.isSome then Ended rest else NoExponent rest) := by
  constructor
  · exact isExponent_of_takeExponent
  · rintro ⟨part, isExponent, rfl, ended⟩
    cases exponent with
    | some e => exact takeExponent_append isExponent ended
    | none =>
        obtain rfl : part = [] := isExponent
        exact takeExponent_of_noExponent ended

end Parts

/-- What is read of a number. -/
def ofLiteral (limit : Nat) (l : Literal) : Except ReadError Json :=
  if l.isWhole then
    if l.whole.length ≤ limit then .ok (.int l.toInt)
    else .error (.tooLong ⟨some l.whole.length⟩)
  else .ok (.float l.toBinary)

theorem readDigits_eq {whole after behind : List Char}
    (wholeTaken : takeWhole? cs = some (whole, after))
    (fractionTaken : takeFraction after = (fraction, behind))
    (exponentTaken : takeExponent behind = (exponent, rest)) :
    readDigits limit (sign negative ++ cs) =
      (ofLiteral limit ⟨negative, whole, fraction, exponent⟩).map (·, rest) := by
  cases negative with
  | true =>
      simp only [sign, if_true, List.cons_append, List.nil_append, readDigits, wholeTaken,
        fractionTaken, exponentTaken, ofLiteral]
      split_ifs <;> rfl
  | false =>
      simp only [sign, Bool.false_eq_true, if_false, List.nil_append]
      rw [readDigits]
      · simp only [wholeTaken, fractionTaken, exponentTaken, ofLiteral]
        split_ifs <;> rfl
      · -- Digits do not begin with a sign.
        rintro cs rfl
        obtain ⟨same, tight, -⟩ := takeWhole?_eq_some.mp wholeTaken
        obtain ⟨c, ds, rfl⟩ := List.exists_cons_of_ne_nil tight.nonempty
        obtain ⟨rfl, -⟩ := List.cons.inj same
        cases tight.ascii _ (List.mem_cons_self ..)

/-- A number is read up to a text that does not go on with it. -/
theorem readDigits_of_numeral (numeral : l.Numeral cs) (stops : Stops rest) :
    readDigits limit (cs ++ rest) = (ofLiteral limit l).map (·, rest) := by
  obtain ⟨⟨tight, plain⟩, part, isExponent, rfl⟩ := numeral
  obtain ⟨negative, whole, fraction, exponent⟩ := l
  dsimp only at tight plain isExponent ⊢
  have first : Ended (part ++ rest) ∧ NoFraction (part ++ rest) := by
    cases part with
    | nil => exact ⟨stops.ended, stops.noFraction⟩
    | cons mark part =>
        obtain ⟨ended, other⟩ := isExponent.stop Literal.separate_isAsciiDigit mark rfl
        exact ⟨ended_cons.mpr ended, fun _ same => absurd (List.cons.inj same).1 other⟩
  have exponentTaken : takeExponent (part ++ rest) = (exponent, rest) := by
    refine takeExponent_eq.mpr ⟨part, isExponent, rfl, ?_⟩
    split
    · exact stops.ended
    · exact stops.noExponent
  have fractionTaken :
      takeFraction (Literal.pointPart fraction ++ (part ++ rest)) = (fraction, part ++ rest) := by
    refine takeFraction_eq.mpr ⟨rfl, plain, ?_⟩
    split
    · exact first.1
    · exact first.2
  have wholeTaken : takeWhole? (whole ++ (Literal.pointPart fraction ++ (part ++ rest))) = _ :=
    takeWhole?_eq_some.mpr ⟨rfl, tight, .inr (ended_pointPart first.1)⟩
  rw [List.append_assoc, List.append_assoc, List.append_assoc]
  exact readDigits_eq wholeTaken fractionTaken exponentTaken

/-- What begins with no number has a flaw at its front, and else a number is taken off it that does
not go on. -/
theorem readDigits_cases (limit : Nat) (cs : List Char) : readDigits limit cs = flawAt .value cs ∨
    ∃ l front rest, cs = front ++ rest ∧ l.Numeral front ∧
      (l.isWhole = true → l.whole = ['0'] ∨ Stops rest) ∧
        readDigits limit cs = (ofLiteral limit l).map (·, rest) := by
  obtain ⟨negative, digits, rfl, none⟩ : ∃ negative digits, cs = sign negative ++ digits ∧
      (takeWhole? digits = none → readDigits limit cs = flawAt .value cs) := by
    by_cases signed : ∃ digits, cs = '-' :: digits
    · obtain ⟨digits, rfl⟩ := signed
      exact ⟨true, digits, rfl, fun none => by simp only [readDigits, none]⟩
    · refine ⟨false, cs, rfl, fun none => ?_⟩
      rw [readDigits]
      · simp only [none]
      · exact fun digits same => signed ⟨digits, same⟩
  rcases wholeTaken : takeWhole? digits with _ | ⟨whole, after⟩
  · exact .inl (none wholeTaken)
  · rcases fractionTaken : takeFraction after with ⟨fraction, behind⟩
    rcases exponentTaken : takeExponent behind with ⟨exponent, rest⟩
    have read : readDigits limit (sign negative ++ digits) = _ :=
      readDigits_eq wholeTaken fractionTaken exponentTaken
    obtain ⟨rfl, tight, stop⟩ := takeWhole?_eq_some.mp wholeTaken
    obtain ⟨rfl, plain, noFraction⟩ := takeFraction_eq.mp fractionTaken
    obtain ⟨part, isExponent, rfl, noExponent⟩ := takeExponent_eq.mp exponentTaken
    refine .inr ⟨⟨negative, whole, fraction, exponent⟩, _, rest, by simp,
      ⟨⟨tight, plain⟩, part, isExponent, rfl⟩, fun isWhole => ?_, read⟩
    obtain ⟨rfl, rfl⟩ : fraction = .none ∧ exponent = .none := by
      simpa [Literal.isWhole] using isWhole
    obtain rfl : part = [] := isExponent
    exact stop.imp_right fun ended => ⟨ended, noFraction, noExponent⟩

end Json

end Parley
