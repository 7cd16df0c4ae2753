import Parley.Proofs.Json.Reading
import Parley.Text.Utf8

/-!
# Line ends between the parts of a text

The parts of a JSON text hold no line ends, since a control character may not stand between two
quotes.  So the way in which the lines of a text end does not matter to what it spells.
-/

namespace Parley.Json

/-- Whether characters end a line, in one of the three ways. -/
def LineEnd (cs : List Char) : Prop := cs = ['\n'] ∨ cs = ['\r'] ∨ cs = ['\r', '\n']

/-- Whether two texts are the same, apart from the ways in which their lines end. -/
inductive SameLines : List Char → List Char → Prop
  | nil : SameLines [] []
  | char {c : Char} {cs ds : List Char} (more : SameLines cs ds) : SameLines (c :: cs) (c :: ds)
  | lineEnd {as bs cs ds : List Char} (one : LineEnd as) (other : LineEnd bs)
      (more : SameLines cs ds) : SameLines (as ++ cs) (bs ++ ds)

/-- Whether a character does not belong to the end of a line. -/
def Inner (c : Char) : Prop := c ≠ '\r' ∧ c ≠ '\n'

instance (c : Char) : Decidable (Inner c) := inferInstanceAs (Decidable (_ ∧ _))

variable {c : Char} {as bs cs ds rest text : List Char} {v : Json} {vs : List Json} {k : String}
  {pairs : List (String × Json)} {n : Nat}

namespace SameLines

theorem symm (same : SameLines cs ds) : SameLines ds cs := by
  induction same with
  | nil => exact .nil
  | char _ ih => exact .char ih
  | lineEnd one other _ ih => exact .lineEnd other one ih

theorem eq_nil (same : SameLines [] ds) : ds = [] := by
  generalize whole : [] = xs at same
  cases same with
  | nil => rfl
  | char => cases whole
  | lineEnd one => rcases one with rfl | rfl | rfl <;> cases whole

/-- A text with its line ends in their one form. -/
theorem plainLines (cs : List Char) : SameLines cs (Text.plainLines cs) := by
  fun_induction Text.plainLines cs with
  | case1 => exact .nil
  | case2 cs ih => exact .lineEnd (.inr (.inr rfl)) (.inl rfl) ih
  | case3 c cs _ ih =>
      split
      next return' =>
        obtain rfl : c = '\r' := eq_of_beq return'
        exact .lineEnd (.inr (.inl rfl)) (.inl rfl) ih
      next => exact .char ih

/-- A character inside a line is the same in both texts. -/
theorem uncons (same : SameLines (c :: cs) ds) (inner : Inner c) :
    ∃ ds', ds = c :: ds' ∧ SameLines cs ds' := by
  generalize whole : c :: cs = xs at same
  cases same with
  | nil => cases whole
  | char more =>
      cases whole
      exact ⟨_, rfl, more⟩
  | lineEnd one _ _ =>
      rcases one with rfl | rfl | rfl
      · exact absurd (List.cons.inj whole).1 inner.2
      · exact absurd (List.cons.inj whole).1 inner.1
      · exact absurd (List.cons.inj whole).1 inner.1

/-- A part of a line is the same in both texts. -/
theorem unappend (front : List Char) (same : SameLines (front ++ cs) ds)
    (inner : ∀ c ∈ front, Inner c) : ∃ ds', ds = front ++ ds' ∧ SameLines cs ds' := by
  induction front generalizing ds with
  | nil => exact ⟨ds, rfl, same⟩
  | cons c front ih =>
      obtain ⟨here, inner⟩ := List.forall_mem_cons.mp inner
      obtain ⟨ds, rfl, more⟩ := same.uncons here
      obtain ⟨ds, rfl, rest⟩ := ih more inner
      exact ⟨ds, rfl, rest⟩

theorem head?_eq (same : SameLines cs ds) (first : ds.head? = some c) (inner : Inner c) :
    cs.head? = some c := by
  obtain ⟨ds, rfl⟩ := List.head?_eq_some_iff.mp first
  obtain ⟨cs, rfl, -⟩ := same.symm.uncons inner
  rfl

end SameLines

section Gaps

theorem LineEnd.blank (lineEnd : LineEnd cs) : ∀ c ∈ cs, isGap c = true := by
  rcases lineEnd with rfl | rfl | rfl <;> simp [isGap]

theorem inner_of_not_isGap (solid : isGap c = false) : Inner c := by
  constructor <;> (rintro rfl; cases solid)

/-- Blanks are left out of a gap that ends before a character of another kind, or with the text. -/
theorem Gap.of_append (gap : Gap (as ++ cs) ds) (blank : ∀ c ∈ as, isGap c = true)
    (solid : ∀ c ∈ ds.head?, isGap c = false) : Gap cs ds := by
  induction as with
  | nil => exact gap
  | cons c as ih =>
      obtain ⟨here, blank⟩ := List.forall_mem_cons.mp blank
      cases gap with
      | none => cases here.symm.trans (solid c rfl)
      | blank _ more => exact ih more blank

/-- A gap is one in any form of its line ends. -/
theorem Gap.sameLines (gap : Gap cs ds) (same : SameLines cs as)
    (solid : ∀ c ∈ ds.head?, isGap c = false) : ∃ bs, Gap as bs ∧ SameLines ds bs := by
  induction same with
  | nil =>
      cases gap with
      | none => exact ⟨[], .none, .nil⟩
  | @char c cs as more ih =>
      cases gap with
      | none => exact ⟨c :: as, .none, .char more⟩
      | blank blank rest =>
          obtain ⟨bs, gap, same⟩ := ih rest
          exact ⟨bs, .blank blank gap, same⟩
  | lineEnd one other _ ih =>
      obtain ⟨bs, gap, same⟩ := ih (gap.of_append one.blank solid)
      exact ⟨bs, gap.append other.blank, same⟩

/-- A gap in front of a character is one in any form of its line ends. -/
theorem Gap.sameLines_cons (gap : Gap cs (c :: ds)) (same : SameLines cs as)
    (solid : isGap c = false) : ∃ bs, Gap as (c :: bs) ∧ SameLines ds bs := by
  obtain ⟨bs, gap, same⟩ := gap.sameLines same (by rintro _ ⟨⟩; exact solid)
  obtain ⟨bs, rfl, rest⟩ := same.uncons (inner_of_not_isGap solid)
  exact ⟨bs, gap, rest⟩

theorem Gap.sameLines_opens (gap : Gap cs ds) (same : SameLines cs as) (opens : Opens ds) :
    ∃ bs, Gap as bs ∧ SameLines ds bs := by
  obtain ⟨c, tail, rfl, opening⟩ := opens
  exact gap.sameLines same (by rintro _ ⟨⟩; exact isGap_of_isOpening opening)

end Gaps

section Texts

theorem inner_of_hexNumber? {a b c d : Char} {n : Nat} (number : hexNumber? a b c d = some n) :
    ∀ x ∈ ['\\', 'u', a, b, c, d], Inner x := by
  have inner {x : Char} (digit : (Text.hexValue? x).isSome = true) : Inner x := by
    constructor <;> (rintro rfl; cases digit)
  simp only [hexNumber?, bind, Option.bind_eq_some_iff] at number
  obtain ⟨_, first, _, second, _, third, _, fourth, -⟩ := number
  simp only [List.forall_mem_cons]
  exact ⟨by decide, by decide, inner (by rw [first]; rfl), inner (by rw [second]; rfl),
    inner (by rw [third]; rfl), inner (by rw [fourth]; rfl), List.forall_mem_nil _⟩

theorem BeginsLow.sameLines (begins : BeginsLow cs) (same : SameLines cs ds) : BeginsLow ds := by
  obtain ⟨a, b, c, d, rest, n, rfl, number, second⟩ := begins
  obtain ⟨rest', rfl, -⟩ := same.unappend ['\\', 'u', a, b, c, d]
    (inner_of_hexNumber? number)
  exact ⟨a, b, c, d, rest', n, rfl, number, second⟩

/-- A text between two quotes holds no line end. -/
theorem Letters.sameLines (letters : Letters cs text rest) (same : SameLines cs ds) :
    ∃ rest', Letters ds text rest' ∧ SameLines rest rest' := by
  induction letters generalizing ds with
  | closing =>
      obtain ⟨ds, rfl, more⟩ := same.uncons (by decide)
      exact ⟨ds, .closing, more⟩
  | @plain c cs text rest quote backslash high letters ih =>
      have inner : Inner c := by
        constructor <;> (rintro rfl; exact absurd high (by decide))
      obtain ⟨ds, rfl, more⟩ := same.uncons inner
      obtain ⟨rest', letters, behind⟩ := ih more
      exact ⟨rest', .plain quote backslash high letters, behind⟩
  | @escape e c cs text rest escaped letters ih =>
      have inner : Inner e := by
        constructor <;> (rintro rfl; cases escaped)
      obtain ⟨ds, rfl, letter⟩ := same.uncons (by decide)
      obtain ⟨ds, rfl, more⟩ := letter.uncons inner
      obtain ⟨rest', letters, behind⟩ := ih more
      exact ⟨rest', .escape escaped letters, behind⟩
  | @unit a b c d n cs text rest number alone letters ih =>
      obtain ⟨ds, rfl, more⟩ := same.unappend ['\\', 'u', a, b, c, d]
        (inner_of_hexNumber? number)
      obtain ⟨rest', letters, behind⟩ := ih more
      have alone' (first : isHighHalf n = true) : ¬ BeginsLow ds :=
        fun begins => alone first (begins.sameLines more.symm)
      exact ⟨rest', .unit number alone' letters, behind⟩
  | @pair a b c d a' b' c' d' high low cs text rest number first number' second letters ih =>
      obtain ⟨ds, rfl, half⟩ := same.unappend ['\\', 'u', a, b, c, d]
        (inner_of_hexNumber? number)
      obtain ⟨ds, rfl, more⟩ := half.unappend ['\\', 'u', a', b', c', d']
        (inner_of_hexNumber? number')
      obtain ⟨rest', letters, behind⟩ := ih more
      exact ⟨rest', .pair number first number' second letters, behind⟩

theorem Key.sameLines (key : Key k cs rest) (same : SameLines cs ds) (opens : Opens rest) :
    ∃ rest', Key k ds rest' ∧ SameLines rest rest' := by
  obtain ⟨cs, es, fs, rfl, letters, gap, gap'⟩ := key
  obtain ⟨ds, rfl, more⟩ := same.uncons (by decide)
  obtain ⟨es, letters, more⟩ := letters.sameLines more
  obtain ⟨fs, gap, more⟩ := gap.sameLines_cons more rfl
  obtain ⟨rest', gap', more⟩ := gap'.sameLines_opens more opens
  exact ⟨rest', ⟨ds, es, fs, rfl, letters, gap, gap'⟩, more⟩

end Texts

section Numbers

theorem inner_of_digit (digit : Text.isAsciiDigit c = true) : Inner c := by
  constructor <;> (rintro rfl; cases digit)

theorem inner_sign (negative : Bool) : ∀ c ∈ sign negative, Inner c := by
  cases negative <;> simp [sign, Inner]

theorem inner_isSign {negative : Bool} (isSign : Literal.IsSign negative as) :
    ∀ c ∈ as, Inner c := by
  cases negative with
  | true =>
      obtain rfl : as = ['-'] := isSign
      simp [Inner]
  | false => rcases isSign with rfl | rfl <;> simp [Inner]

theorem inner_pointPart {fraction : Option (List Char)}
    (plain : ∀ ds ∈ fraction, ds ≠ [] ∧ ∀ c ∈ ds, Text.isAsciiDigit c = true) :
    ∀ c ∈ Literal.pointPart fraction, Inner c := by
  cases fraction with
  | none => exact List.forall_mem_nil _
  | some ds =>
      exact List.forall_mem_cons.mpr
        ⟨by decide, fun c member => inner_of_digit ((plain ds rfl).2 c member)⟩

theorem inner_isExponent {exponent : Option Int}
    (isExponent : Literal.IsExponent Text.isAsciiDigit exponent as) : ∀ c ∈ as, Inner c := by
  cases exponent with
  | none =>
      obtain rfl : as = [] := isExponent
      exact List.forall_mem_nil _
  | some e =>
      obtain ⟨mark, negative, sign, ds, marked, isSign, ⟨-, ascii⟩, rfl, -⟩ := isExponent
      refine List.forall_mem_cons.mpr ⟨by rcases marked with rfl | rfl <;> decide, ?_⟩
      exact List.forall_mem_append.mpr
        ⟨inner_isSign isSign, fun c member => inner_of_digit (ascii c member)⟩

/-- A number holds no line end. -/
theorem inner_numeral {l : Literal} (numeral : l.Numeral cs) : ∀ c ∈ cs, Inner c := by
  obtain ⟨plain, part, isExponent, rfl⟩ := numeral
  simp only [List.forall_mem_append]
  exact ⟨inner_sign _, fun c member => inner_of_digit (plain.whole.ascii c member),
    inner_pointPart plain.fraction, inner_isExponent isExponent⟩

theorem Ended.sameLines (ended : Ended cs) (same : SameLines cs ds) : Ended ds := by
  intro c first
  rw [Bool.eq_false_iff]
  intro digit
  have first' := same.head?_eq first (inner_of_digit digit)
  exact absurd digit (by simp [ended c first'])

theorem takeSign_sameLines (same : SameLines cs ds) :
    SameLines (Literal.takeSign cs).2 (Literal.takeSign ds).2 := by
  have sign {c : Char} (marked : c = '-' ∨ c = '+') : Inner c := by
    rcases marked with rfl | rfl <;> decide
  by_cases signed : ∃ c tail, cs = c :: tail ∧ (c = '-' ∨ c = '+')
  · obtain ⟨c, tail, rfl, marked⟩ := signed
    obtain ⟨ds, rfl, more⟩ := same.uncons (sign marked)
    rcases marked with rfl | rfl <;> exact more
  · -- Where one of the texts begins with no sign, neither does the other.
    have stop : ∀ c ∈ cs.head?, c ≠ '-' ∧ c ≠ '+' := by
      intro c first
      obtain ⟨tail, rfl⟩ := List.head?_eq_some_iff.mp first
      exact not_or.mp fun marked => signed ⟨c, tail, rfl, marked⟩
    have stop' : ∀ c ∈ ds.head?, c ≠ '-' ∧ c ≠ '+' := fun c first =>
      not_or.mp fun marked =>
        not_or.mpr (stop c (same.head?_eq first (sign marked))) marked
    have unsigned : Literal.takeSign cs = (false, cs) :=
      Literal.takeSign_append (Literal.isSign_sign false) stop
    have unsigned' : Literal.takeSign ds = (false, ds) :=
      Literal.takeSign_append (Literal.isSign_sign false) stop'
    rw [unsigned, unsigned']
    exact same

/-- A number ends before the same character in any form of the line ends. -/
theorem Stops.sameLines (stops : Stops cs) (same : SameLines cs ds) : Stops ds where
  ended := stops.ended.sameLines same
  noFraction behind point := by
    subst point
    obtain ⟨cs, rfl, more⟩ := same.symm.uncons (by decide)
    exact (stops.noFraction cs rfl).sameLines more.symm
  noExponent mark behind marked front := by
    subst front
    obtain ⟨cs, rfl, more⟩ := same.symm.uncons (by rcases marked with rfl | rfl <;> decide)
    exact (stops.noExponent mark cs marked rfl).sameLines (takeSign_sameLines more.symm)

end Numbers

theorem inner_constant (known : (cs, v) ∈ constants) : ∀ c ∈ cs, Inner c := by
  have each : ∀ constant ∈ constants, ∀ c ∈ constant.1, Inner c := by simp [constants, Inner]
  exact each _ known

mutual

/-- What a text spells does not depend on how its lines end. -/
theorem Spells.sameLines : ∀ {cs ds rest : List Char} {v : Json}, Spells cs v rest →
    SameLines cs ds → ∃ rest', Spells ds v rest' ∧ SameLines rest rest'
  | _, _, _, _, .constant known, same => by
      obtain ⟨rest', rfl, more⟩ := same.unappend _ (inner_constant known)
      exact ⟨rest', .constant known, more⟩
  | _, _, _, _, .whole numeral isWhole fits, same => by
      obtain ⟨rest', rfl, more⟩ := same.unappend _ (inner_numeral numeral)
      exact ⟨rest', .whole numeral isWhole fits, more⟩
  | _, _, _, _, .binary numeral notWhole, same => by
      obtain ⟨rest', rfl, more⟩ := same.unappend _ (inner_numeral numeral)
      exact ⟨rest', .binary numeral notWhole, more⟩
  | _, _, _, _, .text letters, same => by
      obtain ⟨ds, rfl, more⟩ := same.uncons (by decide)
      obtain ⟨rest', letters, behind⟩ := letters.sameLines more
      exact ⟨rest', .text letters, behind⟩
  | _, _, _, _, .noItems gap, same => by
      obtain ⟨ds, rfl, more⟩ := same.uncons (by decide)
      obtain ⟨rest', gap, behind⟩ := gap.sameLines_cons more rfl
      exact ⟨rest', .noItems gap, behind⟩
  | _, _, _, _, .items gap items, same => by
      obtain ⟨ds, rfl, more⟩ := same.uncons (by decide)
      obtain ⟨es, gap, more⟩ := gap.sameLines_opens more items.opens
      obtain ⟨rest', items, behind⟩ := items.sameLines more
      exact ⟨rest', .items gap items, behind⟩
  | _, _, _, _, .noFields gap, same => by
      obtain ⟨ds, rfl, more⟩ := same.uncons (by decide)
      obtain ⟨rest', gap, behind⟩ := gap.sameLines_cons more rfl
      exact ⟨rest', .noFields gap, behind⟩
  | _, _, _, _, .fields gap members, same => by
      obtain ⟨ds, rfl, more⟩ := same.uncons (by decide)
      obtain ⟨es, gap, more⟩ := gap.sameLines_opens more members.opens
      obtain ⟨rest', members, behind⟩ := members.sameLines more
      exact ⟨rest', .fields gap members, behind⟩

theorem Items.sameLines : ∀ {cs ds rest : List Char} {vs : List Json}, Items cs vs rest →
    SameLines cs ds → ∃ rest', Items ds vs rest' ∧ SameLines rest rest'
  | _, _, _, _, .last item gap, same => by
      obtain ⟨es, item, more⟩ := item.sameLines same
      obtain ⟨rest', gap, behind⟩ := gap.sameLines_cons more rfl
      exact ⟨rest', .last item gap, behind⟩
  | _, _, _, _, .more item gap gap' others, same => by
      obtain ⟨es, item, more⟩ := item.sameLines same
      obtain ⟨fs, gap, more⟩ := gap.sameLines_cons more rfl
      obtain ⟨gs, gap', more⟩ := gap'.sameLines_opens more others.opens
      obtain ⟨rest', others, behind⟩ := others.sameLines more
      exact ⟨rest', .more item gap gap' others, behind⟩

theorem Members.sameLines : ∀ {cs ds rest : List Char} {pairs : List (String × Json)},
    Members cs pairs rest → SameLines cs ds →
      ∃ rest', Members ds pairs rest' ∧ SameLines rest rest'
  | _, _, _, _, .last key value gap, same => by
      obtain ⟨es, key, more⟩ := key.sameLines same value.opens
      obtain ⟨fs, value, more⟩ := value.sameLines more
      obtain ⟨rest', gap, behind⟩ := gap.sameLines_cons more rfl
      exact ⟨rest', .last key value gap, behind⟩
  | _, _, _, _, .more key value gap gap' others, same => by
      obtain ⟨es, key, more⟩ := key.sameLines same value.opens
      obtain ⟨fs, value, more⟩ := value.sameLines more
      obtain ⟨gs, gap, more⟩ := gap.sameLines_cons more rfl
      obtain ⟨hs, gap', more⟩ := gap'.sameLines_opens more others.opens
      obtain ⟨rest', others, behind⟩ := others.sameLines more
      exact ⟨rest', .more key value gap gap' others, behind⟩

end

mutual

/-- Nor does it depend on that whether a number is too long. -/
theorem Overlong.sameLines : ∀ {n : Nat} {cs ds : List Char}, Overlong n cs → SameLines cs ds →
    Overlong n ds
  | _, _, _, .number tight long stops, same => by
      obtain ⟨es, rfl, more⟩ := same.unappend _ (inner_sign _)
      obtain ⟨fs, rfl, behind⟩ :=
        more.unappend _ fun c member => inner_of_digit (tight.ascii c member)
      exact .number tight long (stops.sameLines behind)
  | _, _, _, .items gap items, same => by
      obtain ⟨ds, rfl, more⟩ := same.uncons (by decide)
      obtain ⟨es, gap, behind⟩ := gap.sameLines_opens more items.opens
      exact .items gap (items.sameLines behind)
  | _, _, _, .fields gap members, same => by
      obtain ⟨ds, rfl, more⟩ := same.uncons (by decide)
      obtain ⟨es, gap, behind⟩ := gap.sameLines_opens more members.opens
      exact .fields gap (members.sameLines behind)

theorem OverlongItems.sameLines : ∀ {n : Nat} {cs ds : List Char}, OverlongItems n cs →
    SameLines cs ds → OverlongItems n ds
  | _, _, _, .here item, same => .here (item.sameLines same)
  | _, _, _, .later item gap gap' others, same => by
      obtain ⟨es, item, more⟩ := item.sameLines same
      obtain ⟨fs, gap, more⟩ := gap.sameLines_cons more rfl
      obtain ⟨gs, gap', more⟩ := gap'.sameLines_opens more others.opens
      exact .later item gap gap' (others.sameLines more)

theorem OverlongMembers.sameLines : ∀ {n : Nat} {cs ds : List Char}, OverlongMembers n cs →
    SameLines cs ds → OverlongMembers n ds
  | _, _, _, .here key value, same => by
      obtain ⟨es, key, more⟩ := key.sameLines same value.opens
      exact .here key (value.sameLines more)
  | _, _, _, .later key value gap gap' others, same => by
      obtain ⟨es, key, more⟩ := key.sameLines same value.opens
      obtain ⟨fs, value, more⟩ := value.sameLines more
      obtain ⟨gs, gap, more⟩ := gap.sameLines_cons more rfl
      obtain ⟨hs, gap', more⟩ := gap'.sameLines_opens more others.opens
      exact .later key value gap gap' (others.sameLines more)

end

section Whole

theorem Spelled.sameLines (spelled : Spelled cs v) (same : SameLines cs ds) : Spelled ds v := by
  obtain ⟨es, fs, gap, spells, gap'⟩ := spelled
  obtain ⟨es, gap, more⟩ := gap.sameLines_opens same spells.opens
  obtain ⟨fs, spells, behind⟩ := spells.sameLines more
  obtain ⟨gs, gap', same⟩ := gap'.sameLines behind fun _ none => nomatch none
  obtain rfl := same.eq_nil
  exact ⟨es, fs, gap, spells, gap'⟩

theorem HasOverlong.sameLines (overlong : HasOverlong n cs) (same : SameLines cs ds) :
    HasOverlong n ds := by
  obtain ⟨es, gap, overlong⟩ := overlong
  obtain ⟨es, gap, more⟩ := gap.sameLines_opens same overlong.opens
  exact ⟨es, gap, overlong.sameLines more⟩

theorem spelled_plainLines : Spelled (Text.plainLines cs) v ↔ Spelled cs v :=
  ⟨fun spelled => spelled.sameLines (SameLines.plainLines cs).symm,
    fun spelled => spelled.sameLines (SameLines.plainLines cs)⟩

theorem hasOverlong_plainLines : HasOverlong n (Text.plainLines cs) ↔ HasOverlong n cs :=
  ⟨fun overlong => overlong.sameLines (SameLines.plainLines cs).symm,
    fun overlong => overlong.sameLines (SameLines.plainLines cs)⟩

end Whole

end Parley.Json
