import Parley.Proofs.Number.Overflow
import Parley.Proofs.Scalar.RoundTrip

/-!
# The normal form of a text

Reading a text and writing what was read gives a text that stands for the same value and does not
change any more.  Only literals change at all: not those with a point or an exponent that are too
great for a binary number, which stay texts, and not whole numbers in their usual spelling.
-/

namespace Parley.Scalar

open Text (isDigit isAsciiDigit)
open Binary64 (digitCount)

variable {text : String} {l : Literal}

/-- A text that is no literal is read as a constant or as itself, and written as it was. -/
theorem parse_of_word (word : ∀ l : Literal, ¬ l.Written isDigit text.toList) :
    ∃ v, parse text = .ok v ∧ v.Writable ∧ format v = .ok text := by
  have none : Literal.read? isDigit text.toList = none :=
    Option.eq_none_iff_forall_ne_some.mpr fun l read =>
      word l (Literal.read?_isDigit.mp read)
  have read : parse text = if text == "null" then .ok .null else .ok (ofWord text) := by
    rw [parse, none]
  rw [ofWord] at read
  split_ifs at read with nothing affirmed denied
  · exact ⟨.null, read, trivial, by rw [beq_iff_eq.mp nothing]; rfl⟩
  · exact ⟨.bool true, read, trivial, by rw [beq_iff_eq.mp affirmed]; rfl⟩
  · exact ⟨.bool false, read, trivial, by rw [beq_iff_eq.mp denied]; rfl⟩
  · exact ⟨.text text, read, read, rfl⟩

section Literals

variable (written : l.Written isDigit text.toList)

include written

theorem length_whole_le : l.whole.length ≤ text.length := by
  obtain ⟨sign, exponent, -, -, same⟩ := written.parts
  have size := congrArg List.length same
  simp only [List.length_append, String.length_toList] at size
  omega

theorem parse_of_few (whole : l.isWhole = true) (few : l.whole.length ≤ DigitLimit.limit) :
    parse text = .ok (.int l.toInt) ∧ (Scalar.int l.toInt).Writable := by
  have count := Binary64.digitCount_number few (by decide)
  refine ⟨by rw [parse_of_literal written, if_pos whole, if_pos few], ?_⟩
  rw [Writable, Literal.toInt]
  split <;> simpa using count

theorem parse_of_whole (whole : l.isWhole = true) (short : text.length ≤ DigitLimit.limit) :
    parse text = .ok (.int l.toInt) ∧ (Scalar.int l.toInt).Writable :=
  parse_of_few written whole (Nat.le_trans (length_whole_le written) short)

/-- A literal with a point or an exponent stays a text if no finite number is near to it. -/
theorem parse_of_exceeds (notWhole : l.isWhole = false) (exceeds : l.Exceeds) :
    parse text = .ok (.text text) := by
  have infinite : l.toBinary.isFinite = false := Literal.isFinite_toBinary.mpr exceeds
  rw [parse_of_literal written, notWhole, infinite]
  rfl

end Literals

/-- A text is read as something that can be written, unless it is a whole number with too many
digits. -/
theorem exists_parse_of_fits (fits : ∀ l : Literal, l.Written isDigit text.toList →
    l.isWhole = true → l.whole.length ≤ DigitLimit.limit) :
    ∃ v, parse text = .ok v ∧ v.Writable := by
  by_cases literal : ∃ l : Literal, l.Written isDigit text.toList
  · obtain ⟨l, written⟩ := literal
    by_cases whole : l.isWhole = true
    · exact ⟨_, parse_of_few written whole (fits l written whole)⟩
    · have read := parse_of_literal written
      rw [if_neg whole] at read
      split_ifs at read with finite
      · exact ⟨_, read, finite⟩
      · exact ⟨_, read, read⟩
  · obtain ⟨v, read, writable, -⟩ := parse_of_word (not_exists.mp literal)
    exact ⟨v, read, writable⟩

/-- A text that is not too long is read as something that can be written. -/
theorem exists_parse (short : text.length ≤ DigitLimit.limit) :
    ∃ v, parse text = .ok v ∧ v.Writable :=
  exists_parse_of_fits fun _ written _ => Nat.le_trans (length_whole_le written) short

/-- Whether a text is a whole number in its usual spelling: a zero, or digits that do not begin with
a zero, behind a minus sign or none. -/
def IsUsual (text : String) : Prop :=
  text = "0" ∨ ∃ negative ds, text.toList = Json.sign negative ++ ds ∧ ds ≠ [] ∧
    (∀ c ∈ ds, isAsciiDigit c = true) ∧ ds.head? ≠ some '0'

/-- Digits that do not begin with a zero, behind a minus sign or none, are what is written of the
whole number for which they stand. -/
theorem exists_literal_of_digits {negative : Bool} {ds : List Char} (nonempty : ds ≠ [])
    (spelled : text.toList = Json.sign negative ++ ds)
    (ascii : ∀ c ∈ ds, isAsciiDigit c = true) (head : ds.head? ≠ some '0') :
    ∃ l : Literal, l.Written isDigit text.toList ∧ l.isWhole = true ∧
      Text.ofInt l.toInt = text := by
  have tight : Text.Tight ds := ⟨nonempty, ascii, .inr head⟩
  have positive : 0 < Text.number ds := Text.number_pos tight fun zero => head (by rw [zero]; rfl)
  obtain ⟨l, form⟩ : ∃ l : Literal, l = ⟨negative, ds, none, none⟩ := ⟨_, rfl⟩
  have plain : l.Plain := by
    rw [form]
    exact ⟨tight, fun _ there => nomatch there⟩
  have same : text.toList = Json.sign l.negative ++ l.spelling := by
    simp [spelled, form, Literal.spelling, Literal.pointPart, Literal.markPart]
  have sign : decide (l.toInt < 0) = negative := by
    cases negative <;> simp [form, Literal.toInt, positive]
  have magnitude : l.toInt.natAbs = Text.number ds := by
    cases negative <;> simp [form, Literal.toInt]
  refine ⟨l, same ▸ plain.written, by rw [form]; rfl, ?_⟩
  rw [← String.toList_inj, Json.toList_ofInt, sign, magnitude, Text.digits_number tight, spelled]

/-- A whole number in its usual spelling is written as it was. -/
theorem parse_of_usual (usual : IsUsual text) (short : text.length ≤ DigitLimit.limit) :
    ∃ v, parse text = .ok v ∧ format v = .ok text := by
  rcases usual with rfl | ⟨negative, ds, spelled, nonempty, ascii, head⟩
  · exact ⟨.int 0, rfl, rfl⟩
  · obtain ⟨l, written, whole, same⟩ := exists_literal_of_digits nonempty spelled ascii head
    obtain ⟨read, writable⟩ := parse_of_whole written whole short
    exact ⟨_, read, (write_of_short writable).trans (congrArg Except.ok same)⟩

/-- A text that is not too long is read, and what was read is written as the text's normal form.
The normal form stands for the same value and is its own.  A text is in it already if it is no
literal, if it is one with a point or an exponent that is too great for a binary number, or if it is
a whole number in its usual spelling. -/
theorem format_parse {text : String} (short : text.length ≤ 4300) :
    ∃ v normal w, parse text = .ok v ∧ format v = .ok normal ∧ parse normal = .ok w ∧
      w.SameValue v ∧ format w = .ok normal ∧
      ((¬ ∃ l : Literal, l.Written isDigit text.toList) → normal = text) ∧
      (∀ l : Literal, l.Written isDigit text.toList → l.isWhole = false → l.Exceeds →
        normal = text) ∧
      (IsUsual text → normal = text) := by
  obtain ⟨v, read, writable⟩ := exists_parse short
  obtain ⟨normal, written, back⟩ := exists_format_parse writable
  have kept {w : Scalar} (other : parse text = .ok w) (same : format w = .ok text) :
      normal = text := by
    obtain rfl : v = w := Except.ok.inj (read.symm.trans other)
    exact Except.ok.inj (written.symm.trans same)
  refine ⟨v, normal, v.settled, read, written, back, settled_sameValue v,
    (format_settled v).trans written, fun word => ?_, fun l literal notWhole exceeds => ?_,
    fun usual => ?_⟩
  · obtain ⟨w, other, -, same⟩ := parse_of_word (not_exists.mp word)
    exact kept other same
  · exact kept (parse_of_exceeds literal notWhole exceeds) rfl
  · obtain ⟨w, other, same⟩ := parse_of_usual usual short
    exact kept other same

/-- A word, a literal with too great an exponent and a whole number in its usual spelling are in
their normal form; digits of another script are not. -/
theorem format_parse_of_samples :
    let great : Literal := ⟨false, ['1'], some ['0'], some 309⟩
    "1e".length ≤ 4300 ∧ "+1.0e309".length ≤ 4300 ∧ "-42".length ≤ 4300 ∧ "٤٢".length ≤ 4300 ∧
      great.Written isDigit "+1.0e309".toList ∧ great.isWhole = false ∧ great.Exceeds ∧
      IsUsual "-42" ∧
      (∃ v, parse "1e" = .ok v ∧ format v = .ok "1e") ∧
      (∃ v, parse "+1.0e309" = .ok v ∧ format v = .ok "+1.0e309") ∧
      (∃ v, parse "-42" = .ok v ∧ format v = .ok "-42") ∧
      ∃ v normal w, parse "٤٢" = .ok v ∧ format v = .ok normal ∧ parse normal = .ok w ∧
        w.SameValue v ∧ format w = .ok normal := by
  intro great
  have word : ¬ ∃ l : Literal, l.Written isDigit "1e".toList := fun ⟨l, written⟩ => by
    cases Literal.read?_isDigit.mpr written
  have written : great.Written isDigit "+1.0e309".toList := Literal.read?_isDigit.mp rfl
  have exceeds : great.Exceeds := by
    rw [Literal.Exceeds]
    decide +kernel
  have digits : ∀ c ∈ ['4', '2'], isAsciiDigit c = true :=
    List.forall_mem_cons.mpr ⟨rfl, List.forall_mem_singleton.mpr rfl⟩
  have usual : IsUsual "-42" := .inr ⟨true, ['4', '2'], rfl, by decide, digits, by decide⟩
  have short : "1e".length ≤ 4300 ∧ "+1.0e309".length ≤ 4300 ∧ "-42".length ≤ 4300 ∧
      "٤٢".length ≤ 4300 := by decide +kernel
  obtain ⟨short₁, short₂, short₃, short₄⟩ := short
  obtain ⟨v₁, _, -, read₁, written₁, -, -, -, kept₁, -, -⟩ := format_parse short₁
  obtain ⟨v₂, _, -, read₂, written₂, -, -, -, -, kept₂, -⟩ := format_parse short₂
  obtain ⟨v₃, _, -, read₃, written₃, -, -, -, -, -, kept₃⟩ := format_parse short₃
  obtain ⟨v₄, normal, w, read₄, written₄, back, same, settled, -⟩ := format_parse short₄
  obtain rfl := kept₁ word
  obtain rfl := kept₂ great written rfl exceeds
  obtain rfl := kept₃ usual
  exact ⟨short₁, short₂, short₃, short₄, written, rfl, exceeds, usual, ⟨v₁, read₁, written₁⟩,
    ⟨v₂, read₂, written₂⟩, ⟨v₃, read₃, written₃⟩, v₄, normal, w, read₄, written₄, back, same,
    settled⟩

theorem plus_notMem_ofInt {n : Int} : '+' ∉ (Text.ofInt n).toList := by
  rw [Json.toList_ofInt]
  intro member
  rcases List.mem_append.mp member with sign | digit
  · by_cases below : n < 0 <;> simp [Json.sign, below] at sign
  · cases Text.ascii_digits '+' digit

/-- A whole number with a plus sign loses it, however great it is.  With a point or an exponent it
would be too great for a binary number. -/
theorem format_parse_of_great_whole :
    let text := String.ofList ('+' :: '1' :: List.replicate 309 '0')
    text.length ≤ 4300 ∧ (∃ l : Literal, l.Written isDigit text.toList ∧ l.Exceeds) ∧
      ∃ n normal, parse text = .ok (.int n) ∧ format (.int n) = .ok normal ∧ normal ≠ text := by
  intro text
  have spelled : text.toList = '+' :: '1' :: List.replicate 309 '0' := String.toList_ofList
  have short : text.length ≤ 4300 := by
    rw [← String.length_toList, spelled]
    decide +kernel
  obtain ⟨l, form⟩ : ∃ l : Literal, l = ⟨false, '1' :: List.replicate 309 '0', none, none⟩ :=
    ⟨_, rfl⟩
  have written : l.Written isDigit text.toList := by
    have zeros (c : Char) (member : c ∈ List.replicate 309 '0') : isDigit c = true :=
      Text.isDigit_of_ascii (Text.ascii_zeros c member)
    rw [form, spelled]
    refine ⟨List.forall_mem_cons.mpr ⟨rfl, zeros⟩, fun _ there => (nomatch there),
      List.append_ne_nil_of_left_ne_nil (List.cons_ne_nil '1' _) _, ['+'], [], .inr rfl, rfl, ?_⟩
    simp only [Literal.pointPart, List.append_nil, List.singleton_append]
  have exceeds : l.Exceeds := by
    rw [form, Literal.Exceeds]
    decide +kernel
  have whole : l.isWhole = true := by rw [form]; rfl
  obtain ⟨read, writable⟩ := parse_of_whole written whole short
  refine ⟨short, ⟨l, written, exceeds⟩, l.toInt, _, read, write_of_short writable, fun same => ?_⟩
  have sign : '+' ∈ text.toList := by
    rw [spelled]
    exact List.mem_cons_self ..
  exact plus_notMem_ofInt (same ▸ sign)

end Parley.Scalar
