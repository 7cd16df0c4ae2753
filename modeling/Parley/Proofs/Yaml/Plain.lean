import Parley.Proofs.Json.Numeral
import Parley.Proofs.Number.Literal
import Parley.Yaml.Plain

/-!
# What scalars without quotes are read as

A number is read back from the form in which configurations are written as the number that it was.
A text that may be written without quotes has no reading but itself, and neither has any text with a
blank in it.
-/

namespace Parley.Yaml.Plain

open Text (isAsciiDigit Tight digits)
open Json (sign)

variable {cs ds : List Char} {c : Char} {negative : Bool}

/-- The words that are read as null or as a truth value. -/
def names : List String :=
  ["", "~", "null", "Null", "NULL", "true", "True", "TRUE", "false", "False", "FALSE"]

theorem contains_eq_false {words : List String} (other : ∀ s ∈ words, s.toList ≠ cs) :
    words.contains (String.ofList cs) = false := by
  rw [Bool.eq_false_iff]
  intro member
  exact other _ (by simpa using member) String.toList_ofList

theorem exists_of_bool? {b : Bool} (read : bool? cs = some b) : ∃ s ∈ names, s.toList = cs := by
  have named {s : String} (same : String.ofList cs = s) (member : s ∈ names) :
      ∃ s ∈ names, s.toList = cs := ⟨s, member, by rw [← same, String.toList_ofList]⟩
  rw [bool?] at read
  split at read
  next same => exact named same (by decide)
  next same => exact named same (by decide)
  next same => exact named same (by decide)
  next same => exact named same (by decide)
  next same => exact named same (by decide)
  next same => exact named same (by decide)
  next => cases read

/-- A word that is no name is a number or a text. -/
theorem read_of_unnamed (unnamed : ∀ s ∈ names, s.toList ≠ cs) :
    read cs = match float? cs, int? cs with
      | some x, _ => .ok (.float x (if x.isFinite then some (String.ofList cs) else none))
      | none, some n => readInt cs n
      | none, none => .ok (.text (String.ofList cs)) := by
  have full : isNull cs = false :=
    contains_eq_false fun s member => unnamed s (List.mem_append_left _ member)
  have other : bool? cs = none := Option.eq_none_iff_forall_ne_some.mpr fun b read => by
    obtain ⟨s, member, same⟩ := exists_of_bool? read
    exact unnamed s member same
  rw [read, full, other]
  cases float? cs <;> cases int? cs <;> rfl

section Numbers

theorem magnitude_tight (tight : Tight ds) : magnitude ds = (10, ds) := by
  have single : ∀ d rest, ds ≠ '0' :: d :: rest := by
    rintro d rest rfl
    obtain single | other := tight.head
    · cases single
    · exact other rfl
  unfold magnitude
  split
  next => exact absurd rfl (single _ _)
  next => exact absurd rfl (single _ _)
  next => exact absurd rfl (single _ _)
  next => rfl

theorem hexValue?_of_ascii (ascii : isAsciiDigit c = true) :
    Text.hexValue? c = some (c.toNat - 48) := by
  rw [Text.hexValue?, if_pos (of_decide_eq_true ascii)]

theorem joined_ascii (ascii : ∀ c ∈ ds, isAsciiDigit c = true) : joined ds = ds := by
  refine List.filter_eq_self.mpr fun c member => ?_
  have other : c ≠ '_' := by
    rintro rfl
    exact absurd (ascii _ member) (by decide)
  simpa using other

theorem inBase_ascii (ascii : ∀ c ∈ ds, isAsciiDigit c = true) : inBase 10 ds = Text.number ds := by
  have fold (n : Nat) : ds.foldl (fun n c => n * 10 + (Text.hexValue? c).getD 0) n =
      Text.numberFrom n ds := by
    induction ds generalizing n with
    | nil => rfl
    | cons c ds ih =>
        obtain ⟨here, ascii⟩ := List.forall_mem_cons.mp ascii
        rw [List.foldl_cons, ih ascii, Text.numberFrom, hexValue?_of_ascii here,
          Text.digitValue?_of_ascii here, Nat.mul_comm]
  rw [inBase, joined_ascii ascii, fold, Text.number]

theorem isInBase_tight (tight : Tight ds) : isInBase 10 ds = true := by
  have each : ∀ c ∈ ds, (Text.hexValue? c).any (· < 10) = true := by
    intro c member
    have ascii := tight.ascii c member
    rw [hexValue?_of_ascii ascii]
    have high := (Text.isAsciiDigit_iff.mp ascii).2
    simp only [Option.any_some, decide_eq_true_eq]
    omega
  simp only [isInBase, Bool.and_eq_true, Bool.not_eq_true', List.isEmpty_eq_false_iff,
    List.all_eq_true, Bool.or_eq_true]
  exact ⟨tight.nonempty, fun c member => .inr (each c member)⟩

/-- The words behind a sign, or none, that are read as numbers which are not finite. -/
def numberNames : List String := [".inf", ".Inf", ".INF", ".nan", ".NaN", ".NAN"]

theorem named?_eq_none (other : ∀ s ∈ numberNames, s.toList ≠ (Literal.takeSign cs).2)
    (plain : ∀ s ∈ numberNames, s.toList ≠ cs) : named? cs = none := by
  have infinite : [".inf", ".Inf", ".INF"].contains
      (String.ofList (Literal.takeSign cs).2) = false :=
    contains_eq_false fun s member => other s (List.mem_append_left _ member)
  have nan : [".nan", ".NaN", ".NAN"].contains (String.ofList cs) = false :=
    contains_eq_false fun s member =>
      plain s (List.mem_append_right [".inf", ".Inf", ".INF"] member)
  simp only [named?, infinite, nan, Bool.false_eq_true, if_false]

section Signed

variable (negative : Bool) (rest : List Char)

/-- What begins with digits behind a sign begins with a sign or a digit. -/
theorem head?_digits (tight : Tight ds) (other : isAsciiDigit c = false) (sign : c ≠ '-') :
    (Json.sign negative ++ (ds ++ rest)).head? ≠ some c := by
  obtain ⟨d, ds, rfl⟩ := List.exists_cons_of_ne_nil tight.nonempty
  cases negative with
  | true => simpa [Json.sign] using sign.symm
  | false =>
      intro same
      have here := tight.ascii d List.mem_cons_self
      rw [Option.some.inj same] at here
      cases other.symm.trans here

theorem takeSign_digits (tight : Tight ds) :
    Literal.takeSign (sign negative ++ (ds ++ rest)) = (negative, ds ++ rest) := by
  refine Literal.takeSign_append (Literal.isSign_sign negative) ?_
  rw [List.head?_append_of_ne_nil _ tight.nonempty]
  exact Literal.separate_isAsciiDigit.head?_ne tight.ascii

/-- What begins with digits behind a sign is no name. -/
theorem ne_of_digits (tight : Tight ds) {words : List String}
    (heads : ∀ s ∈ words, s.toList.head?.all (fun c => !isAsciiDigit c && c != '-') = true) :
    ∀ s ∈ words, s.toList ≠ sign negative ++ (ds ++ rest) := by
  intro s member same
  cases first : s.toList.head? with
  | none => simp [same, tight.nonempty] at first
  | some d =>
      have head := heads s member
      simp only [first, Option.all_some, Bool.and_eq_true, Bool.not_eq_true', bne_iff_ne] at head
      exact head?_digits _ _ tight head.1 head.2 (same ▸ first)

theorem named?_digits (tight : Tight ds) : named? (sign negative ++ (ds ++ rest)) = none := by
  refine named?_eq_none ?_ (ne_of_digits _ _ tight (by decide))
  rw [takeSign_digits _ _ tight]
  exact ne_of_digits false _ tight (by decide)

end Signed

theorem isDigitOrGap_of_ascii (ascii : ∀ c ∈ ds, isAsciiDigit c = true) :
    ∀ c ∈ ds, isDigitOrGap c = true := fun c member => by
  rw [isDigitOrGap, ascii c member, Bool.true_or]

theorem isFraction_digits (ascii : ∀ c ∈ ds, isAsciiDigit c = true) : isFraction ds = false := by
  have all : Text.span isDigitOrGap (ds ++ []) = (ds, []) :=
    Text.span_of_stop (isDigitOrGap_of_ascii ascii) fun _ none => nomatch none
  rw [List.append_nil] at all
  simp [isFraction, all, isExponent]

/-- A whole number that may be written is read back. -/
theorem read_digits {n : Nat} (short : (digits n).length ≤ DigitLimit.limit) :
    read (sign negative ++ digits n) =
      .ok (.int (if negative then -(n : Int) else n) none) := by
  have tight : Tight (digits n) := NumberStyle.tight_digits
  have taken := takeSign_digits negative [] tight
  have unnamed := named?_digits negative [] tight
  have other : ∀ s ∈ names, s.toList ≠ sign negative ++ (digits n ++ []) :=
    ne_of_digits negative [] tight (by decide)
  have front := head?_digits negative [] tight (by decide : isAsciiDigit '_' = false) (by decide)
  rw [List.append_nil] at taken unnamed other front
  have whole : int? (sign negative ++ digits n) = some (if negative then -(n : Int) else n) := by
    simp only [int?, taken, magnitude_tight tight, isInBase_tight tight, inBase_ascii tight.ascii,
      Text.number_digits, bne_iff_ne.mpr front, Bool.and_self, if_true]
  have point : float? (sign negative ++ digits n) = none := by
    simp only [float?, unnamed, taken, isFraction_digits tight.ascii, Bool.false_eq_true, if_false]
  have spare : isSpelled (sign negative ++ digits n) = false := by
    have plain : '_' ∉ digits n := fun member =>
      absurd (Text.ascii_digits _ member) (by decide)
    have single : ¬ ((digits n).head? = some '0' ∧ 1 < (digits n).length) := by
      obtain zero | other := tight.head
      · simp [zero]
      · exact fun both => other both.1
    simpa [isSpelled, taken, plain] using single
  have few : ¬ DigitLimit.limit < (digits n).length := Nat.not_lt.mpr short
  rw [read_of_unnamed other, point, whole]
  simp only [readInt, taken, joined_ascii tight.ascii, few, spare, decide_false, Bool.and_false,
    Bool.false_eq_true, if_false]

/-- The exponent part of a number has the shape of one. -/
theorem exists_markPart (e : Int) : ∃ rest, Literal.markPart (some e) = 'e' :: rest ∧
    isExponent false ('e' :: rest) = true := by
  obtain ⟨ds, -, -, -, form⟩ := Json.exponentPart_eq (e := e)
  refine ⟨_, form, ?_⟩
  have read := (Literal.readExponent?_eq_some Literal.separate_isAsciiDigit).mpr
    (Literal.isExponent_markPart (some e))
  rw [Literal.markPart, form] at read
  simp [isExponent, read]

/-- The spelling of a literal that is no whole number has the shape of a binary number. -/
theorem isFraction_spelling {l : Literal} (plain : l.Plain) (notWhole : l.isWhole = false) :
    isFraction l.spelling = true := by
  obtain ⟨isMinus, whole, fraction, exponent⟩ := l
  have stop : ∀ c ∈ (Literal.markPart exponent).head?, isDigitOrGap c = false := by
    cases exponent with
    | none => exact fun _ none => nomatch none
    | some e =>
        obtain ⟨rest, form, -⟩ := exists_markPart e
        rw [form]
        rintro _ ⟨⟩
        rfl
  have head := head?_digits false [] plain.whole (by decide : isAsciiDigit '_' = false) (by decide)
  have inside := isDigitOrGap_of_ascii plain.whole.ascii
  have full : whole.isEmpty = false := List.isEmpty_eq_false_iff.mpr plain.whole.nonempty
  replace head : (whole.head? != some '_') = true := by simpa [sign] using head
  cases fraction with
  | some ds =>
      have point : Text.span isDigitOrGap (whole ++ '.' :: (ds ++ Literal.markPart exponent)) =
          (whole, '.' :: (ds ++ Literal.markPart exponent)) :=
        Text.span_of_stop inside (by simp; rfl)
      have behind : Text.span isDigitOrGap (ds ++ Literal.markPart exponent) =
          (ds, Literal.markPart exponent) :=
        Text.span_of_stop (isDigitOrGap_of_ascii (plain.fraction ds rfl).2) stop
      have ends : ((Literal.markPart exponent).isEmpty ||
          isExponent false (Literal.markPart exponent)) = true := by
        cases exponent with
        | none => rfl
        | some e =>
            obtain ⟨rest, form, shaped⟩ := exists_markPart e
            rw [form, shaped, Bool.or_true]
      simp only [Literal.spelling, Literal.pointPart, List.cons_append, isFraction, point, behind,
        full, head, ends, Bool.false_eq_true, if_false, Bool.and_self]
  | none =>
      cases exponent with
      | none => cases notWhole
      | some e =>
          obtain ⟨rest, form, shaped⟩ := exists_markPart e
          rw [form] at stop
          have behind : Text.span isDigitOrGap (whole ++ 'e' :: rest) = (whole, 'e' :: rest) :=
            Text.span_of_stop inside stop
          simp [Literal.spelling, Literal.pointPart, form, isFraction, behind, full, head, shaped]

/-- The numbers of a configuration are written of the characters of numbers. -/
theorem isNumberChar_config {x : Binary64} : (NumberStyle.config.text x).toList ≠ [] ∧
    ∀ c ∈ (NumberStyle.config.text x).toList, Json.isNumberChar c = true :=
  Json.isNumberChar_styled ⟨by decide, List.all_eq_true.mp rfl⟩
    ⟨by decide, List.all_eq_true.mp rfl⟩ x

/-- A finite number is read back in the spelling that it has. -/
theorem read_finite {exponent : Fin 2047} {fraction : Fin (2 ^ (52 : Nat))} :
    let x := Binary64.finite negative exponent fraction
    read (NumberStyle.config.text x).toList =
      .ok (.float x (some (NumberStyle.config.text x))) := by
  intro x
  obtain ⟨l, plain, notWhole, value, spelled⟩ :
      ∃ l : Literal, l.Plain ∧ l.isWhole = false ∧ l.toBinary = x ∧
        (NumberStyle.config.text x).toList = sign l.negative ++ l.spelling :=
    Json.toList_text negative
  have tight : Tight l.whole := plain.whole
  have unnamed : named? (sign l.negative ++ l.spelling) = none := named?_digits _ _ tight
  have other : ∀ s ∈ names, s.toList ≠ sign l.negative ++ l.spelling :=
    ne_of_digits _ _ tight (by decide)
  have taken : Literal.takeSign (sign l.negative ++ l.spelling) = (l.negative, l.spelling) :=
    takeSign_digits _ _ tight
  have written : l.Written isAsciiDigit (sign l.negative ++ l.spelling) :=
    ⟨tight.ascii, fun ds there => (plain.fraction ds there).2,
      List.append_ne_nil_of_left_ne_nil tight.nonempty _,
      _, _, Literal.isSign_sign _, Literal.isExponent_markPart _, rfl⟩
  have whole : joined (sign l.negative ++ l.spelling) = sign l.negative ++ l.spelling := by
    refine List.filter_eq_self.mpr fun c member => bne_iff_ne.mpr ?_
    exact Json.ne_of_isNumberChar (isNumberChar_config.2 c (spelled ▸ member)) (by decide)
  have float : float? (sign l.negative ++ l.spelling) = some x := by
    simp only [float?, unnamed, taken, isFraction_spelling plain notWhole, whole,
      Literal.read?_of_written Literal.separate_isAsciiDigit written, value, Option.map_some,
      if_true]
  rw [spelled, read_of_unnamed other, float, ← spelled]
  simp only [String.ofList_toList]
  rfl

/-- Every binary number is read back, and keeps the spelling that it has if it is finite. -/
theorem read_text (x : Binary64) : ∃ spelling,
    read (NumberStyle.config.text x).toList = .ok (.float x spelling) ∧
      spelling.getD (NumberStyle.config.text x) = NumberStyle.config.text x := by
  cases x with
  | nan => exact ⟨none, rfl, rfl⟩
  | infinite negative => cases negative <;> exact ⟨none, rfl, rfl⟩
  | finite negative exponent fraction => exact ⟨_, read_finite, rfl⟩

end Numbers

section Texts

/-- A text that may be written without quotes is read as it is. -/
theorem read_of_isText (plain : isText cs = true) : read cs = .ok (.text (String.ofList cs)) := by
  simp only [isText, Bool.and_eq_true, Bool.not_eq_true', Option.isNone_iff_eq_none] at plain
  obtain ⟨⟨⟨⟨⟨full, bool⟩, float⟩, int⟩, -⟩, -⟩ := plain
  have float : float? cs = none := by
    simp only [isFloat, Bool.or_eq_false_iff, Option.isSome_eq_false_iff,
      Option.isNone_iff_eq_none] at float
    simp only [float?, float.1, float.2, Bool.false_eq_true, if_false]
  rw [read, full, bool, float, int]
  rfl

theorem blank_mem_takeSign (blank : ' ' ∈ cs) : ' ' ∈ (Literal.takeSign cs).2 := by
  obtain ⟨sign, isSign, same⟩ := Literal.isSign_takeSign cs
  rw [same, List.mem_append] at blank
  refine blank.resolve_left fun member => ?_
  rw [Literal.IsSign] at isSign
  split at isSign
  next => simp [isSign] at member
  next => rcases isSign with rfl | rfl <;> simp at member

theorem blank_mem_magnitude (blank : ' ' ∈ cs) : ' ' ∈ (magnitude cs).2 := by
  unfold magnitude
  split
  next => simpa using blank
  next => simpa using blank
  next => simpa using blank
  next => exact blank

/-- A whole number has no blank in it. -/
theorem int?_of_blank (blank : ' ' ∈ cs) : int? cs = none := by
  have inside := blank_mem_magnitude (blank_mem_takeSign blank)
  rw [int?]
  dsimp only
  split
  next whole =>
    simp only [isInBase, Bool.and_eq_true, List.all_eq_true] at whole
    exact absurd (whole.2.2 ' ' inside) (by simp [Text.hexValue?])
  next => rfl

theorem blank_notMem_exponent {signed : Bool} (shaped : isExponent signed cs = true) :
    ' ' ∉ cs := by
  cases cs with
  | nil => cases shaped
  | cons mark rest =>
      simp only [isExponent, Bool.and_eq_true, Literal.readExponent?] at shaped
      obtain ⟨⟨marked, -⟩, read⟩ := shaped
      rw [if_pos marked] at read
      split at read
      next digits =>
        simp only [List.all_eq_true] at digits
        intro blank
        obtain rfl | blank := List.mem_cons.mp blank
        · cases marked
        · exact absurd (digits.2 ' ' (blank_mem_takeSign blank)) (by decide)
      next => cases read

theorem blank_mem_behind {rest : List Char} (parts : Text.span isDigitOrGap cs = (ds, rest))
    (blank : ' ' ∈ cs) : ' ' ∈ rest := by
  obtain ⟨rfl, inside, -⟩ := Text.span_eq.mp parts
  exact (List.mem_append.mp blank).resolve_left fun member =>
    absurd (inside ' ' member) (by decide)

theorem isFraction_of_blank (blank : ' ' ∈ cs) : isFraction cs = false := by
  rcases parts : Text.span isDigitOrGap cs with ⟨whole, rest⟩
  have behind := blank_mem_behind parts blank
  have shapeless {signed : Bool} {cs : List Char} (blank : ' ' ∈ cs) :
      (cs.isEmpty || isExponent signed cs) = false := by
    refine Bool.or_eq_false_iff.mpr ⟨List.isEmpty_eq_false_iff.mpr (List.ne_nil_of_mem blank), ?_⟩
    exact Bool.eq_false_iff.mpr fun shaped => blank_notMem_exponent shaped blank
  rw [isFraction, parts]
  dsimp only
  split
  next rest =>
    rcases parts : Text.span isDigitOrGap rest with ⟨fraction, exponent⟩
    have behind := blank_mem_behind parts (by simpa using behind)
    dsimp only
    split <;> simp only [shapeless behind, Bool.and_false]
  next =>
    rw [Bool.eq_false_iff.mpr fun shaped => blank_notMem_exponent shaped behind, Bool.and_false]

/-- A text with a blank in it is read as it is. -/
theorem read_of_blank (blank : ' ' ∈ cs) : read cs = .ok (.text (String.ofList cs)) := by
  have inside := blank_mem_takeSign blank
  have other {words : List String} {cs : List Char} (plain : ∀ s ∈ words, ' ' ∉ s.toList)
      (blank : ' ' ∈ cs) : ∀ s ∈ words, s.toList ≠ cs :=
    fun s known same => plain s known (same ▸ blank)
  have unnamed : named? cs = none :=
    named?_eq_none (other (by decide) inside) (other (by decide) blank)
  have float : float? cs = none := by
    simp only [float?, unnamed, isFraction_of_blank inside, Bool.false_eq_true, if_false]
  rw [read_of_unnamed (other (by decide) blank), float, int?_of_blank blank]

end Texts

end Parley.Yaml.Plain
