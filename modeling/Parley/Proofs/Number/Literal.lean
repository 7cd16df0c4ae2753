import Parley.Proofs.Json.Number

/-!
# The grammar of decimal literals

`Literal.Written` says which texts are literals and what each of their parts stands for: a sign or
none, digits with at most one point before, among or behind them, and an exponent or none.  Reading
accepts exactly these texts, and a text is at most one literal.
-/

namespace Parley

namespace Literal

/-- Whether characters are the sign of a number. -/
def IsSign (negative : Bool) (cs : List Char) : Prop :=
  if negative then cs = ['-'] else cs = [] ∨ cs = ['+']

/-- Whether characters are the exponent part of a number, mark included. -/
def IsExponent (digit : Char → Bool) : Option Int → List Char → Prop
  | none, cs => cs = []
  | some e, cs => ∃ mark negative sign ds, (mark = 'e' ∨ mark = 'E') ∧ IsSign negative sign ∧
      (ds ≠ [] ∧ ∀ c ∈ ds, digit c = true) ∧ cs = mark :: (sign ++ ds) ∧
      e = if negative then -(Text.number ds : Int) else Text.number ds

/-- Whether characters are a literal, in digits of a given class: a sign, digits, a point with
digits behind it and an exponent, all of which may be missing but for one digit before or behind the
point. -/
structure Written (digit : Char → Bool) (l : Literal) (cs : List Char) : Prop where
  whole : ∀ c ∈ l.whole, digit c = true
  fraction : ∀ ds ∈ l.fraction, ∀ c ∈ ds, digit c = true
  digits : l.whole ++ l.fraction.getD [] ≠ []
  parts : ∃ sign exponent, IsSign l.negative sign ∧ IsExponent digit l.exponent exponent ∧
    cs = sign ++ (l.whole ++ (pointPart l.fraction ++ exponent))

variable {digit : Char → Bool} {l : Literal} {cs rest sign : List Char} {negative : Bool}
  {exponent : Option Int}

section Signs

theorem isSign_takeSign (cs : List Char) :
    ∃ sign, IsSign (takeSign cs).1 sign ∧ cs = sign ++ (takeSign cs).2 := by
  rw [takeSign.eq_def]
  split
  next cs => exact ⟨['-'], rfl, rfl⟩
  next cs => exact ⟨['+'], .inr rfl, rfl⟩
  next => exact ⟨[], .inl rfl, rfl⟩

/-- A sign is taken off what does not begin with one itself. -/
theorem takeSign_append (isSign : IsSign negative sign)
    (stop : ∀ c ∈ rest.head?, c ≠ '-' ∧ c ≠ '+') : takeSign (sign ++ rest) = (negative, rest) := by
  cases negative with
  | true =>
      obtain rfl : sign = ['-'] := isSign
      rfl
  | false =>
      rcases isSign with rfl | rfl
      · cases rest with
        | nil => rfl
        | cons c rest =>
            obtain ⟨minus, plus⟩ := stop c rfl
            rw [List.nil_append, takeSign.eq_def]
            split
            next same => exact absurd (List.cons.inj same).1 minus
            next same => exact absurd (List.cons.inj same).1 plus
            next => rfl
      · rfl

end Signs

/-- Whether the characters that mark the parts of a number are no digits. -/
def Separate (digit : Char → Bool) : Prop :=
  ∀ c ∈ ['-', '+', '.', 'e', 'E'], digit c = false

/-- Digits do not begin with a sign. -/
theorem Separate.head?_ne (separate : Separate digit) {ds : List Char}
    (digits : ∀ c ∈ ds, digit c = true) : ∀ c ∈ ds.head?, c ≠ '-' ∧ c ≠ '+' := by
  intro c first
  have here := digits c (List.mem_of_mem_head? first)
  constructor
  · rintro rfl
    exact absurd here (by simp [separate '-' (by decide)])
  · rintro rfl
    exact absurd here (by simp [separate '+' (by decide)])

theorem readExponent?_eq_some (separate : Separate digit) :
    readExponent? digit cs = some exponent ↔ IsExponent digit exponent cs := by
  constructor
  · intro read
    cases cs with
    | nil =>
        cases read
        rfl
    | cons c cs =>
        obtain ⟨sign, isSign, same⟩ := isSign_takeSign cs
        rw [readExponent?] at read
        split at read
        next mark =>
          dsimp only at read
          split at read
          next digits =>
            cases read
            have digits : (takeSign cs).2 ≠ [] ∧ ∀ c ∈ (takeSign cs).2, digit c = true := by
              simpa using digits
            exact ⟨c, _, sign, _, by simpa using mark, isSign, digits, by rw [← same], rfl⟩
          next => cases read
        next => cases read
  · intro isExponent
    cases exponent with
    | none =>
        obtain rfl : cs = [] := isExponent
        rfl
    | some e =>
        obtain ⟨mark, negative, sign, ds, marked, isSign, ⟨nonempty, digits⟩, rfl, rfl⟩ :=
          isExponent
        have taken := takeSign_append isSign (separate.head?_ne digits)
        have marked : (mark == 'e' || mark == 'E') = true := by simpa using marked
        have all : (!ds.isEmpty && ds.all digit) = true := by simpa [nonempty] using digits
        simp only [readExponent?, marked, taken, all, if_true]

/-- An exponent part begins with neither a digit nor a point. -/
theorem IsExponent.stop (isExponent : IsExponent digit exponent cs) (separate : Separate digit) :
    ∀ c ∈ cs.head?, digit c = false ∧ c ≠ '.' := by
  cases exponent with
  | none =>
      obtain rfl : cs = [] := isExponent
      exact fun c first => nomatch first
  | some e =>
      obtain ⟨mark, negative, sign, ds, marked, -, -, rfl, -⟩ := isExponent
      rintro _ ⟨⟩
      rcases marked with rfl | rfl
      · exact ⟨separate 'e' (by decide), by decide⟩
      · exact ⟨separate 'E' (by decide), by decide⟩

theorem span_spec (digit : Char → Bool) (cs : List Char) :
    ∃ ds rest, Text.span digit cs = (ds, rest) ∧ cs = ds ++ rest ∧ ∀ c ∈ ds, digit c = true :=
  ⟨_, _, rfl, (Text.span_append digit cs).symm, List.all_eq_true.mp List.all_takeWhile⟩

theorem readFraction?_eq_some (separate : Separate digit) {whole : List Char} :
    readFraction? digit negative whole cs = some l ↔ ∃ ds rest exponent,
      cs = ds ++ rest ∧ (∀ c ∈ ds, digit c = true) ∧ whole ++ ds ≠ [] ∧
        IsExponent digit exponent rest ∧ l = ⟨negative, whole, some ds, exponent⟩ := by
  constructor
  · intro read
    obtain ⟨ds, rest, spanned, same, digits⟩ := span_spec digit cs
    simp only [readFraction?, spanned] at read
    split at read
    next => cases read
    next some =>
      obtain ⟨exponent, isExponent, rfl⟩ := Option.map_eq_some_iff.mp read
      exact ⟨ds, rest, exponent, same, digits, by simpa using some,
        (readExponent?_eq_some separate).mp isExponent, rfl⟩
  · rintro ⟨ds, rest, exponent, rfl, digits, some, isExponent, rfl⟩
    have spanned := Text.span_of_stop digits fun c first => (isExponent.stop separate c first).1
    have some : ¬ (whole.isEmpty && ds.isEmpty) = true := by simpa using some
    simp only [readFraction?, spanned, if_neg some, (readExponent?_eq_some separate).mpr isExponent,
      Option.map_some]

theorem written_of_read? (separate : Separate digit) (read : read? digit cs = some l) :
    l.Written digit cs := by
  obtain ⟨sign, isSign, same⟩ := isSign_takeSign cs
  obtain ⟨whole, rest, spanned, parts, digits⟩ := span_spec digit (takeSign cs).2
  rw [parts] at same
  simp only [read?, spanned] at read
  split at read
  next rest =>
    obtain ⟨ds, rest, exponent, rfl, behind, some, isExponent, rfl⟩ :=
      (readFraction?_eq_some separate).mp read
    refine ⟨digits, ?_, some, sign, rest, isSign, isExponent, same⟩
    rintro _ ⟨⟩
    exact behind
  next =>
    split at read
    next => cases read
    next some =>
      obtain ⟨exponent, isExponent, rfl⟩ := Option.map_eq_some_iff.mp read
      exact ⟨digits, fun _ none => (nomatch none), by simpa using some, sign, rest, isSign,
        (readExponent?_eq_some separate).mp isExponent, same⟩

theorem read?_of_written (separate : Separate digit) (written : l.Written digit cs) :
    read? digit cs = some l := by
  obtain ⟨digits, behind, some, sign, rest, isSign, isExponent, rfl⟩ := written
  obtain ⟨negative, whole, fraction, exponent⟩ := l
  dsimp only at digits behind some isSign isExponent ⊢
  -- Neither the digits go on behind the first ones, nor is there a second sign.
  have stop : ∀ c ∈ (pointPart fraction ++ rest).head?, digit c = false := by
    cases fraction with
    | none => exact fun c first => (isExponent.stop separate c first).1
    | some ds =>
        rintro _ ⟨⟩
        exact separate '.' (by decide)
  have unsigned : ∀ c ∈ (whole ++ (pointPart fraction ++ rest)).head?, c ≠ '-' ∧ c ≠ '+' := by
    cases whole with
    | cons d ds => exact fun c first => separate.head?_ne digits c first
    | nil =>
        cases fraction with
        | none => exact absurd rfl some
        | some ds =>
            rintro _ ⟨⟩
            decide
  simp only [read?, takeSign_append isSign unsigned, Text.span_of_stop digits stop]
  cases fraction with
  | some ds =>
      exact (readFraction?_eq_some separate).mpr
        ⟨ds, rest, exponent, rfl, behind ds rfl, some, isExponent, rfl⟩
  | none =>
      have nonempty : ¬ whole.isEmpty = true := by simpa using some
      split
      next point =>
        have first : rest.head? = .some '.' := congrArg List.head? point
        exact absurd rfl (isExponent.stop separate '.' first).2
      next =>
        rw [if_neg nonempty]
        exact Option.map_eq_some_iff.mpr
          ⟨exponent, (readExponent?_eq_some separate).mpr isExponent, rfl⟩

/-- Reading accepts the literals and nothing else, and tells their parts. -/
theorem read?_eq_some (separate : Separate digit) :
    read? digit cs = some l ↔ l.Written digit cs :=
  ⟨written_of_read? separate, read?_of_written separate⟩

theorem separate_isDigit : Separate Text.isDigit := by
  simp only [Separate, List.forall_mem_cons]
  exact ⟨rfl, rfl, rfl, rfl, rfl, List.forall_mem_nil _⟩

/-- The literals in digits of any script. -/
theorem read?_isDigit : read? Text.isDigit cs = some l ↔ l.Written Text.isDigit cs :=
  read?_eq_some separate_isDigit

theorem isSign_sign (negative : Bool) : IsSign negative (Json.sign negative) := by
  cases negative with
  | true => exact rfl
  | false => exact .inl rfl

theorem isExponent_markPart (exponent : Option Int) :
    IsExponent Text.isAsciiDigit exponent (markPart exponent) := by
  cases exponent with
  | none => rfl
  | some e =>
      obtain ⟨ds, nonempty, ascii, value, form⟩ := Json.exponentPart_eq (e := e)
      refine ⟨'e', decide (e < 0), [if e < 0 then '-' else '+'], ds, .inl rfl, ?_,
        ⟨nonempty, ascii⟩, form, ?_⟩
      · by_cases below : e < 0 <;> simp [IsSign, below]
      · simp only [value, decide_eq_true_eq]
        split <;> omega

theorem IsExponent.mono {digit' : Char → Bool} (isExponent : IsExponent digit exponent cs)
    (wider : ∀ c, digit c = true → digit' c = true) : IsExponent digit' exponent cs := by
  cases exponent with
  | none => exact isExponent
  | some e =>
      obtain ⟨mark, negative, sign, ds, marked, isSign, ⟨nonempty, digits⟩, form, value⟩ :=
        isExponent
      exact ⟨mark, negative, sign, ds, marked, isSign,
        ⟨nonempty, fun c member => wider c (digits c member)⟩, form, value⟩

/-- What is written of a number is a literal. -/
theorem Plain.written (plain : l.Plain) :
    l.Written Text.isDigit (Json.sign l.negative ++ l.spelling) where
  whole c member := Text.isDigit_of_ascii (plain.whole.ascii c member)
  fraction ds there c member := Text.isDigit_of_ascii ((plain.fraction ds there).2 c member)
  digits := List.append_ne_nil_of_left_ne_nil plain.whole.nonempty _
  parts := ⟨_, _, isSign_sign _,
    (isExponent_markPart _).mono fun _ ascii => Text.isDigit_of_ascii ascii, rfl⟩

end Literal

end Parley
