import Parley.Proofs.Json.Numeral
import Parley.Proofs.Json.Text

/-!
# The grammar of JSON texts

`Spells` says which characters at the front of a text are a value, and what is left behind them; its
rules are those of the data format, apart from the way in which a reader goes through the text.
`Overlong` says that there is a whole number of too many digits, in front of which the text is as it
has to be: it stands where a value may stand, behind complete ones, whatever comes after it.
-/

namespace Parley.Json

/-- The values that have names. -/
def constants : List (List Char × Json) :=
  [(['n', 'u', 'l', 'l'], .null), (['t', 'r', 'u', 'e'], .bool true),
    (['f', 'a', 'l', 's', 'e'], .bool false), (['N', 'a', 'N'], .float .nan),
    (['I', 'n', 'f', 'i', 'n', 'i', 't', 'y'], .float (.infinite false)),
    (['-', 'I', 'n', 'f', 'i', 'n', 'i', 't', 'y'], .float (.infinite true))]

/-- Whether a text begins with blanks, or none, and what is left behind them. -/
inductive Gap : List Char → List Char → Prop
  | none {cs : List Char} : Gap cs cs
  | blank {c : Char} {cs rest : List Char} (blank : isGap c = true) (more : Gap cs rest) :
      Gap (c :: cs) rest

/-- Whether a text begins with a key and a colon, with the gaps around the colon. -/
def Key (k : String) (cs rest : List Char) : Prop :=
  ∃ ds es fs, cs = '"' :: ds ∧ Letters ds k.toList es ∧ Gap es (':' :: fs) ∧ Gap fs rest

mutual

/-- Whether a text begins with a value, and what is left behind it. -/
inductive Spells : List Char → Json → List Char → Prop
  | constant {name rest : List Char} {v : Json} (known : (name, v) ∈ constants) :
      Spells (name ++ rest) v rest
  | whole {l : Literal} {cs rest : List Char} (numeral : l.Numeral cs) (isWhole : l.isWhole = true)
      (fits : l.whole.length ≤ DigitLimit.limit) : Spells (cs ++ rest) (.int l.toInt) rest
  | binary {l : Literal} {cs rest : List Char} (numeral : l.Numeral cs)
      (notWhole : l.isWhole = false) :
      Spells (cs ++ rest) (.float l.toBinary) rest
  | text {cs rest : List Char} {s : String} (letters : Letters cs s.toList rest) :
      Spells ('"' :: cs) (.str s) rest
  | noItems {cs rest : List Char} (gap : Gap cs (']' :: rest)) : Spells ('[' :: cs) (.arr []) rest
  | items {cs ds rest : List Char} {vs : List Json} (gap : Gap cs ds) (items : Items ds vs rest) :
      Spells ('[' :: cs) (.arr vs) rest
  | noFields {cs rest : List Char} (gap : Gap cs ('\x7d' :: rest)) :
      Spells ('\x7b' :: cs) (.obj []) rest
  | fields {cs ds rest : List Char} {pairs : List (String × Json)} (gap : Gap cs ds)
      (members : Members ds pairs rest) : Spells ('\x7b' :: cs) (.obj (Fields.ofPairs pairs)) rest

/-- Whether a text begins with the items of an array, up to the closing bracket. -/
inductive Items : List Char → List Json → List Char → Prop
  | last {cs ds rest : List Char} {v : Json} (item : Spells cs v ds) (gap : Gap ds (']' :: rest)) :
      Items cs [v] rest
  | more {cs ds es fs rest : List Char} {v : Json} {vs : List Json} (item : Spells cs v ds)
      (gap : Gap ds (',' :: es)) (gap' : Gap es fs) (others : Items fs vs rest) :
      Items cs (v :: vs) rest

/-- Whether a text begins with the fields of an object, up to the closing brace. -/
inductive Members : List Char → List (String × Json) → List Char → Prop
  | last {cs ds es rest : List Char} {k : String} {v : Json} (key : Key k cs ds)
      (value : Spells ds v es) (gap : Gap es ('\x7d' :: rest)) : Members cs [(k, v)] rest
  | more {cs ds es fs gs rest : List Char} {k : String} {v : Json} {pairs : List (String × Json)}
      (key : Key k cs ds) (value : Spells ds v es) (gap : Gap es (',' :: fs)) (gap' : Gap fs gs)
      (others : Members gs pairs rest) : Members cs ((k, v) :: pairs) rest

end

/-- Whether a whole text is one value, with blanks around it. -/
def Spelled (cs : List Char) (v : Json) : Prop :=
  ∃ ds es, Gap cs ds ∧ Spells ds v es ∧ Gap es []

mutual

/-- Whether a text begins with a value that is not complete, up to a whole number with a count of
digits that is too great. -/
inductive Overlong : Nat → List Char → Prop
  | number {negative : Bool} {ds rest : List Char} (tight : Text.Tight ds)
      (long : DigitLimit.limit < ds.length) (stops : Stops rest) :
      Overlong ds.length (sign negative ++ (ds ++ rest))
  | items {n : Nat} {cs ds : List Char} (gap : Gap cs ds) (items : OverlongItems n ds) :
      Overlong n ('[' :: cs)
  | fields {n : Nat} {cs ds : List Char} (gap : Gap cs ds) (members : OverlongMembers n ds) :
      Overlong n ('\x7b' :: cs)

/-- Whether a text begins with items of which the last one is not complete. -/
inductive OverlongItems : Nat → List Char → Prop
  | here {n : Nat} {cs : List Char} (item : Overlong n cs) : OverlongItems n cs
  | later {n : Nat} {cs ds es fs : List Char} {v : Json} (item : Spells cs v ds)
      (gap : Gap ds (',' :: es)) (gap' : Gap es fs) (others : OverlongItems n fs) :
      OverlongItems n cs

/-- Whether a text begins with fields of which the last one is not complete. -/
inductive OverlongMembers : Nat → List Char → Prop
  | here {n : Nat} {cs ds : List Char} {k : String} (key : Key k cs ds) (value : Overlong n ds) :
      OverlongMembers n cs
  | later {n : Nat} {cs ds es fs gs : List Char} {k : String} {v : Json} (key : Key k cs ds)
      (value : Spells ds v es) (gap : Gap es (',' :: fs)) (gap' : Gap fs gs)
      (others : OverlongMembers n gs) : OverlongMembers n cs

end

/-- Whether a whole number of too many digits stands in a text where a value may stand. -/
def HasOverlong (n : Nat) (cs : List Char) : Prop := ∃ ds, Gap cs ds ∧ Overlong n ds

variable {c : Char} {cs ds rest gap : List Char} {v : Json} {vs : List Json} {k : String}
  {pairs : List (String × Json)} {n : Nat}

/-- A text of digits is too long as a whole. -/
theorem hasOverlong_of_tight (tight : Text.Tight ds) (long : DigitLimit.limit < ds.length) :
    HasOverlong ds.length ds := by
  have overlong : Overlong ds.length (sign false ++ (ds ++ [])) :=
    .number tight long (stops_of_head fun _ none => nomatch none)
  rw [List.append_nil] at overlong
  exact ⟨ds, .none, overlong⟩

section Gaps

theorem Gap.append (more : Gap cs rest) (blank : ∀ c ∈ gap, isGap c = true) :
    Gap (gap ++ cs) rest := by
  induction gap with
  | nil => exact more
  | cons c gap ih =>
      obtain ⟨here, blank⟩ := List.forall_mem_cons.mp blank
      exact .blank here (ih blank)

theorem gap_skip (cs : List Char) : Gap cs (skip cs) := by
  induction cs with
  | nil => exact .none
  | cons c cs ih =>
      by_cases blank : isGap c = true
      · rw [skip, List.dropWhile_cons_of_pos blank]
        exact .blank blank ih
      · rw [skip, List.dropWhile_cons_of_neg blank]
        exact .none

theorem Gap.skip_eq (gap : Gap cs rest) : skip cs = skip rest := by
  induction gap with
  | none => rfl
  | blank blank _ ih =>
      rw [← ih]
      exact List.dropWhile_cons_of_pos blank

theorem skip_of_head (solid : isGap c = false) : skip (c :: cs) = c :: cs := by
  simp [skip, solid]

theorem Gap.skip_eq_of_solid (gap : Gap cs (c :: rest)) (solid : isGap c = false) :
    skip cs = c :: rest := by
  rw [gap.skip_eq, skip_of_head solid]

theorem Gap.length_le (gap : Gap cs rest) : rest.length ≤ cs.length := by
  induction gap with
  | none => exact Nat.le_refl _
  | blank _ _ ih => exact Nat.le_succ_of_le ih

/-- A number ends before a gap, and before what comes behind a value. -/
theorem Gap.stops (gap : Gap cs rest) (closing : ∀ c ∈ rest.head?, c = ',' ∨ c = ']' ∨ c = '\x7d') :
    Stops cs := by
  have other (c : Char) (outside : isGap c = true ∨ c = ',' ∨ c = ']' ∨ c = '\x7d') :
      Text.isAsciiDigit c = false ∧ c ≠ '.' ∧ c ≠ 'e' ∧ c ≠ 'E' := by
    simp only [isGap, Bool.or_eq_true, beq_iff_eq] at outside
    rcases outside with (((rfl | rfl) | rfl) | rfl) | rfl | rfl | rfl <;> decide
  refine stops_of_head fun c first => other c ?_
  cases gap with
  | none => exact .inr (closing c first)
  | blank blank _ =>
      obtain rfl := Option.some.inj first
      exact .inl blank

end Gaps

/-- The characters with which a value can begin: none of them is a gap, closes an array or is a byte
order mark. -/
def isOpening (c : Char) : Bool :=
  Text.isAsciiDigit c || ['-', '"', '[', '\x7b', 'n', 't', 'f', 'N', 'I'].contains c

/-- Whether a text begins with a character with which a value can begin. -/
def Opens (cs : List Char) : Prop := ∃ c tail, cs = c :: tail ∧ isOpening c = true

section Heads

theorem isGap_of_isOpening (opening : isOpening c = true) : isGap c = false := by
  rw [Bool.eq_false_iff]
  intro blank
  simp only [isGap, Bool.or_eq_true, beq_iff_eq] at blank
  rcases blank with ((rfl | rfl) | rfl) | rfl <;> cases opening

theorem opens_of_tight (tight : Text.Tight ds) (negative : Bool) (rest : List Char) :
    Opens (sign negative ++ (ds ++ rest)) := by
  cases negative with
  | true => exact ⟨'-', _, rfl, rfl⟩
  | false =>
      obtain ⟨c, ds, rfl⟩ := List.exists_cons_of_ne_nil tight.nonempty
      have digit := tight.ascii c (List.mem_cons_self ..)
      exact ⟨c, _, rfl, by simp [isOpening, digit]⟩

theorem opens_of_numeral {l : Literal} (numeral : l.Numeral cs) (rest : List Char) :
    Opens (cs ++ rest) := by
  obtain ⟨plain, part, -, rfl⟩ := numeral
  rw [List.append_assoc, List.append_assoc]
  exact opens_of_tight plain.whole _ _

theorem Spells.opens (spells : Spells cs v rest) : Opens cs := by
  cases spells with
  | constant known =>
      have each : ∀ constant ∈ constants, Opens constant.1 := by
        simp only [constants, List.forall_mem_cons]
        exact ⟨⟨_, _, rfl, rfl⟩, ⟨_, _, rfl, rfl⟩, ⟨_, _, rfl, rfl⟩, ⟨_, _, rfl, rfl⟩,
          ⟨_, _, rfl, rfl⟩, ⟨_, _, rfl, rfl⟩, List.forall_mem_nil _⟩
      obtain ⟨c, tail, same, opening⟩ := each _ known
      exact ⟨c, tail ++ rest, congrArg (· ++ rest) same, opening⟩
  | whole numeral | binary numeral => exact opens_of_numeral numeral rest
  | text | noItems | items | noFields | fields => exact ⟨_, _, rfl, rfl⟩

theorem Key.opens (key : Key k cs rest) : Opens cs := by
  obtain ⟨ds, es, fs, rfl, -⟩ := key
  exact ⟨_, _, rfl, rfl⟩

theorem Items.opens (items : Items cs vs rest) : Opens cs := by
  cases items with
  | last item | more item => exact item.opens

theorem Members.opens (members : Members cs pairs rest) : Opens cs := by
  cases members with
  | last key | more key => exact key.opens

theorem Overlong.opens (overlong : Overlong n cs) : Opens cs := by
  cases overlong with
  | number tight => exact opens_of_tight tight _ _
  | items | fields => exact ⟨_, _, rfl, rfl⟩

theorem OverlongItems.opens (overlong : OverlongItems n cs) : Opens cs := by
  cases overlong with
  | here item => exact item.opens
  | later item => exact item.opens

theorem OverlongMembers.opens (overlong : OverlongMembers n cs) : Opens cs := by
  cases overlong with
  | here key | later key => exact key.opens

/-- A gap in front of a value is left out. -/
theorem Gap.skip_eq_of_opens (gap : Gap cs ds) (opens : Opens ds) : skip cs = ds := by
  obtain ⟨c, tail, rfl, opening⟩ := opens
  rw [gap.skip_eq, skip_of_head (isGap_of_isOpening opening)]

end Heads

section Lengths

theorem Key.length_lt (key : Key k cs rest) : rest.length < cs.length := by
  obtain ⟨ds, es, fs, rfl, letters, gap, gap'⟩ := key
  have one := letters.length_lt
  have two := gap.length_le
  have three := gap'.length_le
  simp only [List.length_cons] at *
  omega

mutual

theorem Spells.length_le : ∀ {cs rest : List Char} {v : Json}, Spells cs v rest →
    rest.length ≤ cs.length
  | _, _, _, .constant _ => by simp
  | _, _, _, .whole .. => by simp
  | _, _, _, .binary .. => by simp
  | _, _, _, .text letters => Nat.le_succ_of_le (Nat.le_of_lt letters.length_lt)
  | _, _, _, .noItems gap => by
      have := gap.length_le
      simp only [List.length_cons] at *
      omega
  | _, _, _, .items gap items => by
      have := gap.length_le
      have := items.length_le
      rw [List.length_cons]
      omega
  | _, _, _, .noFields gap => by
      have := gap.length_le
      simp only [List.length_cons] at *
      omega
  | _, _, _, .fields gap members => by
      have := gap.length_le
      have := members.length_le
      rw [List.length_cons]
      omega

theorem Items.length_le : ∀ {cs rest : List Char} {vs : List Json}, Items cs vs rest →
    rest.length ≤ cs.length
  | _, _, _, .last item gap => by
      have := item.length_le
      have := gap.length_le
      rw [List.length_cons] at this
      omega
  | _, _, _, .more item gap gap' others => by
      have := item.length_le
      have behind := gap.length_le
      have := gap'.length_le
      have := others.length_le
      rw [List.length_cons] at behind
      omega

theorem Members.length_le : ∀ {cs rest : List Char} {pairs : List (String × Json)},
    Members cs pairs rest → rest.length ≤ cs.length
  | _, _, _, .last key value gap => by
      have := key.length_lt
      have := value.length_le
      have behind := gap.length_le
      rw [List.length_cons] at behind
      omega
  | _, _, _, .more key value gap gap' others => by
      have := key.length_lt
      have := value.length_le
      have behind := gap.length_le
      have := gap'.length_le
      have := others.length_le
      rw [List.length_cons] at behind
      omega

end

end Lengths

end Parley.Json
