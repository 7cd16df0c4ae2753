import Parley.Proofs.Yaml.Words

/-!
# Maps in lines

A map is written with a row for each entry: the key, a colon, and what is written of the value.  If
the values are read back one by one, in front of whatever may stand behind them, then so is the map.
-/

namespace Parley.Yaml

variable {indent column k : Nat} {cs w rest : List Char} {c start next after : Cursor} {d : Char}

section Places

/-- Whether something begins here that is neither a blank nor a comment. -/
def Clear (rest : List Char) : Prop := ∀ d ∈ rest.head?, IsSolid d ∧ d ≠ '#'

theorem skipFrom_blanks {line : Nat} (clear : Clear rest) (n : Nat) :
    Cursor.skipFrom false false line column (List.replicate n ' ' ++ rest) =
      (rest, line, column + n) := by
  induction n generalizing column with
  | zero =>
      cases rest with
      | nil => rfl
      | cons d rest =>
          obtain ⟨solid, other⟩ := clear d rfl
          have blank : d ≠ ' ' := fun same => not_solid_blank (same ▸ solid)
          simp [Cursor.skipFrom, solid.2, other, blank]
  | succ n ih =>
      have step : Cursor.skipFrom false false line column (List.replicate (n + 1) ' ' ++ rest) =
          Cursor.skipFrom false false line (column + 1) (List.replicate n ' ' ++ rest) := rfl
      rw [step, ih, Nat.add_right_comm, Nat.add_assoc]

theorem skip_blanks (clear : Clear rest) {n : Nat} (here : c.rest = List.replicate n ' ' ++ rest) :
    c.skip false = c.goto rest c.line (c.column + n) := by
  rw [Cursor.skip, here, skipFrom_blanks clear]

theorem skip_clear (clear : Clear c.rest) : c.skip false = c :=
  skip_blanks clear (n := 0) rfl

theorem skip_line (clear : Clear rest) {n : Nat}
    (here : c.rest = '\n' :: (List.replicate n ' ' ++ rest)) :
    c.skip false = c.goto rest (c.line + 1) n := by
  have step : Cursor.skipFrom false false c.line c.column c.rest =
      Cursor.skipFrom false false (c.line + 1) 0 (List.replicate n ' ' ++ rest) := here ▸ rfl
  rw [Cursor.skip, step, skipFrom_blanks clear, Nat.zero_add]

theorem skip_blank (here : c.rest = ' ' :: rest) : c.skip false = (c.advance 1).skip false := by
  have behind : (c.advance 1).rest = rest := by simp [Cursor.advance, here]
  rw [Cursor.skip, Cursor.skip, here, behind]
  rfl

/-- Whether a value begins here in which no sign with a meaning for lines stands in front. -/
structure Fronts (c : Cursor) : Prop where
  atEnd : c.atEnd = false
  dash : c.atIndicator '-' = false
  question : c.atIndicator '?' = false
  property : ∀ d ∈ c.head?, d ≠ '&' ∧ d ≠ '!'
  block : ∀ d ∈ c.head?, d ≠ '|' ∧ d ≠ '>'

theorem Fronts.read (fronts : Fronts c) : Properties.read c = .ok ({}, c) := by
  rw [Properties.read, Properties.readFrom]
  split
  next head => exact absurd rfl (fronts.property _ head).1
  next head => exact absurd rfl (fronts.property _ head).2
  next => rfl

/-- A value that has neither properties nor a dash in front is what stands here, or the map of which
that is the first key. -/
theorem value_eq {fuel : Nat} {indent : Int} {opens ofEntry : Bool} (skipped : start.skip false = c)
    (fronts : Fronts c) (deep : indent < c.column) :
    value (fuel + 1) indent opens ofEntry start = (content fuel false indent {} c).bind fun r =>
      if (opens || decide (start.line < c.line)) && (afterKey? false false c r.2).isSome then
        entries fuel c.column [] c
      else .ok r := by
  have inside : decide ((c.column : Int) ≤ indent) = false := by simpa using deep
  have bar : (c.head? == some '|' || c.head? == some '>') = false := by
    simp only [Bool.or_eq_false_iff, beq_eq_false_iff_ne]
    exact ⟨fun head => (fronts.block _ head).1 rfl, fun head => (fronts.block _ head).2 rfl⟩
  have bare : ({} : Properties).given = false := rfl
  have read : Properties.read c = pure ({}, c) := fronts.read
  rw [value, skipped]
  simp only [fronts.atEnd, fronts.dash, fronts.question, read, pure_bind, inside, bare, bar,
    Bool.and_false, Bool.false_and, Bool.or_false, Bool.false_eq_true, if_false]
  rfl

/-- The signs that no text without quotes begins with. -/
def frontSigns : List Char := "#&*!|>'\"%@,[]\x7b\x7d\x60".toList

theorem all_signs : ∀ e ∈ frontSigns, (endsWord [e] || "#&*!|>'\"%@,[]".toList.contains e ||
    e == '\x60' || isBracketMark e) = true := List.all_eq_true.mp rfl

theorem beginsPlain_cons (begins : beginsPlain false (d :: rest) = true) :
    d ∉ frontSigns ∧ ((d = '-' ∨ d = '?') → endsWord rest = false) := by
  rw [beginsPlain] at begins
  split_ifs at begins with signs dash colon question
  · exact ⟨fun member => signs (all_signs d member), fun _ => by simpa using begins⟩
  · exact ⟨fun member => signs (all_signs d member), fun marks => by simpa using begins⟩
  · exact ⟨fun member => signs (all_signs d member), fun marks => by simpa using begins⟩
  · refine ⟨fun member => signs (all_signs d member), fun marks => ?_⟩
    rcases marks with rfl | rfl
    · exact absurd rfl dash
    · exact absurd rfl question

/-- What is no sign with a meaning begins a text without quotes. -/
theorem beginsPlain_of_solid (solid : IsSolid d) (sign : d ∉ frontSigns)
    (marks : d ∈ ['-', ':', '?'] → endsWord rest = false) :
    beginsPlain false (d :: rest) = true := by
  have plain : (endsWord [d] || "#&*!|>'\"%@,[]".toList.contains d || d == '\x60' ||
      isBracketMark d) = false := by
    have none {signs : List Char} (within : signs.all frontSigns.contains = true) :
        signs.contains d = false := by
      rw [Bool.eq_false_iff]
      intro member
      exact sign (by simpa using List.all_eq_true.mp within d (by simpa using member))
    have bracket : isBracketMark d = false := none rfl
    have backtick : (d == '\x60') = false := by
      rw [beq_eq_false_iff_ne]
      rintro rfl
      exact sign (by decide)
    rw [endsWord_solid solid, none rfl, bracket, backtick]
    rfl
  rw [beginsPlain, plain, if_neg (by decide)]
  split_ifs with dash colon question
  · rw [marks (by simp [beq_iff_eq.mp dash])]; rfl
  · rw [marks (by simp [beq_iff_eq.mp colon])]; rfl
  · rw [marks (by simp [beq_iff_eq.mp question])]; rfl
  · rfl

theorem fronts_plain (begins : beginsPlain false c.rest = true) (atEnd : c.atEnd = false) :
    Fronts c ∧ ∀ d ∈ c.head?, d ∉ frontSigns := by
  cases here : c.rest with
  | nil => rw [here] at begins; cases begins
  | cons d rest =>
      rw [here] at begins
      obtain ⟨sign, mark⟩ := beginsPlain_cons begins
      have indicator {e : Char} (marks : e = '-' ∨ e = '?') : c.atIndicator e = false := by
        rw [Cursor.atIndicator, here]
        refine Bool.and_eq_false_imp.mpr fun same => mark ?_
        rwa [beq_iff_eq.mp same]
      have head : ∀ e ∈ c.head?, e ∉ frontSigns := by
        rw [Cursor.head?, here]
        rintro _ ⟨⟩
        exact sign
      have other {e : Char} (sign : e ∈ frontSigns) : ∀ d ∈ c.head?, d ≠ e :=
        fun d here same => head d here (same ▸ sign)
      exact ⟨⟨atEnd, indicator (.inl rfl), indicator (.inr rfl),
        fun d here => ⟨other (by decide) d here, other (by decide) d here⟩,
        fun d here => ⟨other (by decide) d here, other (by decide) d here⟩⟩, head⟩

/-- A text without quotes is read as what it spells. -/
theorem content_plain {fuel : Nat} {indent : Int} (begins : beginsPlain false c.rest = true)
    (atEnd : c.atEnd = false) (read : plain false (indent + 1) c = (cs, next)) :
    content (fuel + 1) false indent {} c = (scalar c none true cs).bind fun v => .ok (v, next) := by
  have head := (fronts_plain begins atEnd).2
  rw [content]
  split
  next here => exact absurd (by decide) (head _ here)
  next here => exact absurd (by decide) (head _ here)
  next here => exact absurd (by decide) (head _ here)
  next here => exact absurd (by decide) (head _ here)
  next here => exact absurd (by decide) (head _ here)
  next =>
    rw [if_neg (by simp [atEnd, begins]), read]
    rfl

/-- A text between quotes is read in front of the end of a line. -/
theorem content_quoted (fuel : Nat) (indent : Int) {double : Bool} (quotable : Quotable double cs)
    (here : c.rest = quoteMark double :: (cs ++ quoteMark double :: '\n' :: rest))
    (inside : 0 < c.column) : ∃ s next, content (fuel + 1) false indent {} c = .ok (.text s, next) ∧
      next.rest = '\n' :: rest ∧ c.line ≤ next.line := by
  have behind : (c.advance 1).rest = cs ++ quoteMark double :: '\n' :: rest := by
    simp [Cursor.advance, here]
  have enough : cs.length < (c.advance 1).rest.length + 1 := by
    simp only [behind, List.length_append]
    omega
  obtain ⟨text, next, read, left, line⟩ :=
    quotable.quotedFrom (by simp) enough [] behind
      (.inl (Nat.lt_of_lt_of_le inside (Nat.le_succ _)))
  have read : quoted double (c.advance 1) = .ok (text, next) := read
  refine ⟨String.ofList text, next, ?_, left, line⟩
  rw [content, Cursor.head?, here, List.head?_cons]
  cases double with
  | true =>
      simp only [quoteMark, if_true]
      rw [read]
      rfl
  | false =>
      simp only [quoteMark, Bool.false_eq_true, if_false]
      rw [read]
      rfl

theorem afterKey?_of_line (later : c.line < next.line) : afterKey? false false c next = none := by
  have other : (c.line == next.line) = false := beq_eq_false_iff_ne.mpr (Nat.ne_of_lt later)
  simp [afterKey?, Cursor.skipGaps, Cursor.advance, other]

theorem afterKey?_of_lineEnd (here : next.rest = '\n' :: rest) :
    afterKey? false false c next = none := by
  simp [afterKey?, Cursor.skipGaps, Cursor.advance, Cursor.head?, here]

end Places

section Scalars

/-- Whether what is written behind a colon is read as a value that fits, whatever follows with no
more indentation than the key. -/
def Reads (indent : Nat) (written : List Char) (fits : Yaml → Prop) : Prop :=
  ∀ k rest, Behind (indent + 1) k rest → ∀ (fuel : Nat) (c : Cursor),
    c.rest = written ++ (List.replicate k ' ' ++ rest) → indent < c.column →
      written.length ≤ fuel → ∃ v next, value fuel indent false true c = .ok (v, next) ∧ fits v ∧
        Reaches c (next.skip false) k rest

variable {fits : Yaml → Prop} {s : List Char}

theorem clear_of_isLower (lower : ∀ d ∈ rest.head?, d.isLower = true) : Clear rest :=
  fun d head => ⟨solid_of_isLower (lower d head), ne_of_isLower (lower d head) rfl⟩

theorem Behind.clear {least : Int} (behind : Behind least k rest) : Clear rest :=
  clear_of_isLower behind.1

/-- What is read here reads behind a colon, in the same line or in the next one. -/
theorem reads_of_content {start : List Char}
    (starts : start = [] ∨ start = nextLine (indent + stepWidth)) (some : s ≠ []) (clear : Clear s)
    (reads : ∀ k rest, Behind (indent + 1) k rest → ∀ (fuel : Nat) (c : Cursor),
      c.rest = s ++ '\n' :: (List.replicate k ' ' ++ rest) → indent < c.column →
        Fronts c ∧ ∃ v next, content (fuel + 1) false indent {} c = .ok (v, next) ∧ fits v ∧
          Reaches c (next.skip false) k rest ∧ afterKey? false false c next = none) :
    Reads indent (' ' :: (start ++ (s ++ ['\n']))) fits := by
  intro k rest behind fuel c here inside enough
  obtain ⟨fuel, rfl⟩ : ∃ n, fuel = n + 2 := Nat.exists_eq_add_of_le' (by
    have positive := List.length_pos_iff.mpr some
    simp only [List.length_cons, List.length_append] at enough
    omega)
  have clear' : Clear (s ++ '\n' :: (List.replicate k ' ' ++ rest)) := fun d head =>
    clear d (by rwa [List.head?_append_of_ne_nil _ some] at head)
  obtain ⟨next, skipped, left, line, deep⟩ : ∃ next, c.skip false = next ∧
      next.rest = s ++ '\n' :: (List.replicate k ' ' ++ rest) ∧ c.line ≤ next.line ∧
      indent < next.column := by
    rcases starts with rfl | rfl
    · refine ⟨_, skip_blanks clear' (n := 1) ?_, rfl, Nat.le_refl _, ?_⟩
      · simp [here]
      · exact Nat.lt_succ_of_lt inside
    · refine ⟨_, (skip_blank here).trans (skip_line clear' (n := indent + stepWidth) ?_), rfl,
        Nat.le_succ _, ?_⟩
      · simp [Cursor.advance, here, nextLine]
      · exact Nat.lt_add_of_pos_right (by decide)
  obtain ⟨fronts, v, after, read, fits, reaches, none⟩ := reads k rest behind fuel next left deep
  refine ⟨v, after, ?_, fits, reaches.1, reaches.2.1, Nat.lt_of_le_of_lt line reaches.2.2⟩
  rw [value_eq skipped fronts (by exact_mod_cast deep), read]
  simp [Except.bind, none]

/-- A text without quotes reads behind a colon, as whatever its reading is. -/
theorem reads_phrase {start : List Char}
    (starts : start = [] ∨ start = nextLine (indent + stepWidth))
    (phrase : Phrase (indent + stepWidth) s) (begins : beginsPlain false s = true)
    (known : ∀ cs, Word s ∧ cs = s ∨ ¬ Word s ∧ ' ' ∈ cs → ∃ v, Plain.read cs = .ok v ∧ fits v) :
    Reads indent (' ' :: (start ++ (s ++ ['\n']))) fits := by
  obtain ⟨d, more, rfl, solid⟩ := phrase.solid_head
  have sign := (beginsPlain_cons begins).1
  have clear : Clear (d :: more) := by
    rintro _ ⟨⟩
    exact ⟨solid, fun same => sign (same ▸ by decide)⟩
  refine reads_of_content starts (List.cons_ne_nil d more) clear ?_
  intro k rest behind fuel c here inside
  have begins : beginsPlain false c.rest = true := here ▸ beginsPlain_append begins
  have atEnd : c.atEnd = false := by
    simp [Cursor.atEnd, Cursor.atMark, here, Nat.ne_of_gt (Nat.zero_lt_of_lt inside)]
  have deep : ((indent : Int) + 1) ≤ (indent + stepWidth : Nat) := by
    simp only [stepWidth]
    omega
  obtain ⟨cs, next, read, spelled, reaches⟩ :=
    phrase.plainFrom (Nat.zero_lt_of_lt (Nat.lt_add_of_pos_right (by decide))) deep behind
      (by simp [here] : _ ≤ c.rest.length) [] [] here (by omega)
  obtain ⟨v, value, fits⟩ := known cs spelled
  refine ⟨(fronts_plain begins atEnd).1, v, next, ?_, fits, ?_, afterKey?_of_line reaches.2.2⟩
  rotate_left
  · rwa [skip_clear (reaches.1 ▸ behind.clear)]
  rw [content_plain begins atEnd read, scalar]
  simp [value, Except.bind]

/-- A text between quotes reads behind a colon. -/
theorem reads_quoted {double : Bool} (quotable : Quotable double s) :
    Reads indent (' ' :: (quoteMark double :: (s ++ [quoteMark double]) ++ ['\n']))
      fun v => ∃ text, v = .text text := by
  have clear : Clear (quoteMark double :: (s ++ [quoteMark double])) := by
    rintro _ ⟨⟩
    cases double <;> exact ⟨⟨rfl, rfl⟩, by decide⟩
  refine reads_of_content (.inl rfl) (List.cons_ne_nil _ _) clear ?_
  intro k rest behind fuel c here inside
  have head {p : Char → Prop} (other : p (quoteMark double)) : ∀ d ∈ c.head?, p d := by
    rw [Cursor.head?, here]
    rintro _ ⟨⟩
    exact other
  have fronts : Fronts c := by
    refine ⟨?_, ?_, ?_, head ?_, head ?_⟩
    · simp [Cursor.atEnd, Cursor.atMark, here, Nat.ne_of_gt (Nat.zero_lt_of_lt inside)]
    all_goals cases double <;> simp [Cursor.atIndicator, here, quoteMark]
  obtain ⟨text, next, read, left, line⟩ := content_quoted fuel indent
    quotable (by simpa using here) (Nat.zero_lt_of_lt inside)
  refine ⟨fronts, .text text, next, read, ⟨text, rfl⟩, ?_, afterKey?_of_lineEnd left⟩
  rw [skip_line behind.clear left]
  exact ⟨rfl, rfl, Nat.lt_succ_of_le line⟩

end Scalars

section Keys

/-- Whether a text is a key of the program: a single word of small letters and underscores, which
means nothing else. -/
structure Keyword (key : String) : Prop where
  first : key.toList.head?.any Char.isLower = true
  letters : key.toList.all (fun d => d.isLower || d == '_') = true
  unquoted : allowsPlain false key.toList = true
  short : key.toList.length ≤ 1024

instance : DecidablePred Keyword := fun key =>
  decidable_of_iff (key.toList.head?.any Char.isLower = true ∧
      key.toList.all (fun d => d.isLower || d == '_') = true ∧ allowsPlain false key.toList = true ∧
      key.toList.length ≤ 1024)
    ⟨fun h => ⟨h.1, h.2.1, h.2.2.1, h.2.2.2⟩, fun h => ⟨h.1, h.2, h.3, h.4⟩⟩

variable {key : String}

theorem Keyword.exists_cons (keyword : Keyword key) :
    ∃ d more, key.toList = d :: more ∧ d.isLower = true := by
  have first := keyword.first
  cases all : key.toList with
  | nil => rw [all] at first; cases first
  | cons d more =>
      rw [all] at first
      exact ⟨d, more, rfl, first⟩

/-- A small letter stands in front. -/
theorem Keyword.isLower_head (keyword : Keyword key) (rest : List Char) :
    ∀ d ∈ (key.toList ++ rest).head?, d.isLower = true := by
  obtain ⟨d, more, all, lower⟩ := keyword.exists_cons
  rw [all]
  rintro _ ⟨⟩
  exact lower

theorem Keyword.isText (keyword : Keyword key) : Plain.isText key.toList = true := by
  have plain := keyword.unquoted
  simp only [allowsPlain, Bool.and_eq_true] at plain
  exact plain.1.1.1.1.1.1

/-- Small letters and underscores are a word. -/
theorem word_of_letters (some : w ≠ []) (letters : w.all (fun d => d.isLower || d == '_') = true) :
    Word w := by
  have letter {e : Char} (member : e ∈ w) : e.isLower = true ∨ e = '_' := by
    simpa using List.all_eq_true.mp letters e member
  refine ⟨some, fun e member => ?_, fun hash => ?_, fun colon => ?_⟩
  · rcases letter member with lower | rfl
    · exact solid_of_isLower lower
    · exact ⟨rfl, rfl⟩
  · rcases letter (List.mem_of_head? hash) with lower | same
    · cases lower
    · cases same
  · rcases letter (List.mem_of_getLast? colon) with lower | same
    · cases lower
    · cases same

theorem Keyword.word (keyword : Keyword key) : Word key.toList := by
  obtain ⟨d, more, all, -⟩ := keyword.exists_cons
  exact word_of_letters (by simp [all]) keyword.letters

theorem beginsPlain_of_isLower (lower : d.isLower = true) :
    beginsPlain false (d :: rest) = true := by
  have other {signs : List Char} (upper : signs.any Char.isLower = false) : d ∉ signs :=
    fun member => List.any_eq_false.mp upper d member lower
  exact beginsPlain_of_solid (solid_of_isLower lower) (other rfl)
    fun marks => absurd marks (other rfl)

/-- A key is read up to the colon behind it. -/
theorem Keyword.content (keyword : Keyword key) (fuel : Nat) (indent : Int)
    (here : c.rest = key.toList ++ ':' :: rest) (ends : endsWord rest = true) :
    Fronts c ∧ content (fuel + 1) false indent {} c = .ok (.text key, c.advance key.toList.length) ∧
      afterKey? false false c (c.advance key.toList.length) =
        some (c.advance (key.toList.length + 1)) := by
  obtain ⟨d, more, all, lower⟩ := keyword.exists_cons
  have begins : beginsPlain false c.rest = true := by
    rw [here, all]
    exact beginsPlain_of_isLower lower
  have atEnd : c.atEnd = false := by
    simp [Cursor.atEnd, Cursor.atMark, here, all, ne_of_isLower lower (d := '-') rfl,
      ne_of_isLower lower (d := '.') rfl]
  have colon : (c.advance key.toList.length).rest = ':' :: rest := by
    simp [Cursor.advance, here]
  have bare : ((c.advance key.toList.length).rest.takeWhile (· == ' ')) = [] := by
    rw [colon]
    rfl
  have stop : wordLength false (':' :: rest) = 0 := by
    simp [wordLength, ends]
  have gap : plainGap (c.advance key.toList.length) = (none, c.advance key.toList.length) := by
    have inside : ((c.advance key.toList.length).advance 0).head?.any isBreak = false := by
      rw [Cursor.head?, Cursor.advance, colon]
      rfl
    simp only [plainGap, bare, List.length_nil, inside, Bool.false_eq_true, if_false]
    rfl
  have read : plain false (indent + 1) c = (key.toList, c.advance key.toList.length) := by
    obtain ⟨n, size⟩ : ∃ n, c.rest.length = n + 1 := ⟨_, by rw [here, all]; rfl⟩
    rw [plain, size, plainFrom_word keyword.word stop here gap]
    rfl
  refine ⟨(fronts_plain begins atEnd).1, ?_, ?_⟩
  · rw [content_plain begins atEnd read, scalar]
    simp [Plain.read_of_isText keyword.isText, Except.bind]
  · have skipped : (c.advance key.toList.length).skipGaps = c.advance key.toList.length := by
      rw [Cursor.skipGaps, bare]
      rfl
    have near : (c.advance key.toList.length).column ≤ c.column + 1024 :=
      Nat.add_le_add_left keyword.short _
    have mark : (c.advance key.toList.length).head? = some ':' ∧
        (c.advance key.toList.length).atIndicator ':' = true := by
      simp [Cursor.head?, Cursor.atIndicator, colon, ends]
    have line : c.line = (c.advance key.toList.length).line := rfl
    have behind : (c.advance key.toList.length).advance 1 = c.advance (key.toList.length + 1) := by
      simp [Cursor.advance, Nat.add_assoc]
    simp only [afterKey?, skipped, near, mark, ← line, behind, Bool.false_eq_true, if_false,
      beq_self_eq_true, decide_true, Bool.false_and, Bool.false_or, Bool.and_self, if_true]

end Keys

/-- An entry of a map: its key, what is written behind the colon, and which values fit there. -/
structure Row where
  key : String
  written : List Char
  fits : Yaml → Prop

namespace Row

/-- The text of a row. -/
def text (indent : Nat) (r : Row) : List Char :=
  List.replicate indent ' ' ++ (r.key.toList ++ ':' :: r.written)

/-- Whether an entry is one that a row was written for. -/
def Fits (r : Row) (e : Yaml × Yaml) : Prop := e.1 = .text r.key ∧ r.fits e.2

/-- Whether a row is read back where its key stands in a column. -/
structure Reads (indent : Nat) (r : Row) : Prop where
  keyword : Keyword r.key
  ends : ∃ d more, r.written = d :: more ∧ (d = ' ' ∨ d = '\n')
  value : Yaml.Reads indent r.written r.fits

end Row

section Rows

variable {r : Row} {rows : List Row} {es done : List (Yaml × Yaml)}

theorem Behind.mono {least least' : Int} (behind : Behind least k rest) (le : least ≤ least') :
    Behind least' k rest :=
  ⟨behind.1, behind.2.imp_right fun less => Int.lt_of_lt_of_le less le⟩

theorem Row.Reads.endsWord (reads : r.Reads indent) (rest : List Char) :
    endsWord (r.written ++ rest) = true := by
  obtain ⟨d, more, written, rfl | rfl⟩ := reads.ends <;> rw [written] <;> rfl

/-- A row is read in front of what has no more indentation. -/
theorem Row.Reads.entry (reads : r.Reads column) (behind : Behind (column + 1) k rest) (fuel : Nat)
    (here : c.rest = r.key.toList ++ ':' :: (r.written ++ (List.replicate k ' ' ++ rest)))
    (inside : c.column = column) (enough : r.written.length < fuel) :
    ∃ e next, entry fuel column c = .ok (e, next) ∧ r.Fits e ∧
      Reaches c (next.skip false) k rest := by
  obtain ⟨fuel, rfl⟩ := Nat.exists_eq_succ_of_ne_zero (Nat.ne_of_gt (Nat.zero_lt_of_lt enough))
  have enough := Nat.le_of_lt_succ enough
  obtain ⟨n, rfl⟩ : ∃ n, fuel = n + 1 := by
    obtain ⟨d, more, written, -⟩ := reads.ends
    refine Nat.exists_eq_succ_of_ne_zero (Nat.ne_of_gt (Nat.lt_of_lt_of_le ?_ enough))
    rw [written]
    exact Nat.succ_pos _
  obtain ⟨fronts, key, colon⟩ := reads.keyword.content n column here
    (reads.endsWord _)
  obtain ⟨v, next, read, fits, reaches⟩ := reads.value k rest behind (n + 1)
    (c.advance (r.key.toList.length + 1)) (by simp [Cursor.advance, here])
    (by simp only [Cursor.advance]; omega) enough
  refine ⟨(.text r.key, v), next, ?_, ⟨rfl, fits⟩, reaches⟩
  rw [Yaml.entry, fronts.read]
  simp only [Bind.bind, Except.bind, key, colon, read]
  rfl

/-- Behind an entry the map ends, or it goes on with the next one. -/
theorem entries_entry {e : Yaml × Yaml} {fuel : Nat} (question : c.atIndicator '?' = false)
    (read : entry fuel column c = .ok (e, after)) (skipped : after.skip false = next) :
    entries (fuel + 1) column done c =
      if next.atEnd || next.column < column then
        (mapOf c .lines (done ++ [e])).bind fun v => .ok (v, next)
      else if next.column == column && !next.atIndicator '-' then
        entries fuel column (done ++ [e]) next
      else next.fail .unexpected := by
  rw [entries, question, if_neg (by decide), read]
  simp only [Bind.bind, Except.bind, skipped]
  rfl

theorem atEnd_of_lower (here : c.rest = d :: rest) (lower : d.isLower = true) :
    c.atEnd = false ∧ c.atIndicator '-' = false ∧ c.atIndicator '?' = false := by
  have other {e : Char} (upper : e.isLower = false) : d ≠ e := ne_of_isLower lower upper
  simp [Cursor.atEnd, Cursor.atMark, Cursor.atIndicator, here, other (e := '-') rfl,
    other (e := '.') rfl, other (e := '?') rfl]

/-- Rows are read up to what has less indentation. -/
theorem entries_rows (reads : ∀ q ∈ r :: rows, q.Reads column) (behind : Behind column k rest)
    (fuel : Nat) (done : List (Yaml × Yaml)) (here : c.rest = r.key.toList ++ ':' ::
      (r.written ++ (rows.flatMap (Row.text column) ++ (List.replicate k ' ' ++ rest))))
    (inside : c.column = column)
    (enough : r.written.length + 2 + (rows.flatMap (Row.text column)).length ≤ fuel) :
    ∃ es next c', entries fuel column done c =
        (mapOf c' .lines (done ++ es)).bind (fun v => .ok (v, next)) ∧
      List.Forall₂ Row.Fits (r :: rows) es ∧ Reaches c next k rest := by
  induction rows generalizing r fuel c done with
  | nil =>
      obtain ⟨fuel, rfl⟩ : ∃ n, fuel = n + 1 := Nat.exists_eq_succ_of_ne_zero (by omega)
      obtain ⟨row, -⟩ := List.forall_mem_cons.mp reads
      obtain ⟨e, next, read, fits, reaches⟩ := row.entry (behind.mono (by omega))
        fuel here inside (by simp only [List.flatMap_nil, List.length_nil] at enough; omega)
      obtain ⟨d, more, all, lower⟩ := row.keyword.exists_cons
      have question := (atEnd_of_lower (by rw [here, all]; rfl) lower).2.2
      have ends : ((next.skip false).atEnd || (next.skip false).column < column) = true := by
        rcases behind.2 with rfl | less
        · simp [Cursor.atEnd, reaches.1]
        · have less : (next.skip false).column < column := by
            rw [reaches.2.1]
            omega
          simp [less]
      refine ⟨[e], next.skip false, c, ?_, .cons fits .nil, reaches⟩
      rw [entries_entry question read rfl, if_pos ends]
  | cons q rows ih =>
      obtain ⟨fuel, rfl⟩ : ∃ n, fuel = n + 1 := Nat.exists_eq_succ_of_ne_zero (by omega)
      obtain ⟨row, more⟩ := List.forall_mem_cons.mp reads
      obtain ⟨next', more', all', lower'⟩ := (more q List.mem_cons_self).keyword.exists_cons
      have behind' : Behind (column + 1) column (q.key.toList ++ ':' ::
          (q.written ++ (rows.flatMap (Row.text column) ++ (List.replicate k ' ' ++ rest)))) :=
        ⟨(more q List.mem_cons_self).keyword.isLower_head _, .inr (by omega)⟩
      simp only [List.flatMap_cons, List.length_append, Row.text, List.length_cons,
        List.length_replicate] at enough
      obtain ⟨e, after, read, fits, reaches⟩ := row.entry behind' fuel
        (by simp [here, Row.text]) inside (by omega)
      obtain ⟨d, first, all, lower⟩ := row.keyword.exists_cons
      have question := (atEnd_of_lower (by rw [here, all]; rfl) lower).2.2
      obtain ⟨atEnd, dash, -⟩ := atEnd_of_lower (reaches.1.trans (by rw [all']; rfl)) lower'
      obtain ⟨es, last, c', read', fits', reaches'⟩ :=
        ih more fuel (done ++ [e]) reaches.1 reaches.2.1 (by omega)
      refine ⟨e :: es, last, c', ?_, .cons fits fits', reaches'.1, reaches'.2.1,
        Nat.lt_trans reaches.2.2 reaches'.2.2⟩
      have same : (after.skip false).column = column := reaches.2.1
      rw [entries_entry question read rfl, atEnd, dash, same, if_neg (by simp), if_pos (by simp),
        read', List.append_assoc]
      rfl

theorem keys_of_fits (fits : List.Forall₂ Row.Fits rows es) :
    es.map Prod.fst = rows.map fun q => .text q.key := by
  induction fits with
  | nil => rfl
  | cons here more ih => rw [List.map_cons, List.map_cons, here.1, ih]

theorem exists_of_fits (fits : List.Forall₂ Row.Fits rows es) {e : Yaml × Yaml} (member : e ∈ es) :
    ∃ q ∈ rows, e.1 = .text q.key := by
  have inside : e.1 ∈ es.map Prod.fst := List.mem_map_of_mem member
  rw [keys_of_fits fits] at inside
  obtain ⟨q, within, same⟩ := List.mem_map.mp inside
  exact ⟨q, within, same.symm⟩

theorem repeatedKey?_of_fits (distinct : (rows.map Row.key).Nodup)
    (fits : List.Forall₂ Row.Fits rows es) : repeatedKey? es = none := by
  induction fits with
  | nil => rfl
  | @cons r e rows es here more ih =>
      obtain ⟨other, distinct⟩ := List.nodup_cons.mp distinct
      have apart : (es.any fun f => f.1.agrees e.1) = false := by
        rw [List.any_eq_false]
        intro f member
        obtain ⟨q, within, same⟩ := exists_of_fits more member
        rw [same, here.1]
        have different : q.key ≠ r.key := fun same => other (same ▸ List.mem_map_of_mem within)
        simpa [agrees, toJson, Json.agrees] using different
      rw [repeatedKey?, apart]
      exact ih distinct

/-- Entries for rows of different keys are those of a map. -/
theorem mapOf_fits {origin : Origin} (keywords : ∀ q ∈ rows, Keyword q.key)
    (distinct : (rows.map Row.key).Nodup) (fits : List.Forall₂ Row.Fits rows es) :
    mapOf c origin es = .ok (.map origin es) := by
  have plain : ∀ e ∈ es, isMerge e = false := by
    intro e member
    obtain ⟨q, within, same⟩ := exists_of_fits fits member
    obtain ⟨d, more, all, lower⟩ := (keywords q within).exists_cons
    rw [isMerge, same]
    simp only [beq_eq_false_iff_ne]
    intro merge
    rw [merge] at all
    cases all
    cases lower
  have none : es.filter isMerge = [] := List.filter_eq_nil_iff.mpr (by simpa using plain)
  have all : es.filter (fun e => !isMerge e) = es := List.filter_eq_self.mpr (by simpa using plain)
  have once := repeatedKey?_of_fits distinct fits
  simp only [mapOf, List.partition_eq_filter_filter, none, Function.comp_def, all, once]
  rfl

/-- A map is read where its first key stands. -/
theorem value_rows (reads : ∀ q ∈ r :: rows, q.Reads column)
    (distinct : ((r :: rows).map Row.key).Nodup) (behind : Behind column k rest) (fuel : Nat)
    (indent : Int) (opens ofEntry : Bool) (skipped : start.skip false = c)
    (here : c.rest = r.key.toList ++ ':' ::
      (r.written ++ (rows.flatMap (Row.text column) ++ (List.replicate k ' ' ++ rest))))
    (inside : c.column = column) (deep : indent < column)
    (begins : (opens || decide (start.line < c.line)) = true)
    (enough : r.written.length + 3 + (rows.flatMap (Row.text column)).length ≤ fuel) :
    ∃ es next, value fuel indent opens ofEntry start = .ok (.map .lines es, next) ∧
      List.Forall₂ Row.Fits (r :: rows) es ∧ Reaches c next k rest := by
  obtain ⟨fuel, rfl⟩ : ∃ n, fuel = n + 2 := Nat.exists_eq_add_of_le' (by omega)
  obtain ⟨row, -⟩ := List.forall_mem_cons.mp reads
  obtain ⟨fronts, key, colon⟩ := row.keyword.content fuel indent here
    (row.endsWord _)
  obtain ⟨es, next, c', read, fits, reaches⟩ :=
    entries_rows reads behind (fuel + 1) [] here inside (by omega)
  have keywords : ∀ q ∈ r :: rows, Keyword q.key := fun q member => (reads q member).keyword
  refine ⟨es, next, ?_, fits, reaches⟩
  rw [value_eq skipped fronts (by omega), key]
  simp only [Except.bind, colon, begins, Option.isSome_some, Bool.and_self, if_true, inside]
  rw [read, List.nil_append, mapOf_fits keywords distinct fits]
  rfl

/-- Rows in lines of their own read behind a colon as a map. -/
theorem reads_rows (reads : ∀ q ∈ r :: rows, q.Reads (indent + stepWidth))
    (distinct : ((r :: rows).map Row.key).Nodup) :
    Reads indent ('\n' :: (r :: rows).flatMap (Row.text (indent + stepWidth)))
      fun v => ∃ es, v = .map .lines es ∧ List.Forall₂ Row.Fits (r :: rows) es := by
  intro k rest behind fuel c here inside enough
  obtain ⟨row, -⟩ := List.forall_mem_cons.mp reads
  obtain ⟨d, more, all, lower⟩ := row.keyword.exists_cons
  simp only [List.flatMap_cons, List.length_append, Row.text, List.length_cons,
    List.length_replicate] at enough
  have begins : Clear (r.key.toList ++ ':' :: (r.written ++
      (rows.flatMap (Row.text (indent + stepWidth)) ++ (List.replicate k ' ' ++ rest)))) :=
    clear_of_isLower (row.keyword.isLower_head _)
  have skipped := skip_line (c := c) begins (n := indent + stepWidth) (by simp [here, Row.text])
  have size : r.written.length + 3 + (rows.flatMap (Row.text (indent + stepWidth))).length ≤
      fuel := by
    rw [all, List.length_cons] at enough
    omega
  obtain ⟨es, next, read, fits, reaches⟩ := value_rows reads distinct
    (behind.mono (by simp only [stepWidth]; omega)) fuel indent false true skipped rfl rfl
    (by simp only [stepWidth]; omega) (by simp [Cursor.goto]) size
  refine ⟨_, next, read, ⟨es, rfl, fits⟩, ?_⟩
  rw [skip_clear (reaches.1 ▸ behind.clear)]
  exact ⟨reaches.1, reaches.2.1, Nat.lt_trans (Nat.lt_succ_self _) reaches.2.2⟩

end Rows

end Parley.Yaml
