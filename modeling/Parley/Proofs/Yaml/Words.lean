import Parley.Proofs.Yaml.Plain
import Parley.Proofs.Yaml.Quoted

/-!
# Texts without quotes

A text without quotes is written word after word.  Between two words there are blanks, or the end of
a line and the indentation of the next one, with blanks before it or without.  It is read up to the
end of its last line: a single word as it is, and several ones as a text with a blank in it.
-/

namespace Parley.Yaml

variable {fold : Bool} {indent column k : Nat} {least : Int} {cs w rest : List Char} {c : Char}
  {ws : List (List Char)}

/-- Whether a character is no blank and ends no line. -/
def IsSolid (c : Char) : Prop := isGap c = false ∧ isBreak c = false

instance : DecidablePred IsSolid := fun c =>
  inferInstanceAs (Decidable (isGap c = false ∧ isBreak c = false))

/-- Whether characters are a word of a text without quotes. -/
structure Word (w : List Char) : Prop where
  nonempty : w ≠ []
  solid : ∀ c ∈ w, IsSolid c
  head : w.head? ≠ some '#'
  last : w.getLast? ≠ some ':'

/-- What stands between two words of a text in the lines behind the first one. -/
inductive Between (indent : Nat) : List Char → Prop
  | blanks (n : Nat) : Between indent (List.replicate (n + 1) ' ')
  | line (n : Nat) : Between indent (List.replicate n ' ' ++ nextLine indent)

/-- Whether characters are a text without quotes, as it is written. -/
inductive Phrase (indent : Nat) : List Char → Prop
  | word {w : List Char} (word : Word w) : Phrase indent w
  | more {w gap rest : List Char} (word : Word w) (between : Between indent gap)
      (more : Phrase indent rest) : Phrase indent (w ++ (gap ++ rest))

theorem endsWord_solid (solid : IsSolid c) (rest : List Char) : endsWord (c :: rest) = false := by
  rw [endsWord, solid.1, solid.2]
  rfl

theorem not_solid_blank : ¬ IsSolid ' ' := fun solid => nomatch solid.1

theorem not_solid_lineEnd : ¬ IsSolid '\n' := fun solid => nomatch solid.2

theorem Phrase.exists_word (phrase : Phrase indent cs) : ∃ w rest, Word w ∧ cs = w ++ rest := by
  cases phrase with
  | word word => exact ⟨cs, [], word, (List.append_nil cs).symm⟩
  | more word => exact ⟨_, _, word, rfl⟩

theorem Phrase.solid_head (phrase : Phrase indent cs) : ∃ c rest, cs = c :: rest ∧ IsSolid c := by
  obtain ⟨w, rest, word, rfl⟩ := phrase.exists_word
  obtain ⟨c, w, rfl⟩ := List.exists_cons_of_ne_nil word.nonempty
  exact ⟨c, w ++ rest, rfl, word.solid c List.mem_cons_self⟩

/-- A text of several words is no word. -/
theorem Between.not_word {gap more : List Char} (between : Between indent gap) :
    ¬ Word (w ++ (gap ++ more)) := by
  intro word
  cases between with
  | blanks n => exact not_solid_blank (word.solid _ (by simp))
  | line n => exact not_solid_lineEnd (word.solid _ (by simp [nextLine]))

section Reading

theorem wordLength_append (solid : ∀ c ∈ w, IsSolid c) (last : w.getLast? ≠ some ':')
    (stop : wordLength false rest = 0) : wordLength false (w ++ rest) = w.length := by
  induction w with
  | nil => exact stop
  | cons c w ih =>
      obtain ⟨here, solid⟩ := List.forall_mem_cons.mp solid
      have other : (c == ':' && endsWord (w ++ rest)) = false := by
        cases w with
        | nil =>
            have colon : c ≠ ':' := fun same => last (congrArg some same)
            simp [colon]
        | cons d w =>
            rw [List.cons_append, endsWord_solid (List.forall_mem_cons.mp solid).1, Bool.and_false]
      have last : w.getLast? ≠ some ':' := by
        cases w with
        | nil => nofun
        | cons d w => simpa using last
      rw [List.cons_append, wordLength, endsWord_solid here, other, ih solid last]
      rfl

theorem wordLength_blank : wordLength false (' ' :: rest) = 0 := rfl

theorem wordLength_lineEnd : wordLength false ('\n' :: rest) = 0 := rfl

theorem wordLength_between {gap : List Char} (between : Between indent gap) :
    wordLength false (gap ++ rest) = 0 := by
  cases between with
  | blanks n => exact wordLength_blank
  | line n =>
      cases n with
      | zero => exact wordLength_lineEnd
      | succ n => exact wordLength_blank

theorem takeWhile_blanks (n : Nat) (solid : ∀ c ∈ rest.head?, c ≠ ' ') :
    (List.replicate n ' ' ++ rest).takeWhile (· == ' ') = List.replicate n ' ' := by
  have none : rest.takeWhile (· == ' ') = [] := by
    cases rest with
    | nil => rfl
    | cons c rest => exact List.takeWhile_cons_of_neg (by simpa using solid c rfl)
  rw [List.takeWhile_append_of_pos (fun c member => by simp [List.eq_of_mem_replicate member]),
    none,
    List.append_nil]

theorem blankLines_blanks {breaks : Nat} (n : Nat) (solid : ∀ c ∈ rest.head?, IsSolid c) :
    blankLines (· == ' ') breaks column (List.replicate n ' ' ++ rest) =
      (rest, breaks, column + n) := by
  induction n generalizing column with
  | zero =>
      cases rest with
      | nil => rfl
      | cons c rest =>
          have here := solid c rfl
          have other : (c == ' ') = false := by
            rw [beq_eq_false_iff_ne]
            rintro rfl
            exact not_solid_blank here
          simp [blankLines, here.2, other]
  | succ n ih =>
      have step : blankLines (· == ' ') breaks column (List.replicate (n + 1) ' ' ++ rest) =
          blankLines (· == ' ') breaks (column + 1) (List.replicate n ' ' ++ rest) := rfl
      rw [step, ih, Nat.add_right_comm, Nat.add_assoc]

/-- What is gone through where a line ends. -/
theorem plainGap_line {c next : Cursor} (n : Nat) (solid : ∀ c ∈ rest.head?, IsSolid c)
    (here : c.rest = List.replicate n ' ' ++ ('\n' :: (List.replicate k ' ' ++ rest)))
    (same : next = (c.advance n).goto rest (c.line + 1) k) :
    plainGap c = (if next.atEnd then none else some [' '], next) := by
  have spaces : (c.rest.takeWhile (· == ' ')) = List.replicate n ' ' :=
    here ▸ takeWhile_blanks n fun _ same => by cases same; decide
  have behind : (c.advance n).rest = '\n' :: (List.replicate k ' ' ++ rest) := by
    simp [Cursor.advance, here]
  have ends : (c.advance n).head?.any isBreak = true := by rw [Cursor.head?, behind]; rfl
  have lines : blankLines (· == ' ') 0 (c.advance n).column
      ('\n' :: (List.replicate k ' ' ++ rest)) = (rest, 1, k) := by
    have step : blankLines (· == ' ') 0 (c.advance n).column
        ('\n' :: (List.replicate k ' ' ++ rest)) =
          blankLines (· == ' ') 1 0 (List.replicate k ' ' ++ rest) := rfl
    rw [step, blankLines_blanks k solid, Nat.zero_add]
  simp only [plainGap, spaces, List.length_replicate, ends, if_true, Cursor.blanks, behind, lines]
  subst same
  rfl

/-- Between two words there is always something that is read as blanks. -/
theorem plainGap_between {c : Cursor} {gap : List Char} (between : Between indent gap)
    (positive : 0 < indent) (solid : ∃ d more, rest = d :: more ∧ IsSolid d)
    (here : c.rest = gap ++ rest) : ∃ read next, plainGap c = (some read, next) ∧ ' ' ∈ read ∧
      next.rest = rest ∧ c.line ≤ next.line ∧ min c.column indent ≤ next.column := by
  obtain ⟨d, more, rfl, solid⟩ := solid
  have head : ∀ e ∈ (d :: more).head?, IsSolid e := fun _ same => by cases same; exact solid
  cases between with
  | blanks n =>
      have other : ∀ e ∈ (d :: more).head?, e ≠ ' ' := fun e same blank =>
        not_solid_blank (blank ▸ head e same)
      have spaces : (c.rest.takeWhile (· == ' ')) = List.replicate (n + 1) ' ' :=
        here ▸ takeWhile_blanks (n + 1) other
      have behind : (c.advance (n + 1)).rest = d :: more := by simp [Cursor.advance, here]
      have inside : (c.advance (n + 1)).head?.any isBreak = false := by
        rw [Cursor.head?, behind]
        exact solid.2
      refine ⟨List.replicate (n + 1) ' ', c.advance (n + 1), ?_, by simp, behind, Nat.le_refl _, ?_⟩
      · simp only [plainGap, spaces, List.length_replicate, inside, Bool.false_eq_true, if_false]
        rfl
      · exact Nat.le_trans (Nat.min_le_left _ _) (Nat.le_add_right _ _)
  | line n =>
      obtain ⟨next, same⟩ : ∃ next, next = (c.advance n).goto (d :: more) (c.line + 1) indent :=
        ⟨_, rfl⟩
      have line := plainGap_line n head (by simpa [nextLine] using here) same
      have inside : next.atEnd = false := by
        subst same
        simp [Cursor.goto, Cursor.atEnd, Cursor.atMark, positive.ne']
      rw [inside] at line
      subst same
      exact ⟨[' '], _, line, List.mem_singleton_self _, rfl, Nat.le_succ _, Nat.min_le_right _ _⟩

/-- Whether a text ends before a place: nothing follows there, or something that is indented less
than the text. -/
def Behind (least : Int) (k : Nat) (rest : List Char) : Prop :=
  (∀ c ∈ rest.head?, c.isLower = true) ∧ (rest = [] ∨ (k : Int) < least)

/-- Whether a place in a later line is reached. -/
def Reaches (c next : Cursor) (k : Nat) (rest : List Char) : Prop :=
  next.rest = rest ∧ next.column = k ∧ c.line < next.line

/-- A small letter is none of the signs. -/
theorem ne_of_isLower {d : Char} (lower : c.isLower = true) (other : d.isLower = false) :
    c ≠ d := by
  rintro rfl
  cases lower.symm.trans other

theorem solid_of_isLower (lower : c.isLower = true) : IsSolid c := by
  have other {d : Char} (upper : d.isLower = false) : (c == d) = false :=
    beq_false_of_ne (ne_of_isLower lower upper)
  simp [IsSolid, isGap, isBreak, other (d := ' ') rfl, other (d := '\t') rfl, other (d := '\n') rfl,
    other (d := '\r') rfl, other (d := '\x85') rfl]

/-- One word is read with what follows it. -/
theorem plainFrom_word (word : Word w) (stop : wordLength false rest = 0) {fuel : Nat}
    {done gap : List Char} {c next : Cursor} {read? : Option (List Char)}
    (here : c.rest = w ++ rest) (went : plainGap (c.advance w.length) = (read?, next)) :
    plainFrom false least (fuel + 1) done gap c =
      read?.elim (done ++ gap ++ w, next) fun read =>
        if next.column < least then (done ++ gap ++ w, next)
        else plainFrom false least fuel (done ++ gap ++ w) read next := by
  have length : wordLength false c.rest = w.length :=
    here ▸ wordLength_append word.solid word.last stop
  have head : (c.head? == some '#') = false := by
    rw [beq_eq_false_iff_ne, Cursor.head?, here, List.head?_append_of_ne_nil _ word.nonempty]
    exact word.head
  have taken : c.rest.take w.length = w := by rw [here, List.take_left]
  rw [Yaml.plainFrom, length, taken, went]
  simp only [List.length_eq_zero_iff, word.nonempty, head, decide_false, Bool.or_self,
    Bool.false_eq_true, if_false, Bool.not_false, Bool.true_and, decide_eq_true_eq]
  cases read? <;> rfl

/-- A text without quotes is read up to the end of its last line. -/
theorem Phrase.plainFrom (phrase : Phrase indent cs) (positive : 0 < indent)
    (deep : least ≤ indent) (behind : Behind least k rest) {fuel : Nat}
    (enough : cs.length ≤ fuel) (done gap : List Char) {c : Cursor}
    (here : c.rest = cs ++ '\n' :: (List.replicate k ' ' ++ rest)) (inside : least ≤ c.column) :
    ∃ read next, plainFrom false least fuel done gap c = (done ++ gap ++ read, next) ∧
      (Word cs ∧ read = cs ∨ ¬ Word cs ∧ ' ' ∈ read) ∧ Reaches c next k rest := by
  have solid : ∀ d ∈ rest.head?, IsSolid d := fun d first => solid_of_isLower (behind.1 d first)
  induction phrase generalizing fuel done gap c with
  | @word w word =>
      obtain ⟨fuel, rfl⟩ := Nat.exists_eq_succ_of_ne_zero
        (Nat.lt_of_lt_of_le (List.length_pos_iff.mpr word.nonempty) enough).ne'
      obtain ⟨next, same⟩ :
          ∃ next, next = ((c.advance w.length).advance 0).goto rest (c.line + 1) k := ⟨_, rfl⟩
      have line := plainGap_line 0 solid (by simp [Cursor.advance, here]) same
      have ends : next.atEnd = false → (next.column : Int) < least := by
        intro goes
        subst same
        refine behind.2.resolve_left fun none => ?_
        subst none
        cases goes
      refine ⟨w, next, ?_, .inl ⟨word, rfl⟩, by subst same; exact ⟨rfl, rfl, Nat.lt_succ_self _⟩⟩
      rw [plainFrom_word word wordLength_lineEnd here line]
      cases goes : next.atEnd with
      | true => rfl
      | false => simp [ends goes]
  | @more w between cs word spread more ih =>
      obtain ⟨fuel, rfl⟩ := Nat.exists_eq_succ_of_ne_zero
        (Nat.lt_of_lt_of_le (List.length_pos_iff.mpr (by simp [word.nonempty])) enough).ne'
      have left : c.rest = w ++ (between ++ (cs ++ '\n' :: (List.replicate k ' ' ++ rest))) := by
        simp [here]
      have solid' : ∃ d more, cs ++ '\n' :: (List.replicate k ' ' ++ rest) = d :: more ∧
          IsSolid d := by
        obtain ⟨d, more', rfl, solid'⟩ := more.solid_head
        exact ⟨d, _, rfl, solid'⟩
      obtain ⟨read, next, went, blank, here', later, column⟩ :=
        plainGap_between (c := c.advance w.length) spread positive solid'
          (by simp [Cursor.advance, left])
      have inside' : least ≤ next.column := by
        have column : min (c.column + w.length) indent ≤ next.column := column
        omega
      have fewer : cs.length ≤ fuel := by
        have some := List.length_pos_iff.mpr word.nonempty
        simp only [List.length_append] at enough
        omega
      obtain ⟨text, last, all, -, rest', column', line⟩ :=
        ih fewer (done ++ gap ++ w) read here' inside'
      refine ⟨w ++ read ++ text, last, ?_, .inr ⟨spread.not_word, by simp [blank]⟩, rest', column',
        Nat.lt_of_le_of_lt later line⟩
      rw [plainFrom_word word (wordLength_between spread) left went, Option.elim_some,
        if_neg (Int.not_lt.mpr inside'), all]
      simp only [List.append_assoc]

end Reading

section Writing

/-- A row of blanks, or of other characters, comes first among the rows of a text. -/
theorem words_append {row : List Char} (blank : Bool) (some : row ≠ [])
    (same : ∀ c ∈ row, (c == ' ') = blank) (other : ∀ c ∈ rest.head?, (c == ' ') = !blank) :
    words (row ++ rest) = row :: words rest := by
  have chain : row.IsChain fun a b => ((a == ' ') == (b == ' ')) = true :=
    (List.pairwise_of_forall_mem_list fun a here b there => by
      rw [same a here, same b there, beq_self_eq_true]).isChain
  have apart : ∀ a ∈ row.getLast?, ∀ b ∈ rest.head?, ((a == ' ') == (b == ' ')) = false := by
    intro a last b first
    rw [same a (List.mem_of_getLast? last), other b first]
    cases blank <;> rfl
  rw [words, List.splitBy_append apart, List.splitBy_of_isChain some chain]
  rfl

/-- Words with blanks between them. -/
inductive Wording : List (List Char) → Prop
  | word {w : List Char} (word : Word w) : Wording [w]
  | more {w : List Char} (n : Nat) {ws : List (List Char)} (word : Word w) (more : Wording ws) :
      Wording (w :: List.replicate (n + 1) ' ' :: ws)

theorem Wording.head (wording : Wording ws) (first : ws.head? = some w) :
    Word w ∧ ∃ rest, ws.flatten = w ++ rest ∧ ∀ c ∈ rest.head?, c = ' ' := by
  cases wording with
  | word word =>
      cases first
      exact ⟨word, [], by simp, nofun⟩
  | more n word =>
      cases first
      refine ⟨word, _, List.flatten_cons, ?_⟩
      rintro c head
      simpa [List.replicate_succ, eq_comm] using head

theorem Word.ne_blank (word : Word w) : (w == [' ']) = false :=
  beq_eq_false_iff_ne.mpr fun same => not_solid_blank (word.solid ' ' (by simp [same]))

theorem Word.not_blanks (word : Word w) : (w.all (· == ' ')) = false := by
  obtain ⟨c, w, rfl⟩ := List.exists_cons_of_ne_nil word.nonempty
  have other : c ≠ ' ' := fun same => not_solid_blank (same ▸ word.solid c List.mem_cons_self)
  simp [other]

/-- A word is written as it is, or in a line of its own. -/
theorem foldPlain_word (word : Word w) : ∃ start column',
    foldPlain fold indent column (w :: ws) = start ++ (w ++ foldPlain fold indent column' ws) ∧
      (start = [] ∨ start = nextLine indent ∧ indent < column) := by
  rw [foldPlain, word.ne_blank, word.not_blanks]
  simp only [Bool.and_false, Bool.false_and, Bool.false_eq_true, if_false]
  split_ifs with long
  · simp only [Bool.and_eq_true, decide_eq_true_eq] at long
    exact ⟨nextLine indent, _, by rw [List.append_assoc], .inr ⟨rfl, long.2⟩⟩
  · exact ⟨[], _, rfl, .inl rfl⟩

/-- Blanks are written as they are, or as the end of a line. -/
theorem foldPlain_blanks (n : Nat) : ∃ gap column',
    foldPlain fold indent column (List.replicate (n + 1) ' ' :: ws) =
      gap ++ foldPlain fold indent column' ws ∧
        (gap = List.replicate (n + 1) ' ' ∨ gap = nextLine indent ∧ column' = indent) := by
  have blank : (List.replicate (n + 1) ' ').all (· == ' ') = true := by simp
  rw [foldPlain, blank]
  simp only [Bool.not_true, Bool.and_false, Bool.false_and, Bool.false_eq_true, if_false]
  split_ifs
  · exact ⟨_, _, rfl, .inr ⟨rfl, rfl⟩⟩
  · exact ⟨_, _, rfl, .inl rfl⟩

/-- Words are written as a text without quotes, which begins in a line of its own if its first word
is longer than a line. -/
theorem Wording.foldPlain (wording : Wording ws) : ∃ start cs,
    foldPlain fold indent column ws = start ++ cs ∧
      (start = [] ∨ start = nextLine indent ∧ indent < column) ∧ Phrase indent cs ∧
      (∃ w rest, ws.head? = some w ∧ cs = w ++ rest) ∧ (Word cs → ws = [cs]) := by
  induction wording generalizing column with
  | @word w word =>
      obtain ⟨start, column', written, starts⟩ :=
        (foldPlain_word word : ∃ start column', Yaml.foldPlain fold indent column [w] = _ ∧ _)
      exact ⟨start, w, by simpa [Yaml.foldPlain] using written, starts, .word word,
        ⟨w, [], rfl, (List.append_nil w).symm⟩, fun _ => rfl⟩
  | @more w n ws word _ ih =>
      obtain ⟨start, column₁, written, starts⟩ := (foldPlain_word word : ∃ start column',
        Yaml.foldPlain fold indent column (w :: List.replicate (n + 1) ' ' :: ws) = _ ∧ _)
      obtain ⟨gap, column₂, written', gaps⟩ := (foldPlain_blanks n : ∃ gap column',
        Yaml.foldPlain fold indent column₁ (List.replicate (n + 1) ' ' :: ws) = _ ∧ _)
      obtain ⟨start', cs, rest, starts', phrase, -, -⟩ :=
        (ih : ∃ start cs, Yaml.foldPlain fold indent column₂ ws = start ++ cs ∧ _)
      have between : Between indent (gap ++ start') := by
        rcases gaps with rfl | ⟨rfl, rfl⟩ <;> rcases starts' with rfl | ⟨rfl, deep⟩
        · exact (List.append_nil (List.replicate (n + 1) ' ')).symm ▸ .blanks n
        · exact .line (n + 1)
        · exact (List.append_nil (nextLine column₂)).symm ▸ .line 0
        · exact absurd deep (Nat.lt_irrefl _)
      refine ⟨start, w ++ ((gap ++ start') ++ cs), ?_, starts, .more word between phrase,
        ⟨w, _, rfl, rfl⟩, fun word => absurd word between.not_word⟩
      rw [written, written', rest]
      simp only [List.append_assoc]

theorem holdsIndicator_append (first : List Char) (none : holdsIndicator (first ++ cs) = false) :
    holdsIndicator cs = false := by
  induction first with
  | nil => exact none
  | cons a first ih =>
      refine ih ?_
      cases all : first ++ cs with
      | nil => rfl
      | cons b rest =>
          rw [List.cons_append, all, holdsIndicator, Bool.or_eq_false_iff] at none
          exact none.2

/-- Whether a text goes on without quotes behind a blank. -/
structure Running (cs : List Char) : Prop where
  first : ∃ c rest, cs = c :: rest ∧ c ≠ ' '
  last : cs.getLast? ≠ some ' '
  each : ∀ c ∈ cs, c = ' ' ∨ IsSolid c
  marks : holdsIndicator (' ' :: cs) = false

/-- What is before a blank or the end of such a text is a word. -/
theorem Running.word (running : Running (w ++ rest)) (some : w ≠ []) (full : ∀ c ∈ w, c ≠ ' ')
    (ends : ∀ c ∈ rest.head?, c = ' ') : Word w where
  nonempty := some
  solid c member := (running.each c (List.mem_append_left _ member)).resolve_left (full c member)
  head hash := by
    obtain ⟨w, rfl⟩ := List.head?_eq_some_iff.mp hash
    have marks := running.marks
    simp [holdsIndicator, isWordBound] at marks
  last colon := by
    obtain ⟨w, rfl⟩ := List.getLast?_eq_some_iff.mp colon
    obtain ⟨a, b, same⟩ : ∃ first a, ' ' :: w = first ++ [a] :=
      ⟨_, _, (List.dropLast_append_getLast (List.cons_ne_nil ' ' w)).symm⟩
    have marks : holdsIndicator (b :: ':' :: rest) = false := by
      refine holdsIndicator_append a ?_
      have all : a ++ b :: ':' :: rest = ' ' :: (w ++ [':'] ++ rest) := by
        rw [← List.singleton_append, ← List.append_assoc, ← same]
        simp
      exact all ▸ running.marks
    cases rest with
    | nil => simp [holdsIndicator] at marks
    | cons c rest =>
        obtain rfl := ends c rfl
        simp [holdsIndicator, isWordBound] at marks

/-- Behind a word and blanks such a text goes on in the same way. -/
theorem Running.behind {n : Nat} (running : Running (w ++ (List.replicate (n + 1) ' ' ++ rest)))
    (solid : ∀ c ∈ rest.head?, c ≠ ' ') : Running rest := by
  have some : rest ≠ [] := by
    rintro rfl
    refine running.last ?_
    rw [List.append_nil, List.replicate_succ', ← List.append_assoc, List.getLast?_concat]
  obtain ⟨c, rest, rfl⟩ := List.exists_cons_of_ne_nil some
  refine ⟨⟨c, rest, rfl, solid c rfl⟩, fun blank => running.last ?_, fun d member => ?_, ?_⟩
  · rw [← List.append_assoc, List.getLast?_append, blank]
    rfl
  · exact running.each d (by simp [List.mem_cons.mp member])
  · refine holdsIndicator_append (' ' :: w ++ List.replicate n ' ') ?_
    have marks := running.marks
    rw [List.replicate_succ'] at marks
    simpa using marks

/-- The words of such a text have blanks between them. -/
theorem Running.wording (running : Running cs) : Wording (words cs) := by
  -- The induction is on the length, since a word and the blanks behind it come off at once.
  induction size : cs.length using Nat.strong_induction_on generalizing cs with
  | _ size ih =>
  subst size
  rcases parts : Text.span (· != ' ') cs with ⟨w, rest⟩
  obtain ⟨rfl, full, ends⟩ := Text.span_eq.mp parts
  replace full : ∀ c ∈ w, c ≠ ' ' := fun c member => by simpa using full c member
  replace ends : ∀ c ∈ rest.head?, c = ' ' := fun c first => by simpa using ends c first
  have some : w ≠ [] := by
    rintro rfl
    obtain ⟨c, rest', rfl, other⟩ := running.first
    exact other (ends c rfl)
  have word : Word w := running.word some full ends
  have first : words (w ++ rest) = w :: words rest :=
    words_append false some (fun c member => by simpa using full c member)
      fun c head => by simpa using ends c head
  rw [first]
  cases rest with
  | nil => exact .word word
  | cons c rest =>
      obtain rfl := ends c rfl
      rcases parts : Text.span (· == ' ') (' ' :: rest) with ⟨blanks, more⟩
      obtain ⟨all, blank, solid⟩ := Text.span_eq.mp parts
      obtain ⟨n, rfl⟩ : ∃ n, blanks = List.replicate (n + 1) ' ' := by
        have row : blanks = List.replicate blanks.length ' ' :=
          List.eq_replicate_of_mem fun c member => by simpa using blank c member
        cases size : blanks.length with
        | zero =>
            obtain rfl := List.length_eq_zero_iff.mp size
            exact absurd (solid ' ' (by rw [← List.nil_append more, ← all]; rfl)) (by decide)
        | succ n => exact ⟨n, size ▸ row⟩
      replace solid : ∀ c ∈ more.head?, c ≠ ' ' := fun c first => by simpa using solid c first
      rw [all] at running ih ⊢
      have behind : words (List.replicate (n + 1) ' ' ++ more) =
          List.replicate (n + 1) ' ' :: words more := by
        refine words_append true (by simp) (fun c member => ?_) fun c head => ?_
        · simp [List.eq_of_mem_replicate member]
        · simpa using solid c head
      rw [behind]
      refine .more n word (ih more.length ?_ (running.behind solid) rfl)
      simp only [List.length_append, List.length_replicate]
      omega

/-- A text that may stand without quotes goes on without them. -/
theorem running_of_allowsPlain {brackets : Bool} (plain : allowsPlain brackets cs = true) :
    Running cs := by
  simp only [allowsPlain, Bool.and_eq_true, List.all_eq_true, bne_iff_ne,
    Bool.not_eq_true'] at plain
  obtain ⟨⟨⟨⟨⟨⟨text, inside⟩, first⟩, last⟩, starts⟩, holds⟩, -⟩ := plain
  cases cs with
  | nil => cases text
  | cons c cs =>
      have other : c ≠ ' ' := fun blank => first (congrArg some blank)
      refine ⟨⟨c, cs, rfl, other⟩, last, fun d member => ?_, ?_⟩
      · obtain ⟨open', line⟩ := inside d member
        refine or_iff_not_imp_left.mpr fun blank => ⟨?_, isBreak_of_isOpen open' line⟩
        have tab : d ≠ '\t' := by
          rintro rfl
          cases open'
        simp [isGap, blank, tab]
      · simp only [startsWithIndicator, Bool.or_eq_false_iff] at starts
        have hash : c ≠ '#' := by
          rintro rfl
          cases starts.1.1
        have colon : (c == ':' && (cs.isEmpty || cs.head?.any isWordBound)) = false := by
          have mark := starts.1.2
          revert mark
          cases c == ':' <;> simp
        simp only [holdsIndicator, colon, holds, beq_eq_false_iff_ne.mpr hash, Bool.false_and,
          Bool.or_self]

theorem beginsPlain_append (begins : beginsPlain false w = true) :
    beginsPlain false (w ++ rest) = true := by
  cases w with
  | nil => cases begins
  | cons c w =>
      have ends : endsWord (w ++ rest) = true → endsWord w = true := by
        cases w with
        | nil => exact fun _ => rfl
        | cons d w => exact id
      revert ends begins
      simp only [List.cons_append, beginsPlain]
      split_ifs
      all_goals cases endsWord w <;> cases endsWord (w ++ rest) <;> simp

/-- A word that no sign with a meaning stands at the front of begins a text without quotes. -/
theorem Word.begins (word : Word w) (plain : startsWithIndicator (w ++ rest) = false)
    (ends : ∀ c ∈ rest.head?, c = ' ') : beginsPlain false w = true := by
  obtain ⟨c, w, rfl⟩ := List.exists_cons_of_ne_nil word.nonempty
  simp only [List.cons_append, startsWithIndicator, Bool.or_eq_false_iff] at plain
  obtain ⟨⟨leading, single⟩, -⟩ := plain
  have here := word.solid c List.mem_cons_self
  have marks : ("#&*!|>'\"%@,[]".toList.contains c || c == '\x60' || isBracketMark c) = false := by
    simp [isLeadingIndicator] at leading
    simp [isBracketMark, leading]
  have behind : endsWord w = true → (c == '?' || c == ':' || c == '-') = false := by
    intro ends'
    cases w with
    | nil =>
        cases rest with
        | nil => simpa using single
        | cons d rest =>
            obtain rfl := ends d rfl
            simpa [isWordBound] using single
    | cons d w =>
        rw [endsWord_solid (word.solid d (by simp))] at ends'
        cases ends'
  simp only [Bool.or_eq_false_iff] at marks
  rw [beginsPlain]
  simp only [endsWord_solid here, marks, Bool.or_self, Bool.false_eq_true, if_false]
  cases ends' : endsWord w with
  | false => simp
  | true =>
      have other := behind ends'
      simp only [Bool.or_eq_false_iff] at other
      simp [other]

/-- A text that stands without quotes is written as words that begin one, in the line that it is
written on or in the next one. -/
theorem writeText_plain {brackets : Bool} {s : String}
    (style : styleOf brackets s.toList = .plain) :
    ∃ start cs, writeText brackets fold indent column s = start ++ cs ∧
      (start = [] ∨ start = nextLine indent) ∧ Phrase indent cs ∧ beginsPlain false cs = true ∧
      (Word cs → cs = s.toList) ∧ Plain.isText s.toList = true := by
  have plain : allowsPlain brackets s.toList = true := by
    rw [styleOf] at style
    split_ifs at style with plain
    exact plain
  have wording := (running_of_allowsPlain plain).wording
  obtain ⟨start, cs, written, starts, phrase, ⟨w, rest, first, rfl⟩, single⟩ :=
    (wording.foldPlain : ∃ start cs,
      foldPlain fold indent column (words s.toList) = start ++ cs ∧ _)
  have whole : (words s.toList).flatten = s.toList := List.flatten_splitBy _ _
  obtain ⟨word, rest', all, ends⟩ := wording.head first
  have begins : beginsPlain false w = true := by
    simp only [allowsPlain, Bool.and_eq_true, Bool.not_eq_true'] at plain
    exact word.begins (all ▸ whole.symm ▸ plain.1.1.2) ends
  refine ⟨start, w ++ rest, ?_, starts.imp_right And.left, phrase, beginsPlain_append begins,
    fun word => ?_, ?_⟩
  · unfold writeText
    simp only [style]
    exact written
  · rw [← whole, single word, List.flatten_singleton]
  · simp only [allowsPlain, Bool.and_eq_true] at plain
    exact plain.1.1.1.1.1.1

end Writing

end Parley.Yaml
