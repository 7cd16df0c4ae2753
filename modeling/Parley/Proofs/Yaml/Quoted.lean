import Mathlib.Data.List.SplitBy
import Parley.Proofs.Json.Text
import Parley.Yaml.Writer

/-!
# Texts between quotes

What is written between quotes is read up to the closing one, wherever the lines end inside.  A line
that is not the first one begins with a blank, so that no mark of the end of a document can stand
there.
-/

namespace Parley.Yaml

/-- The quote of a text. -/
def quoteMark (double : Bool) : Char := if double then '"' else '\''

/-- Whether characters do not begin with one of those that marks of the end of a document are made
of. -/
def Unmarked (cs : List Char) : Prop := ∀ c ∈ cs.head?, c ≠ '-' ∧ c ≠ '.'

/-- Whether characters may stand between quotes, from one form to the next. -/
inductive Quotable (double : Bool) : List Char → Prop
  | nil : Quotable double []
  | char {c : Char} {cs : List Char} (quote : c ≠ quoteMark double)
      (escape : double = true → c ≠ '\\') (inside : isBreak c = false)
      (more : Quotable double cs) : Quotable double (c :: cs)
  | lineEnd {c : Char} {cs : List Char} (ends : isBreak c = true) (behind : Unmarked cs)
      (more : Quotable double cs) : Quotable double (c :: cs)
  | letter {e c : Char} {cs : List Char} (quotes : double = true) (escaped : escaped? e = some c)
      (more : Quotable double cs) : Quotable double ('\\' :: e :: cs)
  /-- A character by its number. -/
  | code {e : Char} {width : Nat} {ds cs : List Char} (quotes : double = true)
      (letter : escapeWidth? e = some width) (size : ds.length = width)
      (digits : ∀ d ∈ ds, (Text.hexValue? d).isSome = true) (more : Quotable double cs) :
      Quotable double ('\\' :: e :: (ds ++ cs))
  /-- The end of a line that is no part of the text. -/
  | hidden {c : Char} {cs : List Char} (quotes : double = true) (ends : isBreak c = true)
      (behind : Unmarked cs) (more : Quotable double cs) : Quotable double ('\\' :: c :: cs)

variable {double : Bool} {cs tail : List Char} {c d : Char}

theorem isBreak_quoteMark : isBreak (quoteMark double) = false := by cases double <;> rfl

theorem isGap_quoteMark : isGap (quoteMark double) = false := by cases double <;> rfl

section Reading

/-- Whether no mark of the end of a document stands at a place: it is inside a line, or something
else begins there. -/
def Firm (column : Nat) (cs : List Char) : Prop := 0 < column ∨ Unmarked cs

theorem Firm.not_atEnd {c : Cursor} (firm : Firm c.column cs)
    (here : c.rest = cs ++ quoteMark double :: tail) : (c.atEnd && c.column == 0) = false := by
  rw [Bool.and_eq_false_iff, or_iff_not_imp_right]
  intro start
  simp only [beq_eq_false_iff_ne, ne_eq, not_not] at start
  have unmarked := firm.resolve_left (by omega)
  have head : Unmarked c.rest := by
    rw [here]
    cases cs with
    | nil =>
        rintro _ ⟨⟩
        cases double <;> decide
    | cons c cs => exact unmarked
  cases all : c.rest with
  | nil => simp [here] at all
  | cons d rest =>
      have other := head d (by rw [all]; rfl)
      simp [Cursor.atEnd, Cursor.atMark, all, other]

/-- Whether blanks and line ends are gone through up to a place from which the text between the
quotes goes on. -/
def Skips (double : Bool) (breaks column : Nat) (cs tail : List Char) : Prop :=
  ∃ rest breaks' column', blankLines isGap breaks column (cs ++ quoteMark double :: tail) =
      (rest ++ quoteMark double :: tail, breaks', column') ∧
    Quotable double rest ∧ Firm column' rest ∧ rest <:+ cs ∧
    ∀ c ∈ rest.head?, isGap c = false ∧ isBreak c = false

/-- Nothing is gone through in front of any other character. -/
theorem Quotable.skips_solid {breaks column : Nat} (quotable : Quotable double (c :: cs))
    (firm : Firm column (c :: cs)) (solid : isGap c = false) (inside : isBreak c = false) :
    Skips double breaks column (c :: cs) tail := by
  refine ⟨c :: cs, breaks, column, by simp [blankLines, solid, inside], quotable, firm,
    List.suffix_refl _, ?_⟩
  rintro _ ⟨⟩
  exact ⟨solid, inside⟩

theorem Quotable.skips (quotable : Quotable double cs) {breaks column : Nat}
    (firm : Firm column cs) : Skips double breaks column cs tail := by
  have longer {c : Char} {cs : List Char} {breaks breaks' column column' : Nat}
      (skips : Skips double breaks' column' cs tail)
      (step : blankLines isGap breaks column (c :: cs ++ quoteMark double :: tail) =
        blankLines isGap breaks' column' (cs ++ quoteMark double :: tail)) :
      Skips double breaks column (c :: cs) tail := by
    obtain ⟨rest, b, k, skipped, quotable, firm, suffix, solid⟩ := skips
    exact ⟨rest, b, k, step.trans skipped, quotable, firm, suffix.trans (List.suffix_cons _ _),
      solid⟩
  induction quotable generalizing column breaks with
  | nil =>
      refine ⟨[], breaks, column, ?_, .nil, firm, List.suffix_refl _, fun _ none => nomatch none⟩
      simp [blankLines, isBreak_quoteMark, isGap_quoteMark]
  | @char c cs quote escape inside more ih =>
      by_cases gap : isGap c = true
      · have step : blankLines isGap breaks column (c :: cs ++ quoteMark double :: tail) =
            blankLines isGap breaks (column + 1) (cs ++ quoteMark double :: tail) := by
          simp [blankLines, inside, gap]
        exact longer (ih (.inl (Nat.succ_pos column))) step
      · exact skips_solid (.char quote escape inside more) firm (by simpa using gap) inside
  | @lineEnd c cs ends behind more ih =>
      have step : blankLines isGap breaks column (c :: cs ++ quoteMark double :: tail) =
          blankLines isGap (breaks + 1) 0 (cs ++ quoteMark double :: tail) := by
        rw [List.cons_append, blankLines, if_pos ends]
      exact longer (ih (.inr behind)) step
  | letter quotes escaped more => exact skips_solid (.letter quotes escaped more) firm rfl rfl
  | code quotes letter size digits more =>
      exact skips_solid (.code quotes letter size digits more) firm rfl rfl
  | hidden quotes ends behind more =>
      exact skips_solid (.hidden quotes ends behind more) firm rfl rfl

/-- Whether a place is further on in the text between the quotes, and no mark stands there. -/
def Onward (double : Bool) (cs tail : List Char) (c next : Cursor) : Prop :=
  ∃ rest, next.rest = rest ++ quoteMark double :: tail ∧ Quotable double rest ∧
    rest.length < cs.length ∧ Firm next.column rest ∧ c.line ≤ next.line

/-- A row of blanks and line ends is read as a whole. -/
theorem Quotable.quotedGap (quotable : Quotable double (d :: cs))
    (blank : (isGap d || isBreak d) = true) {c : Cursor}
    (here : c.rest = d :: cs ++ quoteMark double :: tail) (firm : Firm c.column (d :: cs)) :
    ∃ more next, Yaml.quotedGap c = .ok (more, next) ∧ Onward double (d :: cs) tail c next := by
  obtain ⟨rest, breaks, column, skipped, left, firm, suffix, solid⟩ :=
    (quotable.skips firm : Skips double 0 c.column (d :: cs) tail)
  have shorter : rest.length < (d :: cs).length := by
    refine Nat.lt_of_le_of_ne suffix.length_le fun same => ?_
    obtain rfl : rest = d :: cs := suffix.eq_of_length same
    obtain ⟨gap, line⟩ := solid d rfl
    rw [gap, line] at blank
    cases blank
  have onward : Onward double (d :: cs) tail c
      (c.goto (rest ++ quoteMark double :: tail) (c.line + breaks) column) :=
    ⟨rest, rfl, left, shorter, firm, Nat.le_add_right _ _⟩
  rw [Yaml.quotedGap, Cursor.blanks, here, skipped]
  dsimp only
  split
  next => exact ⟨_, _, rfl, onward⟩
  next =>
    rw [Firm.not_atEnd (c := c.goto _ _ _) firm rfl]
    exact ⟨_, _, rfl, onward⟩

/-- A letter behind a backslash is read. -/
theorem escape_letter {e : Char} (escaped : escaped? e = some d) {c : Cursor}
    (here : c.rest = e :: cs) : escape c = .ok ([d], c.advance 1) := by
  have inside : isBreak e = false := by
    rw [Bool.eq_false_iff]
    intro ends
    simp only [isBreak, Bool.or_eq_true, beq_iff_eq] at ends
    rcases ends with (rfl | rfl) | rfl <;> cases escaped
  rw [escape, here]
  simp only [inside, escaped, Bool.false_eq_true, if_false]

/-- The number of a character behind a backslash is read. -/
theorem escape_code {e : Char} {width : Nat} {ds : List Char} (letter : escapeWidth? e = some width)
    (size : ds.length = width) (digits : ∀ d ∈ ds, (Text.hexValue? d).isSome = true) {c : Cursor}
    (here : c.rest = e :: (ds ++ cs)) : ∃ d, escape c = .ok ([d], c.advance (width + 1)) := by
  have other : isBreak e = false ∧ escaped? e = none := by
    unfold escapeWidth? at letter
    split at letter
    next => exact ⟨rfl, rfl⟩
    next => exact ⟨rfl, rfl⟩
    next => exact ⟨rfl, rfl⟩
    next => cases letter
  have taken : (ds ++ cs).take width = ds := size ▸ List.take_left
  have all : ds.all (fun d => (Text.hexValue? d).isSome) = true := List.all_eq_true.mpr digits
  rw [escape, here]
  simp only [other, letter, taken, size, all, Bool.false_eq_true, if_false, decide_true,
    Bool.and_self, if_true]
  exact ⟨_, rfl⟩

/-- The end of a line behind a backslash is left out, with the blanks that follow. -/
theorem escape_hidden {e : Char} (ends : isBreak e = true) (behind : Unmarked cs)
    (more : Quotable double cs) {c : Cursor}
    (here : c.rest = e :: (cs ++ quoteMark double :: tail)) :
    ∃ text next, escape c = .ok (text, next) ∧ Onward double ('\\' :: e :: cs) tail c next := by
  obtain ⟨rest, breaks, column, skipped, left, firm, suffix, -⟩ :=
    (more.skips (.inr behind) : Skips double 0 0 cs tail)
  have shorter : rest.length < ('\\' :: e :: cs).length := by
    have size := suffix.length_le
    simp only [List.length_cons]
    omega
  rw [escape, here]
  simp only [ends, if_true, Cursor.blanks, skipped]
  rw [Firm.not_atEnd (c := Cursor.goto _ _ _ _) firm rfl]
  exact ⟨_, _, rfl, rest, rfl, left, shorter, firm, by simp only [Cursor.goto]; omega⟩

/-- Between quotes each form is read for itself. -/
theorem Quotable.step (quotable : Quotable double cs) (some : cs ≠ []) {c : Cursor}
    (here : c.rest = cs ++ quoteMark double :: tail) (firm : Firm c.column cs) (fuel : Nat)
    (done : List Char) : ∃ done' next,
      quotedFrom double (fuel + 1) done c = quotedFrom double fuel done' next ∧
        Onward double cs tail c next := by
  rw [quotedFrom, here]
  cases quotable with
  | nil => exact absurd rfl some
  | @char d cs quote escape solid more =>
      have plain : (double && d == '"') = false ∧ (double && d == '\\') = false ∧
          (!double && d == '\'') = false := by
        cases double with
        | true => simpa [quoteMark] using ⟨quote, escape rfl⟩
        | false => simpa [quoteMark] using quote
      simp only [List.cons_append, plain, Bool.false_eq_true, if_false]
      split
      next blank =>
        obtain ⟨more, next, read, onward⟩ :=
          (Quotable.char quote escape solid more).quotedGap blank here firm
        exact ⟨_, next, by rw [read]; rfl, onward⟩
      next =>
        exact ⟨_, c.advance 1, rfl, cs, by simp [Cursor.advance, here], more, Nat.lt_succ_self _,
          .inl (Nat.succ_pos _), Nat.le_refl _⟩
  | @lineEnd d cs ends behind more =>
      have plain : (double && d == '"') = false ∧ (double && d == '\\') = false ∧
          (!double && d == '\'') = false := by
        simp only [isBreak, Bool.or_eq_true, beq_iff_eq] at ends
        rcases ends with (rfl | rfl) | rfl <;> simp
      have blank : (isGap d || isBreak d) = true := by rw [ends, Bool.or_true]
      simp only [List.cons_append, plain, blank, Bool.false_eq_true, if_false, if_true]
      obtain ⟨more, next, read, onward⟩ :=
        (Quotable.lineEnd ends behind more).quotedGap blank here firm
      exact ⟨_, next, by rw [read]; rfl, onward⟩
  | @letter e d cs quotes escaped more =>
      subst quotes
      have behind : (c.advance 1).rest = e :: (cs ++ quoteMark true :: tail) := by
        simp [Cursor.advance, here]
      refine ⟨_, (c.advance 1).advance 1, by rw [escape_letter escaped behind]; rfl, cs, ?_, more,
        ?_,
        .inl (Nat.succ_pos _), Nat.le_refl _⟩
      · simp [Cursor.advance, here]
      · simp only [List.length_cons]
        omega
  | @code e width ds cs quotes letter size digits more =>
      subst quotes
      have behind : (c.advance 1).rest = e :: (ds ++ (cs ++ quoteMark true :: tail)) := by
        simp [Cursor.advance, here]
      obtain ⟨d, read⟩ := escape_code letter size digits behind
      refine ⟨_, (c.advance 1).advance (width + 1), by rw [read]; rfl, cs, ?_, more, ?_,
        .inl (Nat.succ_pos _), Nat.le_refl _⟩
      · simp [Cursor.advance, here, ← size]
      · simp only [List.length_cons, List.length_append]
        omega
  | @hidden e cs quotes ends behind more =>
      subst quotes
      have here' : (c.advance 1).rest = e :: (cs ++ quoteMark true :: tail) := by
        simp [Cursor.advance, here]
      obtain ⟨text, next, read, onward⟩ := escape_hidden ends behind more here'
      exact ⟨_, next, by rw [read]; rfl, onward⟩

/-- A text between quotes is read up to the closing one. -/
theorem Quotable.quotedFrom (quotable : Quotable double cs) (alone : tail.head? ≠ some '\'')
    {fuel : Nat} (enough : cs.length < fuel) (done : List Char) {c : Cursor}
    (here : c.rest = cs ++ quoteMark double :: tail) (firm : Firm c.column cs) :
    ∃ text next, Yaml.quotedFrom double fuel done c = .ok (text, next) ∧ next.rest = tail ∧
      c.line ≤ next.line := by
  induction fuel generalizing cs done c with
  | zero => cases enough
  | succ fuel ih =>
      by_cases some : cs = []
      · subst some
        refine ⟨done, c.advance 1, ?_, by simp [Cursor.advance, here], Nat.le_refl _⟩
        rw [Yaml.quotedFrom, here]
        cases double with
        | true => rfl
        | false => simp [quoteMark, alone]
      · obtain ⟨done', next, step, rest, here', left, shorter, firm', below⟩ :=
          quotable.step some here firm fuel done
        obtain ⟨text, last, read, ends, below'⟩ := ih left (by omega) done' here' firm'
        exact ⟨text, last, step.trans read, ends, Nat.le_trans below below'⟩

end Reading

section Writing

variable {fold first : Bool} {indent column : Nat}

theorem quotable_blanks (more : Quotable double cs) (n : Nat) :
    Quotable double (List.replicate n ' ' ++ cs) := by
  induction n with
  | zero => exact more
  | succ n ih =>
      refine .char ?_ (fun _ => by decide) rfl ih
      cases double <;> decide

theorem unmarked_blanks (positive : 0 < indent) :
    Unmarked (List.replicate indent ' ' ++ cs) := by
  obtain ⟨n, rfl⟩ := Nat.exists_eq_add_of_lt positive
  rw [Nat.zero_add, List.replicate_succ]
  rintro _ ⟨⟩
  decide

theorem quotable_nextLine (positive : 0 < indent) (more : Quotable double cs) :
    Quotable double (nextLine indent ++ cs) :=
  .lineEnd rfl (unmarked_blanks positive) (quotable_blanks more indent)

theorem mem_hex {width n : Nat} (small : n < 16 ^ (width + 1)) :
    (Text.hex (width + 1) n).length = width + 1 ∧
      ∀ c ∈ Text.hex (width + 1) n, ∃ k < 16, c = k.digitChar := by
  induction width generalizing n with
  | zero =>
      have single : Text.hex 1 n = [n.digitChar] := by
        rw [Text.hex, Nat.toDigits_of_lt_base (by simpa using small)]
        rfl
      rw [single]
      exact ⟨rfl, List.forall_mem_singleton.mpr ⟨n, by simpa using small, rfl⟩⟩
  | succ width ih =>
      have less : n / 16 < 16 ^ (width + 1) :=
        Nat.div_lt_of_lt_mul (by rwa [Nat.pow_succ'] at small)
      obtain ⟨size, each⟩ := ih less
      rw [Json.hex_succ]
      refine ⟨by simp [size], List.forall_mem_append.mpr ⟨each, ?_⟩⟩
      exact List.forall_mem_singleton.mpr ⟨n % 16, Nat.mod_lt _ (by decide), rfl⟩

/-- The number of a character is written behind its letter. -/
theorem quotable_hex {e : Char} {width n : Nat} (letter : escapeWidth? e = some (width + 1))
    (small : n < 16 ^ (width + 1)) (more : Quotable true cs) :
    Quotable true ('\\' :: e :: ((Text.hex (width + 1) n).map Char.toUpper ++ cs)) := by
  obtain ⟨size, digits⟩ := mem_hex small
  refine .code rfl letter (by simpa using size) (List.forall_mem_map.mpr fun c member => ?_) more
  obtain ⟨k, low, rfl⟩ := digits c member
  have upper : ∀ k < 16, (Text.hexValue? k.digitChar.toUpper).isSome = true := by decide
  exact upper k low

theorem quotable_escapeOf (c : Char) (more : Quotable true cs) :
    Quotable true ('\\' :: (escapeOf c ++ cs)) := by
  unfold escapeOf
  split
  case h_16 =>
    have last : c.toNat < 16 ^ 8 := c.val.toNat_lt
    dsimp only
    split_ifs with byte short
    · exact quotable_hex rfl (Nat.lt_succ_of_le byte) more
    · exact quotable_hex rfl (Nat.lt_succ_of_le short) more
    · exact quotable_hex rfl last more
  all_goals exact .letter rfl rfl more

/-- A character that is written as it is ends no line, unless it counts as a line end. -/
theorem isBreak_of_isOpen (open' : isOpen c = true) (inside : isLineEnd c = false) :
    isBreak c = false := by
  simp only [isLineEnd, Bool.or_eq_false_iff, beq_eq_false_iff_ne] at inside
  have other : c ≠ '\r' := by
    rintro rfl
    cases open'
  simp [isBreak, inside, other]

theorem quotable_doubleQuotedChar (c : Char) (more : Quotable true cs) :
    Quotable true (doubleQuotedChar c ++ cs) := by
  rw [doubleQuotedChar]
  split_ifs with special
  · exact quotable_escapeOf c more
  · simp only [Bool.or_eq_true, beq_iff_eq, not_or, Bool.not_eq_true, Bool.not_eq_true',
      Bool.not_eq_false] at special
    obtain ⟨⟨⟨quote, escape⟩, inside⟩, open'⟩ := special
    exact .char quote (fun _ => escape) (isBreak_of_isOpen open' inside) more

/-- What is written between double quotes may stand there. -/
theorem quotable_foldDouble (positive : 0 < indent) (cs : List Char) :
    Quotable true (foldDouble fold indent column first cs) := by
  induction cs generalizing column first with
  | nil => exact .nil
  | cons c cs ih =>
      rw [foldDouble]
      split_ifs
      · simp only [nextLine, List.cons_append, List.nil_append, List.append_assoc]
        exact .hidden rfl rfl (unmarked_blanks positive)
          (quotable_blanks (.letter rfl rfl ih) indent)
      · exact quotable_nextLine positive ih
      · exact quotable_doubleQuotedChar c ih

/-- Whether characters stand in lines between single quotes: what ends a line is followed by the
indentation of the next one. -/
inductive Folded (indent : Nat) : List Char → Prop
  | nil : Folded indent []
  | char {c : Char} {cs : List Char} (quote : c ≠ '\'') (line : c ≠ '\n') (return' : c ≠ '\r')
      (more : Folded indent cs) : Folded indent (c :: cs)
  | line {cs : List Char} (more : Folded indent cs) : Folded indent (nextLine indent ++ cs)

theorem Folded.append (plain : ∀ c ∈ cs, c ≠ '\'' ∧ c ≠ '\n' ∧ c ≠ '\r') {rest : List Char}
    (more : Folded indent rest) : Folded indent (cs ++ rest) := by
  induction cs with
  | nil => exact more
  | cons c cs ih =>
      obtain ⟨⟨quote, line, return'⟩, plain⟩ := List.forall_mem_cons.mp plain
      exact .char quote line return' (ih plain)

theorem folded_foldWords {ws : List (List Char)}
    (plain : ∀ w ∈ ws, ∀ c ∈ w, c ≠ '\'' ∧ c ≠ '\n' ∧ c ≠ '\r') :
    Folded indent (foldWords fold indent column ws) := by
  induction ws generalizing column with
  | nil => exact .nil
  | cons w ws ih =>
      obtain ⟨here, plain⟩ := List.forall_mem_cons.mp plain
      rw [foldWords]
      split_ifs
      · exact .line (ih plain)
      · exact (ih plain).append here

theorem indentLines_blanks (n : Nat) :
    indentLines indent (List.replicate n ' ' ++ cs) =
      List.replicate n ' ' ++ indentLines indent cs := by
  induction n with
  | zero => rfl
  | succ n ih => simp [List.replicate_succ, indentLines, isLineEnd, ih]

theorem indentLines_nextLine :
    indentLines indent (nextLine indent ++ cs) = nextLine indent ++ indentLines indent cs := by
  simp [nextLine, indentLines, indentLines_blanks]

theorem head?_indentLines : (indentLines indent cs).head? = cs.head? := by
  cases cs with
  | nil => rfl
  | cons c cs =>
      rw [indentLines]
      split <;> rfl

/-- What is written between single quotes may stand there. -/
theorem quotable_indentLines (positive : 0 < indent) (folded : Folded indent cs) :
    Quotable false (indentLines indent cs) := by
  induction folded with
  | nil => exact .nil
  | @char c cs quote line return' more ih =>
      rw [indentLines]
      have solid (inside : c ≠ '\x85') : isBreak c = false := by
        simp [isBreak, line, return', inside]
      by_cases own : c = '\x85'
      · subst own
        split_ifs with behind
        · exact .lineEnd rfl (unmarked_blanks positive) (quotable_blanks ih indent)
        · refine .lineEnd rfl ?_ ih
          rw [Unmarked, head?_indentLines]
          intro d here
          have ends : isLineEnd d = true := by
            rw [Option.mem_def.mp here] at behind
            simpa [show isLineEnd '\x85' = true from rfl] using behind
          constructor <;> (rintro rfl; cases ends)
      · split_ifs
        · exact .char quote nofun (solid own) (quotable_blanks ih indent)
        · exact .char quote nofun (solid own) ih
  | line more ih =>
      rw [indentLines_nextLine]
      exact quotable_nextLine positive ih

/-- A text that stands between single quotes holds none of them, and no line end that is not its
own. -/
theorem single_plain {brackets : Bool} (style : styleOf brackets cs = .single) :
    ∀ c ∈ cs, c ≠ '\'' ∧ c ≠ '\n' ∧ c ≠ '\r' := by
  rw [styleOf] at style
  split_ifs at style with plain special single
  simp only [Bool.or_eq_true, List.contains_iff_mem, not_or] at special
  simp only [allowsSingle, Bool.and_eq_true, List.all_eq_true] at single
  intro c member
  refine ⟨?_, ?_, ?_⟩ <;> rintro rfl
  · exact special.1 member
  · exact special.2 member
  · cases single.1.1 _ member

/-- A text that is not written without quotes stands between two, with what may stand there. -/
theorem writeText_quoted {brackets : Bool} {s : String} (positive : 0 < indent)
    (quotes : styleOf brackets s.toList ≠ .plain) : ∃ double body,
      writeText brackets fold indent column s = quoteMark double :: (body ++ [quoteMark double]) ∧
        Quotable double body := by
  unfold writeText
  cases style : styleOf brackets s.toList with
  | plain => exact absurd style quotes
  | double =>
      simp only [style]
      exact ⟨true, _, rfl, quotable_foldDouble positive _⟩
  | single =>
      simp only [style]
      refine ⟨false, _, rfl, quotable_indentLines positive ?_⟩
      have plain : ∀ w ∈ words s.toList, ∀ c ∈ w, c ≠ '\'' ∧ c ≠ '\n' ∧ c ≠ '\r' := by
        intro w within c member
        refine single_plain style c ?_
        rw [← List.flatten_splitBy (fun a b => (a == ' ') == (b == ' ')) s.toList]
        exact List.mem_flatten_of_mem within member
      split
      next => exact .nil
      next w ws split =>
        rw [split] at plain
        obtain ⟨here, plain⟩ := List.forall_mem_cons.mp plain
        exact (folded_foldWords plain).append here

end Writing

end Parley.Yaml
