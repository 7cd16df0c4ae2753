import Parley.Proofs.Json.Size
import Parley.Proofs.Yaml.Rows

/-!
# Configurations that are read back

A map of the program whose values are texts, truth values, numbers and such maps is read back from
what is written of it: as a map with the same keys, and with values of the same kind.
-/

namespace Parley.Yaml

variable {indent column : Nat} {cs : List Char} {c : Char} {fold : Bool} {v : Yaml}
  {fits : Yaml → Prop} {ws : List (List Char)}

section Characters

/-- What a line may end and go on with. -/
theorem open_nextLine : ∀ c ∈ nextLine indent, isOpen c = true := by
  intro c member
  rcases List.mem_cons.mp member with rfl | blank
  · rfl
  · rw [List.eq_of_mem_replicate blank]
    rfl

theorem open_foldPlain (all : ∀ w ∈ ws, ∀ c ∈ w, isOpen c = true) :
    ∀ c ∈ foldPlain fold indent column ws, isOpen c = true := by
  induction ws generalizing column with
  | nil => exact List.forall_mem_nil _
  | cons w ws ih =>
      obtain ⟨here, all⟩ := List.forall_mem_cons.mp all
      rw [foldPlain]
      split_ifs
      · exact List.forall_mem_append.mpr ⟨open_nextLine, ih all⟩
      · exact List.forall_mem_append.mpr ⟨List.forall_mem_append.mpr ⟨open_nextLine, here⟩, ih all⟩
      · exact List.forall_mem_append.mpr ⟨here, ih all⟩

theorem open_foldWords (all : ∀ w ∈ ws, ∀ c ∈ w, isOpen c = true) :
    ∀ c ∈ foldWords fold indent column ws, isOpen c = true := by
  induction ws generalizing column with
  | nil => exact List.forall_mem_nil _
  | cons w ws ih =>
      obtain ⟨here, all⟩ := List.forall_mem_cons.mp all
      rw [foldWords]
      split_ifs
      · exact List.forall_mem_append.mpr ⟨open_nextLine, ih all⟩
      · exact List.forall_mem_append.mpr ⟨here, ih all⟩

theorem open_indentLines (all : ∀ c ∈ cs, isOpen c = true) :
    ∀ c ∈ indentLines indent cs, isOpen c = true := by
  induction cs with
  | nil => exact List.forall_mem_nil _
  | cons c cs ih =>
      obtain ⟨here, all⟩ := List.forall_mem_cons.mp all
      rw [indentLines]
      split_ifs
      · refine List.forall_mem_cons.mpr
          ⟨here, List.forall_mem_append.mpr ⟨fun d blank => ?_, ih all⟩⟩
        rw [List.eq_of_mem_replicate blank]
        rfl
      · exact List.forall_mem_cons.mpr ⟨here, ih all⟩

theorem open_hex {width n : Nat} (small : n < 16 ^ (width + 1)) :
    ∀ d ∈ (Text.hex (width + 1) n).map Char.toUpper, isOpen d = true := by
  refine List.forall_mem_map.mpr fun d member => ?_
  obtain ⟨k, low, rfl⟩ := (mem_hex small).2 d member
  have upper : ∀ k < 16, isOpen k.digitChar.toUpper = true := by decide
  exact upper k low

theorem open_escapeOf : ∀ d ∈ escapeOf c, isOpen d = true := by
  unfold escapeOf
  split
  case h_16 =>
    have last : c.toNat < 16 ^ 8 := c.val.toNat_lt
    dsimp only
    split_ifs with byte short
    · exact List.forall_mem_cons.mpr ⟨rfl, open_hex (Nat.lt_succ_of_le byte)⟩
    · exact List.forall_mem_cons.mpr ⟨rfl, open_hex (Nat.lt_succ_of_le short)⟩
    · exact List.forall_mem_cons.mpr ⟨rfl, open_hex last⟩
  all_goals exact List.forall_mem_singleton.mpr rfl

theorem open_foldDouble {first : Bool} :
    ∀ c ∈ foldDouble fold indent column first cs, isOpen c = true := by
  induction cs generalizing column first with
  | nil => exact List.forall_mem_nil _
  | cons c cs ih =>
      rw [foldDouble]
      split_ifs
      · simp only [List.forall_mem_append]
        exact ⟨⟨⟨List.forall_mem_singleton.mpr rfl, open_nextLine⟩,
          List.all_eq_true.mp rfl⟩, ih⟩
      · exact List.forall_mem_append.mpr ⟨open_nextLine, ih⟩
      · refine List.forall_mem_append.mpr ⟨?_, ih⟩
        rw [doubleQuotedChar]
        split_ifs with special
        · exact List.forall_mem_cons.mpr ⟨rfl, open_escapeOf⟩
        · simp only [Bool.or_eq_true, Bool.not_eq_true', not_or, Bool.not_eq_false] at special
          exact List.forall_mem_singleton.mpr special.2

theorem open_words (all : ∀ c ∈ cs, isOpen c = true) :
    ∀ w ∈ words cs, ∀ c ∈ w, isOpen c = true := by
  intro w within c member
  refine all c ?_
  rw [← List.flatten_splitBy (fun a b => (a == ' ') == (b == ' ')) cs]
  exact List.mem_flatten_of_mem within member

/-- A text is written with characters that may stand in one. -/
theorem open_writeText {brackets : Bool} {s : String} :
    ∀ c ∈ writeText brackets fold indent column s, isOpen c = true := by
  unfold writeText
  cases style : styleOf brackets s.toList with
  | plain =>
      simp only [style]
      refine open_foldPlain (open_words fun c member => ?_)
      rw [styleOf] at style
      split_ifs at style with plain
      simp only [allowsPlain, Bool.and_eq_true, List.all_eq_true] at plain
      exact (plain.1.1.1.1.1.2 c member).1
  | single =>
      simp only [style, List.forall_mem_append]
      have all : ∀ c ∈ s.toList, isOpen c = true := by
        rw [styleOf] at style
        split_ifs at style with plain special single
        simp only [allowsSingle, Bool.and_eq_true, List.all_eq_true] at single
        exact single.1.1
      refine ⟨⟨List.forall_mem_singleton.mpr rfl, open_indentLines ?_⟩,
        List.forall_mem_singleton.mpr rfl⟩
      have all := open_words all
      split
      next => exact List.forall_mem_nil _
      next w ws split =>
        rw [split] at all
        obtain ⟨here, all⟩ := List.forall_mem_cons.mp all
        exact List.forall_mem_append.mpr ⟨here, open_foldWords all⟩
  | double =>
      simp only [style, List.forall_mem_append]
      exact ⟨⟨List.forall_mem_singleton.mpr rfl, open_foldDouble⟩,
        List.forall_mem_singleton.mpr rfl⟩

end Characters

section Scalars

/-- Whether a value is a text. -/
def IsText (v : Yaml) : Prop := ∃ s, v = .text s

/-- Whether a value is a truth value. -/
def IsFlag (v : Yaml) : Prop := ∃ b, v = .bool b

/-- Whether a value is a number in its plain spelling, and may be written. -/
inductive IsNumber : Yaml → Prop
  | int {n : Int} (short : (Json.int n).Short) : IsNumber (.int n none)
  | float {x : Binary64} {spelling : Option String}
      (plain : spelling.getD (NumberStyle.config.text x) = NumberStyle.config.text x) :
      IsNumber (.float x spelling)

/-- Whether a value is written in lines of its key, and is read back as one that fits. -/
structure Scalar (v : Yaml) (fits : Yaml → Prop) : Prop where
  flat : ∀ origin items entries, v ≠ .list origin items ∧ v ≠ .map origin entries
  some : ∀ indent column, writeScalar (indent + stepWidth) column v ≠ []
  characters : ∀ indent column, ∀ c ∈ writeScalar indent column v, isOpen c = true
  reads : ∀ indent column, Reads indent
    (' ' :: (writeScalar (indent + stepWidth) column v ++ ['\n'])) fits

theorem scalar_text (s : String) : Scalar (.text s) IsText where
  flat := by simp
  some indent column := by
    rw [writeScalar]
    by_cases style : styleOf false s.toList = .plain
    · obtain ⟨start, cs, written, -, phrase, -⟩ := (writeText_plain style : ∃ start cs,
        writeText false true (indent + stepWidth) column s = start ++ cs ∧ _)
      obtain ⟨d, more, rfl, -⟩ := phrase.solid_head
      simp [written]
    · obtain ⟨double, body, written, -⟩ :=
        (writeText_quoted (Nat.lt_add_left indent (by decide)) style : ∃ double body,
          writeText false true (indent + stepWidth) column s = _ ∧ _)
      simp [written]
  characters _ _ := open_writeText
  reads indent column := by
    rw [writeScalar]
    by_cases style : styleOf false s.toList = .plain
    · obtain ⟨start, cs, written, starts, phrase, begins, single, text⟩ :=
        (writeText_plain style : ∃ start cs,
          writeText false true (indent + stepWidth) column s = start ++ cs ∧ _)
      rw [written, List.append_assoc]
      refine reads_phrase starts phrase begins fun cs' spelled => ?_
      rcases spelled with ⟨word, rfl⟩ | ⟨-, blank⟩
      · exact ⟨_, Plain.read_of_isText (single word ▸ text), _, rfl⟩
      · exact ⟨_, Plain.read_of_blank blank, _, rfl⟩
    · obtain ⟨double, body, written, quotable⟩ :=
        (writeText_quoted (Nat.lt_add_left indent (by decide)) style : ∃ double body,
          writeText false true (indent + stepWidth) column s = _ ∧ _)
      rw [written]
      exact reads_quoted quotable

/-- One word that has a reading of its own is read behind a colon as what it spells. -/
theorem scalar_word {w : List Char} (flat : ∀ origin items entries,
      v ≠ .list origin items ∧ v ≠ .map origin entries)
    (written : ∀ indent column, writeScalar indent column v = foldPlain true indent column [w])
    (word : Word w) (begins : beginsPlain false w = true) (open' : ∀ c ∈ w, isOpen c = true)
    (known : ∃ v, Plain.read w = .ok v ∧ fits v) : Scalar v fits where
  flat := flat
  some indent column := by
    obtain ⟨start, column', fold, -⟩ := (foldPlain_word word : ∃ start column',
      foldPlain true (indent + stepWidth) column [w] =
        start ++ (w ++ foldPlain true _ column' []) ∧ _)
    simp [written, fold, word.nonempty]
  characters indent column := written indent column ▸
    open_foldPlain (List.forall_mem_singleton.mpr open')
  reads indent column := by
    obtain ⟨start, column', fold, starts⟩ := (foldPlain_word word : ∃ start column',
      foldPlain true (indent + stepWidth) column [w] =
        start ++ (w ++ foldPlain true _ column' []) ∧ _)
    rw [written, fold, foldPlain, List.append_nil, List.append_assoc]
    refine reads_phrase (starts.imp_right And.left) (.word word) begins fun cs spelled => ?_
    obtain ⟨-, rfl⟩ := spelled.resolve_right fun blank => blank.1 word
    exact known

theorem scalar_flag (b : Bool) : Scalar (.bool b) IsFlag := by
  refine scalar_word (w := (if b then "true" else "false").toList) (by simp) (fun _ _ => rfl) ?_ ?_
    ?_ ?_
  · cases b <;> exact word_of_letters (by decide) rfl
  · cases b <;> rfl
  · cases b <;> exact List.all_eq_true.mp rfl
  · cases b <;> exact ⟨_, rfl, _, rfl⟩

theorem open_of_isNumberChar (number : Json.isNumberChar c = true) : isOpen c = true := by
  simp only [Json.isNumberChar, Bool.or_eq_true, List.contains_iff_mem] at number
  rcases number with digit | member
  · obtain ⟨low, high⟩ := Text.isAsciiDigit_iff.mp digit
    have printable : (0x20 ≤ c.toNat && c.toNat ≤ 0x7e) = true := by
      simp only [Bool.and_eq_true, decide_eq_true_eq]
      omega
    simp only [isOpen, printable, Bool.or_true, Bool.true_or]
  · have all : ['-', '+', '.', 'e', 'N', 'a', 'I', 'n', 'f', 'i', 't', 'y'].all isOpen = true := rfl
    exact List.all_eq_true.mp all c member

/-- A word that is a number is read behind a colon as the number. -/
theorem scalar_numeral {w : List Char} (flat : ∀ origin items entries,
      v ≠ .list origin items ∧ v ≠ .map origin entries)
    (written : ∀ indent column, writeScalar indent column v = foldPlain true indent column [w])
    (spelled : w ≠ [] ∧ ∀ c ∈ w, Json.isNumberChar c = true)
    (known : ∃ v, Plain.read w = .ok v ∧ IsNumber v) : Scalar v IsNumber := by
  obtain ⟨some, characters⟩ := spelled
  have other {d : Char} (member : d ∈ w) {e : Char} (second : Json.isNumberChar e = false) :
      d ≠ e :=
    Json.ne_of_isNumberChar (characters d member) second
  have word : Word w := by
    refine ⟨some, fun d member => ⟨?_, ?_⟩, fun hash => ?_, fun colon => ?_⟩
    · simp [isGap, other member (e := ' ') rfl, other member (e := '\t') rfl]
    · simp [isBreak, other member (e := '\n') rfl, other member (e := '\r') rfl,
        other member (e := '\x85') rfl]
    · exact other (List.mem_of_head? hash) (by rfl) rfl
    · exact other (List.mem_of_getLast? colon) (by rfl) rfl
  refine scalar_word flat written word ?_
    (fun c member => open_of_isNumberChar (characters c member)) known
  obtain ⟨d, w, rfl⟩ := List.exists_cons_of_ne_nil some
  have sign {signs : List Char} (none : signs.any Json.isNumberChar = false) : d ∉ signs :=
    fun member => List.any_eq_false.mp none d member (characters d List.mem_cons_self)
  refine beginsPlain_of_solid (word.solid d List.mem_cons_self) (sign rfl) fun marks => ?_
  cases w with
  | nil =>
      obtain ⟨v, read, number⟩ := known
      have dash : d = '-' := by
        have colon : d ≠ ':' := other List.mem_cons_self rfl
        have question : d ≠ '?' := other List.mem_cons_self rfl
        simpa [colon, question] using marks
      subst dash
      cases (Except.ok.inj read : Yaml.text "-" = v)
      cases number
  | cons e w => exact endsWord_solid (word.solid e (by simp)) w

theorem scalar_number (number : IsNumber v) : Scalar v IsNumber := by
  cases number with
  | @int n short =>
      refine scalar_numeral (w := (Text.ofInt n).toList) (by simp) (fun _ _ => rfl)
        Json.isNumberChar_ofInt ?_
      have few : (Text.digits n.natAbs).length ≤ DigitLimit.limit :=
        Binary64.digitCount_eq ▸ Json.short_int.mp short
      have same : (if decide (n < 0) then -(n.natAbs : Int) else n.natAbs) = n := by
        simp only [decide_eq_true_eq]
        split <;> omega
      refine ⟨.int n none, ?_, .int short⟩
      rw [Json.toList_ofInt, Plain.read_digits few, same]
  | @float x spelling plain =>
      refine scalar_numeral (w := (NumberStyle.config.text x).toList) (by simp) (fun _ _ => ?_)
        Plain.isNumberChar_config ?_
      · rw [writeScalar, writeBracketed, writeFloat, plain] <;> simp
      · obtain ⟨spelling, read, plain⟩ := Plain.read_text x
        exact ⟨_, read, .float plain⟩

end Scalars

section Maps

theorem foldPlain_flat : foldPlain false indent column ws = ws.flatten := by
  induction ws generalizing column with
  | nil => rfl
  | cons w ws ih =>
      rw [foldPlain, if_neg (by simp), if_neg (by simp), ih, List.flatten_cons]

/-- A key is written as it is. -/
theorem Keyword.written {key : String} (keyword : Keyword key) :
    writeKey (.text key) = key.toList := by
  have style : styleOf false key.toList = .plain := by rw [styleOf, if_pos keyword.unquoted]
  unfold writeKey writeText
  simp only [style]
  exact foldPlain_flat.trans (List.flatten_splitBy _ _)

/-- Whether rows are what is written of entries: each value is a scalar or a map of the program. -/
inductive Written : Nat → List (Yaml × Yaml) → List Row → Prop
  | nil {indent : Nat} : Written indent [] []
  | scalar {indent : Nat} {key : String} {v : Yaml} {fits : Yaml → Prop}
      {entries : List (Yaml × Yaml)} {rows : List Row} (keyword : Keyword key)
      (scalar : Scalar v fits) (more : Written indent entries rows) :
      Written indent ((.text key, v) :: entries)
        (⟨key, ' ' ::
            (writeScalar (indent + stepWidth) (indent + key.toList.length + 2) v ++ ['\n']),
          fits⟩ :: rows)
  | map {indent : Nat} {key : String} {e : Yaml × Yaml} {inner entries : List (Yaml × Yaml)}
      {q : Row} {inside rows : List Row} (keyword : Keyword key)
      (within : Written (indent + stepWidth) (e :: inner) (q :: inside))
      (distinct : ((q :: inside).map Row.key).Nodup) (more : Written indent entries rows) :
      Written indent ((.text key, .map .program (e :: inner)) :: entries)
        (⟨key, '\n' :: (q :: inside).flatMap (Row.text (indent + stepWidth)),
          fun v => ∃ es, v = .map .lines es ∧ List.Forall₂ Row.Fits (q :: inside) es⟩ :: rows)

variable {entries : List (Yaml × Yaml)} {rows : List Row}

theorem Written.reads (written : Written indent entries rows) : ∀ r ∈ rows, r.Reads indent := by
  induction written with
  | nil => exact List.forall_mem_nil _
  | scalar keyword scalar _ ih =>
      exact List.forall_mem_cons.mpr
        ⟨⟨keyword, ⟨_, _, rfl, .inl rfl⟩, scalar.reads _ _⟩, ih⟩
  | map keyword _ distinct _ within more =>
      exact List.forall_mem_cons.mpr
        ⟨⟨keyword, ⟨_, _, rfl, .inr rfl⟩, reads_rows within distinct⟩, more⟩

theorem open_of_keyword {key : String} (keyword : Keyword key) :
    ∀ c ∈ key.toList, isOpen c = true := by
  have plain := keyword.unquoted
  simp only [allowsPlain, Bool.and_eq_true, List.all_eq_true] at plain
  exact fun c member => (plain.1.1.1.1.1.2 c member).1

theorem open_text {r : Row} (keyword : Keyword r.key) (written : ∀ c ∈ r.written, isOpen c = true) :
    ∀ c ∈ r.text indent, isOpen c = true := by
  refine List.forall_mem_append.mpr ⟨fun c blank => ?_, List.forall_mem_append.mpr
    ⟨open_of_keyword keyword, List.forall_mem_cons.mpr ⟨rfl, written⟩⟩⟩
  rw [List.eq_of_mem_replicate blank]
  rfl

theorem Written.characters (written : Written indent entries rows) :
    ∀ r ∈ rows, ∀ c ∈ r.text indent, isOpen c = true := by
  induction written with
  | nil => exact List.forall_mem_nil _
  | scalar keyword scalar _ ih =>
      refine List.forall_mem_cons.mpr ⟨open_text keyword ?_, ih⟩
      exact List.forall_mem_cons.mpr ⟨rfl, List.forall_mem_append.mpr
        ⟨scalar.characters _ _, List.forall_mem_singleton.mpr rfl⟩⟩
  | map keyword _ _ _ within more =>
      refine List.forall_mem_cons.mpr ⟨open_text keyword ?_, more⟩
      exact List.forall_mem_cons.mpr ⟨rfl, List.forall_mem_flatMap.mpr within⟩

theorem entryLines_scalar {key : String} {v : Yaml} (scalar : Scalar v fits) :
    entryLines indent ((.text key, v) :: entries) =
      (List.replicate indent ' ' ++ writeKey (.text key) ++ [':'] ++
        behindBlank (writeScalar (indent + stepWidth)
          ((List.replicate indent ' ' ++ writeKey (.text key) ++ [':']).length + 1) v)) ::
      entryLines indent entries := by
  have noMap (origin : Origin) (inner : List (Yaml × Yaml)) : v ≠ .map origin inner :=
    (scalar.flat origin [] inner).2
  have noList (origin : Origin) (items : List Yaml) : v ≠ .list origin items :=
    (scalar.flat origin items []).1
  rw [entryLines] <;> simp [noMap, noList]

theorem Written.lines (written : Written indent entries rows) :
    (entryLines indent entries).flatMap (· ++ ['\n']) = rows.flatMap (Row.text indent) := by
  induction written with
  | nil => simp [entryLines]
  | @scalar indent key v fits entries rows keyword scalar _ ih =>
      have size : (List.replicate indent ' ' ++ writeKey (.text key) ++ [':']).length + 1 =
          indent + key.toList.length + 2 := by
        simp [keyword.written, Nat.add_assoc]
      have blank (cs : List Char) (some : cs ≠ []) : behindBlank cs = ' ' :: cs := by
        obtain ⟨d, cs, rfl⟩ := List.exists_cons_of_ne_nil some
        rfl
      rw [entryLines_scalar scalar, List.flatMap_cons, List.flatMap_cons, ih, size, keyword.written,
        blank _ (scalar.some _ _)]
      simp [Row.text]
  | @map indent key e inner entries q inside rows keyword within distinct more ih ih' =>
      rw [entryLines, List.flatMap_append, ih']
      rotate_left
      · simp
      simp only [List.flatMap_cons, ih, keyword.written]
      simp [Row.text]

theorem isPrintable_of_isOpen (open' : isOpen c = true) : isPrintable c = true := by
  simp only [isOpen, isPrintable, Bool.or_eq_true, Bool.and_eq_true, beq_iff_eq] at open' ⊢
  rcases open' with (((rfl | ascii) | next) | wide) | high
  · decide
  · exact .inl (.inl (.inr ascii))
  · exact .inl (.inl (.inl (.inr next)))
  · exact .inl (.inr wide.1)
  · exact .inr high

theorem unprintable?_of_open {c : Cursor} (all : ∀ d ∈ cs, isOpen d = true) :
    unprintable? c cs = none := by
  induction cs generalizing c with
  | nil => rfl
  | cons d cs ih =>
      obtain ⟨here, all⟩ := List.forall_mem_cons.mp all
      rw [unprintable?, isPrintable_of_isOpen here]
      simp only [Bool.not_true, Bool.false_eq_true, if_false, ih all, ite_self]

/-- A text that begins with a small letter has no directives in front. -/
theorem directives_of_lower {c : Cursor} {d : Char} {more : List Char} (here : c.rest = d :: more)
    (lower : d.isLower = true) (fuel : Nat) : directives (fuel + 1) false c = (false, c) := by
  have clear : Clear c.rest := clear_of_isLower (by rw [here]; rintro _ ⟨⟩; exact lower)
  have other : d ≠ '%' := ne_of_isLower lower rfl
  simp [directives, skip_clear clear, Cursor.head?, here, other]

/-- Rows are read as a map from the start of a text to its end. -/
theorem read_rows {r : Row} {text : String} (reads : ∀ q ∈ r :: rows, q.Reads 0)
    (distinct : ((r :: rows).map Row.key).Nodup)
    (written : text.toList = (r :: rows).flatMap (Row.text 0))
    (all : ∀ c ∈ text.toList, isOpen c = true) :
    ∃ es, read text = .ok (.map .lines es) ∧ List.Forall₂ Row.Fits (r :: rows) es := by
  obtain ⟨row, -⟩ := List.forall_mem_cons.mp reads
  obtain ⟨d, more, key, lower⟩ := row.keyword.exists_cons
  have here : text.toList = r.key.toList ++ ':' ::
      (r.written ++ (rows.flatMap (Row.text 0) ++ (List.replicate 0 ' ' ++ []))) := by
    simp [written, Row.text]
  obtain ⟨cs, first⟩ : ∃ cs, text.toList = d :: cs := ⟨_, by rw [here, key]; rfl⟩
  have clear : Clear (d :: cs) := clear_of_isLower (by rintro _ ⟨⟩; exact lower)
  have size : r.written.length + 3 + (rows.flatMap (Row.text 0)).length ≤
      4 * (d :: cs).length + 16 := by
    rw [← first, here]
    simp only [List.length_append, List.length_cons]
    omega
  have behind : Behind (0 : Nat) 0 [] := ⟨by simp, .inl rfl⟩
  have skipped : Cursor.skip false ⟨d :: cs, 0, 0, []⟩ = ⟨d :: cs, 0, 0, []⟩ := skip_clear clear
  obtain ⟨es, next, value, fits, reaches⟩ := value_rows reads distinct behind _ (-1) true false
    skipped (first.symm.trans here) rfl (by omega) rfl size
  refine ⟨es, ?_, fits⟩
  have mark : (⟨d :: cs, 0, 0, []⟩ : Cursor).atMark '-' = false := by
    simp [Cursor.atMark, ne_of_isLower lower (d := '-') rfl]
  have ends : finish (4 * (d :: cs).length + 16) next = .ok () := by
    have left : next.rest = [] := reaches.1
    have clear : Clear next.rest := clear_of_isLower (by simp [left])
    rw [finish, skip_clear clear, left]
    rfl
  have directed : directives (4 * (d :: cs).length + 16) false ⟨d :: cs, 0, 0, []⟩ =
      (false, ⟨d :: cs, 0, 0, []⟩) := directives_of_lower rfl lower _
  unfold read
  rw [first] at all ⊢
  split
  next bom =>
    cases bom
    cases lower
  next =>
    simp only [unprintable?_of_open all, directed, mark, Bool.not_false, Bool.and_true,
      Bool.false_eq_true, if_false, value]
    simp only [Bind.bind, Except.bind, ends]
    rfl

/-- What is written of entries is read back as a map of entries that fit their rows. -/
theorem Written.read {r : Row} (written : Written 0 entries (r :: rows))
    (distinct : ((r :: rows).map Row.key).Nodup) :
    ∃ es, Yaml.read (write entries) = .ok (.map .lines es) ∧
      List.Forall₂ Row.Fits (r :: rows) es ∧ ∀ c ∈ (write entries).toList, isOpen c = true := by
  have text : (write entries).toList = (r :: rows).flatMap (Row.text 0) := by
    rw [← written.lines]
    cases written <;> exact String.toList_ofList
  have all : ∀ c ∈ (write entries).toList, isOpen c = true := by
    rw [text]
    exact List.forall_mem_flatMap.mpr written.characters
  obtain ⟨es, read, fits⟩ := read_rows written.reads distinct text all
  exact ⟨es, read, fits, all⟩

end Maps

end Parley.Yaml
