import Parley.Json.Writer
import Parley.Proofs.Record.Checked
import Parley.Proofs.Text.Digits

/-!
# The texts between two quotes

`Letters` says which characters may stand between two quotes and what they spell: plain ones,
escapes by a letter, and code units, of which two halves of a pair are one character.  Reading
accepts exactly these and stops behind the closing quote, and a text that is written spells what it
was.
-/

namespace Parley.Json

variable {ascii : Bool} {opening n : Nat} {c : Char} {cs done tail rest text : List Char}
  {s : String}

section Hexadecimal

theorem hexValue?_digitChar : ∀ k < 16, Text.hexValue? k.digitChar = some k := by decide

/-- One digit more is written behind those of the number without it. -/
theorem hex_succ (width n : Nat) :
    Text.hex (width + 2) n = Text.hex (width + 1) (n / 16) ++ [(n % 16).digitChar] := by
  by_cases single : n < 16
  · have none : n / 16 = 0 := by omega
    have same : n % 16 = n := by omega
    rw [Text.hex, Text.hex, Nat.toDigits_of_lt_base single, none, same, Nat.toDigits_zero]
    simp [List.replicate_succ']
  · rw [Text.hex, Text.hex, Nat.toDigits_of_base_le (by decide) (by omega)]
    simp

/-- The four digits of a code unit, from the greatest place on. -/
theorem hex_four (small : n < 0x10000) : Text.hex 4 n =
    [(n / 4096).digitChar, (n / 256 % 16).digitChar, (n / 16 % 16).digitChar,
      (n % 16).digitChar] := by
  have first : Text.hex 1 (n / 4096) = [(n / 4096).digitChar] := by
    rw [Text.hex, Nat.toDigits_of_lt_base (by omega)]
    rfl
  have second : n / 16 / 16 = n / 256 := Nat.div_div_eq_div_mul ..
  have third : n / 256 / 16 = n / 4096 := Nat.div_div_eq_div_mul ..
  rw [hex_succ, hex_succ, hex_succ, second, third, first]
  rfl

theorem hexNumber?_hex (small : n < 0x10000) : ∃ a b c d, Text.hex 4 n = [a, b, c, d] ∧
    hexNumber? a b c d = some n := by
  refine ⟨_, _, _, _, hex_four small, ?_⟩
  simp only [hexNumber?, hexValue?_digitChar (n / 4096) (by omega),
    hexValue?_digitChar (n / 256 % 16) (by omega), hexValue?_digitChar (n / 16 % 16) (by omega),
    hexValue?_digitChar (n % 16) (by omega)]
  show some _ = some n
  congr 1
  omega

end Hexadecimal

/-- Whether characters begin with the escape of the second half of a pair. -/
def BeginsLow (cs : List Char) : Prop :=
  ∃ a b c d rest n, cs = '\\' :: 'u' :: a :: b :: c :: d :: rest ∧
    hexNumber? a b c d = some n ∧ isLowHalf n = true

/-- Whether characters spell a text up to a closing quote, and what is left behind that. -/
inductive Letters : List Char → List Char → List Char → Prop
  | closing {rest : List Char} : Letters ('"' :: rest) [] rest
  | plain {c : Char} {cs text rest : List Char} (quote : c ≠ '"') (backslash : c ≠ '\\')
      (high : 0x20 ≤ c.toNat) (more : Letters cs text rest) : Letters (c :: cs) (c :: text) rest
  | escape {e c : Char} {cs text rest : List Char} (escaped : escaped? e = some c)
      (more : Letters cs text rest) : Letters ('\\' :: e :: cs) (c :: text) rest
  /-- A code unit that is no half of a pair, or is without the other half. -/
  | unit {a b c d : Char} {n : Nat} {cs text rest : List Char}
      (number : hexNumber? a b c d = some n)
      (alone : isHighHalf n = true → ¬ BeginsLow cs) (more : Letters cs text rest) :
      Letters ('\\' :: 'u' :: a :: b :: c :: d :: cs) (ofUnit n :: text) rest
  | pair {a b c d a' b' c' d' : Char} {high low : Nat} {cs text rest : List Char}
      (number : hexNumber? a b c d = some high) (first : isHighHalf high = true)
      (number' : hexNumber? a' b' c' d' = some low) (second : isLowHalf low = true)
      (more : Letters cs text rest) :
      Letters ('\\' :: 'u' :: a :: b :: c :: d :: '\\' :: 'u' :: a' :: b' :: c' :: d' :: cs)
        (ofPair high low :: text) rest

theorem Letters.ne_nil (letters : Letters cs text rest) : cs ≠ [] := by
  cases letters <;> exact List.cons_ne_nil _ _

theorem Letters.length_lt {text : List Char} (letters : Letters cs text rest) :
    rest.length < cs.length := by
  induction letters with
  | closing => exact Nat.lt_succ_self _
  | plain _ _ _ _ ih | escape _ _ ih | unit _ _ _ ih | pair _ _ _ _ _ ih =>
      simp only [List.length_cons]
      omega

section Units

variable {a b d : Char}

/-- The four digits of a code unit are read if something follows them. -/
theorem codeUnit_of_number (number : hexNumber? a b c d = some n) (more : tail ≠ []) :
    codeUnit ('u' :: a :: b :: c :: d :: tail) = .ok n := by
  obtain ⟨e, tail, rfl⟩ := List.exists_cons_of_ne_nil more
  simp [codeUnit, number]

theorem codeUnit_eq_ok (read : codeUnit cs = .ok n) : ∃ a b c d e tail,
    cs = 'u' :: a :: b :: c :: d :: e :: tail ∧ hexNumber? a b c d = some n := by
  unfold codeUnit at read
  split at read
  next a b c d e tail =>
    split at read
    next unit number =>
      cases read
      exact ⟨a, b, c, d, e, tail, rfl, number⟩
    next => cases read
  next => cases read

/-- Behind a first half, the escape of a code unit is looked at whole. -/
theorem lowHalf?_of_number (number : hexNumber? a b c d = some n) (more : tail ≠ []) :
    lowHalf? ('\\' :: 'u' :: a :: b :: c :: d :: tail) =
      .ok (if isLowHalf n then some n else none) := by
  have enough : ¬ (a :: b :: c :: d :: tail).length < 5 := by
    have := List.length_pos_iff.mpr more
    simp only [List.length_cons]
    omega
  simp only [lowHalf?, if_neg enough, codeUnit_of_number number more, bind, Except.bind]
  rfl

theorem lowHalf?_eq_some (read : lowHalf? cs = .ok (some n)) : ∃ a b c d e tail,
    cs = '\\' :: 'u' :: a :: b :: c :: d :: e :: tail ∧ hexNumber? a b c d = some n ∧
      isLowHalf n = true := by
  unfold lowHalf? at read
  split at read
  next rest =>
    split at read
    next => cases read
    next =>
      obtain ⟨unit, found, read⟩ := bind_eq_ok.mp read
      obtain ⟨a, b, c, d, e, tail, same, number⟩ := codeUnit_eq_ok found
      split at read
      next second =>
        cases read
        exact ⟨a, b, c, d, e, tail, by rw [(List.cons.inj same).2], number, second⟩
      next => cases read
  next => cases read

/-- No second half is found exactly if there is none, in a text with a closing quote. -/
theorem lowHalf?_eq_none (letters : Letters cs text rest) :
    lowHalf? cs = .ok none ↔ ¬ BeginsLow cs := by
  constructor
  · rintro none ⟨a, b, c, d, tail, n, rfl, number, second⟩
    have more : tail ≠ [] := by
      cases letters with
      | plain quote backslash high more => exact absurd rfl backslash
      | escape escaped more => cases escaped
      | unit number alone more => exact more.ne_nil
      | pair number first number' second more => exact List.cons_ne_nil _ _
    rw [lowHalf?_of_number number more, if_pos second] at none
    cases none
  · intro alone
    have unit {a b c d : Char} {n : Nat} {ls : List Char} (number : hexNumber? a b c d = some n)
        (more : ls ≠ []) (alone : ¬ BeginsLow ('\\' :: 'u' :: a :: b :: c :: d :: ls)) :
        lowHalf? ('\\' :: 'u' :: a :: b :: c :: d :: ls) = .ok none := by
      have noHalf : ¬ isLowHalf n = true := fun half => alone ⟨a, b, c, d, ls, n, rfl, number, half⟩
      rw [lowHalf?_of_number number more, if_neg noHalf]
    cases letters with
    | closing => rfl
    | plain quote backslash high more =>
        rw [lowHalf?]
        exact fun _ same => backslash (List.cons.inj same).1
    | escape escaped more =>
        rw [lowHalf?]
        rintro _ ⟨⟩
        cases escaped
    | unit number alone' more => exact unit number more.ne_nil alone
    | pair number first number' second more => exact unit number (List.cons_ne_nil _ _) alone

/-- A code unit is read as one character, unless it is the first half of a pair. -/
theorem escape_unit (number : hexNumber? a b c d = some n)
    (alone : isHighHalf n = true → lowHalf? tail = .ok none) (more : tail ≠ []) :
    escape opening ('u' :: a :: b :: c :: d :: tail) = .ok (ofUnit n, 5) := by
  have behind : (a :: b :: c :: d :: tail).drop 4 = tail := rfl
  by_cases first : isHighHalf n = true
  · simp only [escape, codeUnit_of_number number more, bind, Except.bind, first, if_true, behind,
      alone first]
    rfl
  · simp only [escape, codeUnit_of_number number more, bind, Except.bind, first, Bool.false_eq_true,
      if_false]
    rfl

/-- Two halves of a pair are read as one character. -/
theorem escape_pair {a' b' c' d' : Char} {high low : Nat} (number : hexNumber? a b c d = some high)
    (first : isHighHalf high = true) (number' : hexNumber? a' b' c' d' = some low)
    (second : isLowHalf low = true) (more : tail ≠ []) :
    escape opening ('u' :: a :: b :: c :: d :: '\\' :: 'u' :: a' :: b' :: c' :: d' :: tail) =
      .ok (ofPair high low, 11) := by
  have behind (cs : List Char) : (a :: b :: c :: d :: cs).drop 4 = cs := rfl
  simp only [escape, codeUnit_of_number number (List.cons_ne_nil _ _), bind, Except.bind, first,
    if_true, behind, lowHalf?_of_number number' more, second]
  rfl

end Units

section Reading

/-- Characters that are parts of an escape are passed over. -/
theorem readText_spent :
    readText opening done cs.length (cs ++ tail) = readText opening done 0 tail := by
  induction cs with
  | nil => rfl
  | cons c cs ih => simpa [readText] using ih

/-- An escape is read as the character that it stands for. -/
theorem readText_escape (escaped : escape opening (cs ++ tail) = .ok (c, n))
    (size : cs.length = n) :
    readText opening done 0 ('\\' :: (cs ++ tail)) = readText opening (c :: done) 0 tail := by
  have quote : ('\\' == '"') = false := by decide
  subst size
  simp only [readText, quote, Bool.false_eq_true, if_false, beq_self_eq_true, if_true, escaped,
    readText_spent]

/-- A character that needs no escape is read as itself. -/
theorem readText_plain (quote : c ≠ '"') (backslash : c ≠ '\\') (high : 0x20 ≤ c.toNat) :
    readText opening done 0 (c :: tail) = readText opening (c :: done) 0 tail := by
  simp [readText, quote, backslash, Nat.not_lt.mpr high]

/-- What characters spell is read up to the closing quote. -/
theorem readText_of_letters (letters : Letters cs text rest) :
    readText opening done 0 cs = .ok (String.ofList (done.reverse ++ text), rest) := by
  induction letters generalizing done with
  | closing => simp [readText]
  | plain quote backslash high more ih =>
      rw [readText_plain quote backslash high, ih]
      simp
  | @escape e c cs text rest escaped more ih =>
      have read : Json.escape opening ([e] ++ cs) = .ok (c, 1) := by
        rw [List.singleton_append, Json.escape]
        · rw [escaped]
        · rintro rfl
          cases escaped
      exact (readText_escape read rfl).trans (ih.trans (by simp))
  | @unit a b c d n cs text rest number alone more ih =>
      have read : Json.escape opening (['u', a, b, c, d] ++ cs) = .ok (ofUnit n, 5) :=
        escape_unit number (fun first => (lowHalf?_eq_none more).mpr (alone first)) more.ne_nil
      exact (readText_escape read rfl).trans (ih.trans (by simp))
  | @pair a b c d a' b' c' d' high low cs text rest number first number' second more ih =>
      have read : Json.escape opening (['u', a, b, c, d, '\\', 'u', a', b', c', d'] ++ cs) =
          .ok (ofPair high low, 11) := escape_pair number first number' second more.ne_nil
      exact (readText_escape read rfl).trans (ih.trans (by simp))

/-- An escape that is read is one of the grammar, if what is behind it spells a text. -/
theorem letters_of_escape (read : escape opening cs = .ok (c, n))
    (more : Letters (cs.drop n) text rest) : Letters ('\\' :: cs) (c :: text) rest := by
  unfold escape at read
  split at read
  next => cases read
  next cs =>
    obtain ⟨unit, found, read⟩ := bind_eq_ok.mp read
    obtain ⟨a, b, c, d, e, tail, same, number⟩ := codeUnit_eq_ok found
    obtain rfl : cs = a :: b :: c :: d :: e :: tail := (List.cons.inj same).2
    split at read
    next first =>
      obtain ⟨low?, next', read⟩ := bind_eq_ok.mp read
      split at read
      next low =>
        obtain ⟨rfl, rfl⟩ := Prod.mk.inj (Except.ok.inj read)
        obtain ⟨a', b', c', d', e', tail', same, number', second⟩ := lowHalf?_eq_some next'
        obtain ⟨rfl, rfl⟩ : e = '\\' ∧ tail = 'u' :: a' :: b' :: c' :: d' :: e' :: tail' :=
          List.cons.inj same
        exact .pair number first number' second more
      next =>
        cases read
        exact .unit number (fun _ => (lowHalf?_eq_none more).mp next') more
    next noHalf =>
      cases read
      exact .unit number (fun first => absurd first noHalf) more
  next e cs _ =>
    split at read
    next escaped =>
      cases read
      exact .escape escaped more
    next => cases read

/-- What is read up to a closing quote is spelled by the characters before it. -/
theorem letters_of_readText (read : readText opening done n cs = .ok (s, rest)) :
    ∃ text, s = String.ofList (done.reverse ++ text) ∧ Letters (cs.drop n) text rest := by
  induction cs generalizing done n with
  | nil => cases read
  | cons c cs ih =>
      cases n with
      | succ n => exact ih read
      | zero =>
          rw [readText] at read
          split at read
          next quote =>
            obtain rfl : c = '"' := eq_of_beq quote
            cases read
            exact ⟨[], by simp, .closing⟩
          next quote =>
            split at read
            next backslash =>
              obtain rfl : c = '\\' := eq_of_beq backslash
              split at read
              next e spent escaped =>
                obtain ⟨text, rfl, more⟩ := ih read
                exact ⟨e :: text, by simp, letters_of_escape escaped more⟩
              next => cases read
            next backslash =>
              split at read
              next => cases read
              next high =>
                obtain ⟨text, rfl, more⟩ := ih read
                exact ⟨c :: text, by simp,
                  .plain (by simpa using quote) (by simpa using backslash) (by omega) more⟩

/-- A text is read up to a closing quote exactly if the characters spell it. -/
theorem readText_eq_ok :
    readText opening [] 0 cs = .ok (s, rest) ↔ Letters cs s.toList rest := by
  constructor
  · intro read
    obtain ⟨text, rfl, letters⟩ := letters_of_readText read
    simpa using letters
  · intro letters
    rw [readText_of_letters letters]
    simp

end Reading

section Flaws

variable {e : DigitLimit}

theorem codeUnit_ne_tooLong : codeUnit cs ≠ .error (.tooLong e) := by
  intro failed
  unfold codeUnit at failed
  split at failed
  next => split at failed <;> cases failed
  next => cases failed

theorem lowHalf?_ne_tooLong : lowHalf? cs ≠ .error (.tooLong e) := by
  intro failed
  unfold lowHalf? at failed
  split at failed
  next =>
    split at failed
    next => cases failed
    next =>
      rcases bind_eq_error.mp failed with failed | ⟨_, -, failed⟩
      · exact codeUnit_ne_tooLong failed
      · cases failed
  next => cases failed

theorem escape_ne_tooLong : escape opening cs ≠ .error (.tooLong e) := by
  intro failed
  unfold escape at failed
  split at failed
  next => cases failed
  next =>
    rcases bind_eq_error.mp failed with failed | ⟨_, -, failed⟩
    · exact codeUnit_ne_tooLong failed
    · split at failed
      next =>
        rcases bind_eq_error.mp failed with failed | ⟨_, -, failed⟩
        · exact lowHalf?_ne_tooLong failed
        · split at failed <;> cases failed
      next => cases failed
  next => split at failed <;> cases failed

/-- Nothing between two quotes is a number that is too long. -/
theorem readText_ne_tooLong : readText opening done n cs ≠ .error (.tooLong e) := by
  induction cs generalizing done n with
  | nil => exact fun failed => nomatch failed
  | cons c cs ih =>
      cases n with
      | succ n => exact ih
      | zero =>
          intro failed
          rw [readText] at failed
          split at failed
          next => cases failed
          next =>
            split at failed
            next =>
              split at failed
              next => exact ih failed
              next escaped =>
                cases failed
                exact escape_ne_tooLong escaped
            next =>
              split at failed
              next => cases failed
              next => exact ih failed

end Flaws

section Writing

/-- The code point of a character is no half of a pair, and it is small enough for two of them. -/
theorem toNat_bounds (c : Char) :
    isHighHalf c.toNat = false ∧ isLowHalf c.toNat = false ∧ c.toNat < 0x110000 := by
  have valid : c.toNat < 0xd800 ∨ 0xdfff < c.toNat ∧ c.toNat < 0x110000 := c.valid
  simp only [isHighHalf, isLowHalf, decide_eq_false_iff_not]
  omega

theorem lt_of_isHighHalf (half : isHighHalf n = true) : n < 0x10000 := by
  simp only [isHighHalf, decide_eq_true_eq] at half
  omega

theorem lt_of_isLowHalf (half : isLowHalf n = true) : n < 0x10000 := by
  simp only [isLowHalf, decide_eq_true_eq] at half
  omega

/-- A character beyond the first plane is written as the two halves of its pair. -/
theorem unitEscape_pair (great : ¬ c.toNat < 0x10000) :
    ∃ high low, isHighHalf high = true ∧ isLowHalf low = true ∧ ofPair high low = c ∧
      unitEscape c.toNat = '\\' :: 'u' :: (Text.hex 4 high ++ '\\' :: 'u' :: Text.hex 4 low) := by
  obtain ⟨-, -, bounded⟩ := toNat_bounds c
  refine ⟨0xd800 + (c.toNat - 0x10000) / 1024, 0xdc00 + (c.toNat - 0x10000) % 1024, ?_, ?_, ?_, ?_⟩
  · simp only [isHighHalf, decide_eq_true_eq]
    omega
  · simp only [isLowHalf, decide_eq_true_eq]
    omega
  · have point : 0x10000 + (0xd800 + (c.toNat - 0x10000) / 1024 - 0xd800) * 1024 +
        (0xdc00 + (c.toNat - 0x10000) % 1024 - 0xdc00) = c.toNat := by omega
    rw [ofPair, point, Char.ofNat_toNat]
  · have joined (a b : List Char) :
        ['\\', 'u'] ++ a ++ ['\\', 'u'] ++ b = '\\' :: 'u' :: (a ++ '\\' :: 'u' :: b) := by simp
    rw [unitEscape, if_neg great, joined]

/-- The code unit form of a character spells it. -/
theorem letters_unitEscape (more : Letters cs text rest) :
    Letters (unitEscape c.toNat ++ cs) (c :: text) rest := by
  by_cases small : c.toNat < 0x10000
  · obtain ⟨high, low, -⟩ := toNat_bounds c
    have whole : ofUnit c.toNat = c := by simp [ofUnit, high, low]
    obtain ⟨a, b, c', d, digits, number⟩ := hexNumber?_hex small
    have unit := Letters.unit number (fun first => absurd (high.symm.trans first) (by decide)) more
    rw [whole] at unit
    rw [unitEscape, if_pos small, digits]
    exact unit
  · obtain ⟨high, low, first, second, whole, written⟩ := unitEscape_pair small
    obtain ⟨a, b, c', d, digits, number⟩ := hexNumber?_hex (lt_of_isHighHalf first)
    obtain ⟨a', b', c'', d', digits', number'⟩ := hexNumber?_hex (lt_of_isLowHalf second)
    have pair := Letters.pair number first number' second more
    rw [whole] at pair
    rw [written, digits, digits']
    exact pair

/-- The written form of a character spells it. -/
theorem letters_writeChar (more : Letters cs text rest) :
    Letters (writeChar ascii c ++ cs) (c :: text) rest := by
  unfold writeChar
  split
  iterate 7 exact .escape rfl more
  next quote backslash _ _ _ _ _ =>
    split
    next => exact letters_unitEscape more
    next plain =>
      have high : 0x20 ≤ c.toNat := by
        simp only [Bool.or_eq_true, decide_eq_true_eq] at plain
        omega
      exact .plain quote backslash high more

/-- The written form of a text spells it. -/
theorem letters_written (text : List Char) :
    Letters (text.flatMap (writeChar ascii) ++ '"' :: rest) text rest := by
  induction text with
  | nil => exact .closing
  | cons c text ih =>
      rw [List.flatMap_cons, List.append_assoc]
      exact letters_writeChar ih

end Writing

end Parley.Json
