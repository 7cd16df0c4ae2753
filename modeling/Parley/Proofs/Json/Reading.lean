import Parley.Proofs.Json.Grammar

/-!
# What is read

A text is read exactly if it is spelled as the grammar says, and then it is read as the value that
it spells; it is refused for the length of a number exactly if the grammar finds such a number in
it.  The reader's fuel suffices because every call of it begins at a place of its own but for one.
-/

namespace Parley.Json

variable {limit fuel n : Nat} {c : Char} {cs ds rest : List Char} {v : Json} {vs done : List Json}
  {k : String} {pairs before : List (String × Json)} {l : Literal}

/-- Whether a text begins neither with a text nor with an array or an object. -/
def Atomic (cs : List Char) : Prop := ∀ c ∈ cs.head?, c ≠ '"' ∧ c ≠ '[' ∧ c ≠ '\x7b'

section Atoms

theorem readAtom_constant {name : List Char} (known : (name, v) ∈ constants) :
    readAtom limit (name ++ rest) = .ok (v, rest) := by
  have each : ∀ constant ∈ constants,
      readAtom limit (constant.1 ++ rest) = .ok (constant.2, rest) := by
    simp only [constants, List.forall_mem_cons]
    exact ⟨rfl, rfl, rfl, rfl, rfl, rfl, List.forall_mem_nil _⟩
  exact each _ known

/-- What is no constant is read as a number. -/
theorem readAtom_cases (limit : Nat) (cs : List Char) :
    (∃ name v rest, (name, v) ∈ constants ∧ cs = name ++ rest ∧
      readAtom limit cs = .ok (v, rest)) ∨ readAtom limit cs = readDigits limit cs := by
  unfold readAtom
  split
  next rest => exact .inl ⟨['n', 'u', 'l', 'l'], _, rest, by simp [constants], rfl, rfl⟩
  next rest => exact .inl ⟨['t', 'r', 'u', 'e'], _, rest, by simp [constants], rfl, rfl⟩
  next rest => exact .inl ⟨['f', 'a', 'l', 's', 'e'], _, rest, by simp [constants], rfl, rfl⟩
  next rest => exact .inl ⟨['N', 'a', 'N'], _, rest, by simp [constants], rfl, rfl⟩
  next rest =>
    exact .inl ⟨['I', 'n', 'f', 'i', 'n', 'i', 't', 'y'], _, rest, by simp [constants], rfl, rfl⟩
  next rest =>
    exact .inl
      ⟨['-', 'I', 'n', 'f', 'i', 'n', 'i', 't', 'y'], _, rest, by simp [constants], rfl, rfl⟩
  next => exact .inr rfl

/-- A digit is no other character. -/
theorem ne_of_isAsciiDigit {d : Char} (digit : Text.isAsciiDigit c = true)
    (other : Text.isAsciiDigit d = false) : c ≠ d := by
  rintro rfl
  cases other.symm.trans digit

/-- Digits are not the name of a constant. -/
theorem readAtom_tight {negative : Bool} (tight : Text.Tight ds) :
    readAtom limit (sign negative ++ (ds ++ rest)) =
      readDigits limit (sign negative ++ (ds ++ rest)) := by
  refine (readAtom_cases limit _).resolve_left ?_
  rintro ⟨name, v, rest', known, same, -⟩
  obtain ⟨c, ds, rfl⟩ := List.exists_cons_of_ne_nil tight.nonempty
  have other {d : Char} := ne_of_isAsciiDigit (d := d) (tight.ascii c (List.mem_cons_self ..))
  have each : ∀ constant ∈ constants,
      sign negative ++ (c :: ds ++ rest) ≠ constant.1 ++ rest' := by
    cases negative <;>
      simp [constants, sign, other (d := 'n') rfl, other (d := 't') rfl, other (d := 'f') rfl,
        other (d := 'N') rfl, other (d := 'I') rfl, other (d := '-') rfl]
  exact each _ known same

theorem readAtom_numeral (numeral : l.Numeral cs) (stops : Stops rest) :
    readAtom limit (cs ++ rest) = (ofLiteral limit l).map (·, rest) := by
  rw [← readDigits_of_numeral numeral stops]
  obtain ⟨plain, part, -, rfl⟩ := numeral
  rw [List.append_assoc, List.append_assoc]
  exact readAtom_tight plain.whole

theorem numeral_of_tight {negative : Bool} (tight : Text.Tight ds) :
    Literal.Numeral ⟨negative, ds, none, none⟩ (sign negative ++ ds) where
  whole := tight
  fraction _ member := nomatch member
  parts := ⟨[], rfl, by simp [Literal.pointPart]⟩

theorem atomic_constant {name : List Char} (known : (name, v) ∈ constants) :
    Atomic (name ++ rest) := by
  have each : ∀ constant ∈ constants, Atomic (constant.1 ++ rest) := by simp [constants, Atomic]
  exact each _ known

theorem atomic_tight {negative : Bool} (tight : Text.Tight ds) :
    Atomic (sign negative ++ (ds ++ rest)) := by
  cases negative with
  | true => simp [sign, Atomic]
  | false =>
      obtain ⟨c, ds, rfl⟩ := List.exists_cons_of_ne_nil tight.nonempty
      have other {d : Char} := ne_of_isAsciiDigit (d := d) (tight.ascii c (List.mem_cons_self ..))
      rintro _ ⟨⟩
      exact ⟨other rfl, other rfl, other rfl⟩

theorem atomic_numeral (numeral : l.Numeral cs) : Atomic (cs ++ rest) := by
  obtain ⟨plain, part, -, rfl⟩ := numeral
  rw [List.append_assoc, List.append_assoc]
  exact atomic_tight plain.whole

theorem readValue_atomic (atomic : Atomic cs) :
    readValue limit (fuel + 1) cs = readAtom limit cs := by
  rw [readValue]
  all_goals
    rintro rest rfl
    simpa using atomic _ rfl

end Atoms

section Completeness

section Fuel

theorem Opens.exists_fuel (opens : Opens cs) (enough : 2 * cs.length ≤ fuel) :
    ∃ left, fuel = left + 1 := by
  obtain ⟨c, tail, rfl, -⟩ := opens
  rw [List.length_cons] at enough
  exact ⟨fuel - 1, by omega⟩

/-- There is enough fuel for what is behind an opening bracket. -/
theorem Gap.exists_fuel (gap : Gap cs ds) (enough : 2 * (c :: cs).length ≤ fuel + 1) :
    ∃ left, fuel = left + 1 ∧ 2 * ds.length ≤ left := by
  have size := gap.length_le
  rw [List.length_cons] at enough
  exact ⟨fuel - 1, by omega, by omega⟩

/-- There is enough fuel for what is behind a comma. -/
theorem Gap.enough_behind {es fs : List Char} (gap : Gap ds (c :: es)) (gap' : Gap es fs)
    (before : ds.length ≤ cs.length) (enough : 2 * cs.length ≤ fuel + 1) :
    2 * fs.length ≤ fuel := by
  have size := gap.length_le
  have size' := gap'.length_le
  rw [List.length_cons] at size
  omega

/-- There is enough fuel for what is behind a key. -/
theorem Key.enough (key : Key k cs ds) (enough : 2 * cs.length ≤ fuel) : 2 * ds.length ≤ fuel := by
  have size := key.length_lt
  omega

end Fuel

section Steps

theorem readValue_noItems (gap : Gap cs (']' :: rest)) :
    readValue limit (fuel + 1) ('[' :: cs) = .ok (.arr [], rest) := by
  rw [readValue, gap.skip_eq_of_solid rfl]
  rfl

theorem readValue_items (gap : Gap cs ds) (opens : Opens ds) :
    readValue limit (fuel + 1) ('[' :: cs) = readItems limit fuel [] ds := by
  rw [readValue, gap.skip_eq_of_opens opens]
  obtain ⟨c, tail, rfl, opening⟩ := opens
  split
  next same =>
    obtain ⟨rfl, -⟩ := List.cons.inj same
    cases opening
  next => rfl

theorem readValue_noFields (gap : Gap cs ('\x7d' :: rest)) :
    readValue limit (fuel + 1) ('\x7b' :: cs) = .ok (.obj [], rest) := by
  rw [readValue, gap.skip_eq_of_solid rfl]
  rfl

theorem readValue_fields (gap : Gap cs ds) (opens : Opens ds) :
    readValue limit (fuel + 1) ('\x7b' :: cs) = readFields limit fuel [] ds := by
  rw [readValue, gap.skip_eq_of_opens opens]
  obtain ⟨c, tail, rfl, opening⟩ := opens
  split
  next same =>
    obtain ⟨rfl, -⟩ := List.cons.inj same
    cases opening
  next => rfl

theorem readItems_last (read : readValue limit fuel cs = .ok (v, ds)) (gap : Gap ds (']' :: rest)) :
    readItems limit (fuel + 1) done cs = .ok (.arr (done.reverse ++ [v]), rest) := by
  rw [readItems, read]
  simp [bind, Except.bind, gap.skip_eq_of_solid rfl]

theorem readItems_more {es fs : List Char} (read : readValue limit fuel cs = .ok (v, ds))
    (gap : Gap ds (',' :: es)) (gap' : Gap es fs) (opens : Opens fs) :
    readItems limit (fuel + 1) done cs = readItems limit fuel (v :: done) fs := by
  rw [readItems, read]
  simp [bind, Except.bind, gap.skip_eq_of_solid rfl, gap'.skip_eq_of_opens opens]

theorem readFields_last {es : List Char} (key : Key k cs ds) (opens : Opens ds)
    (read : readValue limit fuel ds = .ok (v, es)) (gap : Gap es ('\x7d' :: rest)) :
    readFields limit (fuel + 1) before cs =
      .ok (.obj (Fields.ofPairs (before.reverse ++ [(k, v)])), rest) := by
  obtain ⟨cs, es, fs, rfl, letters, colon, gap'⟩ := key
  rw [readFields, readText_of_letters letters]
  simp [bind, Except.bind, colon.skip_eq_of_solid rfl, gap'.skip_eq_of_opens opens, read,
    gap.skip_eq_of_solid rfl]

theorem readFields_more {es fs gs : List Char} (key : Key k cs ds) (opens : Opens ds)
    (read : readValue limit fuel ds = .ok (v, es)) (gap : Gap es (',' :: fs)) (gap' : Gap fs gs)
    (opens' : Opens gs) :
    readFields limit (fuel + 1) before cs = readFields limit fuel ((k, v) :: before) gs := by
  obtain ⟨cs, es, fs, rfl, letters, colon, gap''⟩ := key
  rw [readFields, readText_of_letters letters]
  simp [bind, Except.bind, colon.skip_eq_of_solid rfl, gap''.skip_eq_of_opens opens, read,
    gap.skip_eq_of_solid rfl, gap'.skip_eq_of_opens opens']

theorem readItems_failed {e : ReadError} (failed : readValue limit fuel cs = .error e) :
    readItems limit (fuel + 1) done cs = .error e := by
  rw [readItems, failed]
  rfl

theorem readFields_failed {e : ReadError} (key : Key k cs ds) (opens : Opens ds)
    (failed : readValue limit fuel ds = .error e) :
    readFields limit (fuel + 1) before cs = .error e := by
  obtain ⟨cs, es, fs, rfl, letters, colon, gap⟩ := key
  rw [readFields, readText_of_letters letters]
  simp [bind, Except.bind, colon.skip_eq_of_solid rfl, gap.skip_eq_of_opens opens, failed]

end Steps

-- The induction is on the derivation: each rule of the grammar is one step of the reader, which
-- leaves fuel for what is still in front of it.
mutual

/-- A value is read as it is spelled, with fuel for two calls at each character. -/
theorem Spells.read : ∀ {cs rest : List Char} {v : Json} {fuel : Nat}, Spells cs v rest →
    Stops rest → 2 * cs.length ≤ fuel + 1 →
      readValue DigitLimit.limit (fuel + 1) cs = .ok (v, rest)
  | _, _, _, _, .constant known, _, _ => by
      rw [readValue_atomic (atomic_constant known), readAtom_constant known]
  | _, _, _, _, .whole numeral isWhole fits, stops, _ => by
      rw [readValue_atomic (atomic_numeral numeral), readAtom_numeral numeral stops, ofLiteral,
        if_pos isWhole, if_pos fits]
      rfl
  | _, _, _, _, .binary numeral notWhole, stops, _ => by
      rw [readValue_atomic (atomic_numeral numeral), readAtom_numeral numeral stops, ofLiteral,
        notWhole]
      rfl
  | _, _, _, _, .text letters, _, _ => by
      rw [readValue, readText_of_letters letters]
      simp [bind, Except.bind, pure, Except.pure]
  | _, _, _, _, .noItems gap, _, _ => readValue_noItems gap
  | _, _, _, _, .items gap items, _, enough => by
      obtain ⟨left, rfl, within⟩ := gap.exists_fuel enough
      rw [readValue_items gap items.opens]
      exact items.read within
  | _, _, _, _, .noFields gap, _, _ => readValue_noFields gap
  | _, _, _, _, .fields gap members, _, enough => by
      obtain ⟨left, rfl, within⟩ := gap.exists_fuel enough
      rw [readValue_fields gap members.opens]
      exact members.read within

theorem Items.read : ∀ {cs rest : List Char} {vs done : List Json} {fuel : Nat},
    Items cs vs rest → 2 * cs.length ≤ fuel →
      readItems DigitLimit.limit (fuel + 1) done cs = .ok (.arr (done.reverse ++ vs), rest)
  | _, _, _, _, _, .last item gap, enough => by
      obtain ⟨left, rfl⟩ := item.opens.exists_fuel enough
      exact readItems_last (item.read (gap.stops (by simp)) enough) gap
  | _, _, _, _, _, .more item gap gap' others, enough => by
      obtain ⟨left, rfl⟩ := item.opens.exists_fuel enough
      rw [readItems_more (item.read (gap.stops (by simp)) enough) gap gap' others.opens,
        others.read (gap.enough_behind gap' item.length_le enough)]
      simp

theorem Members.read : ∀ {cs rest : List Char} {pairs before : List (String × Json)} {fuel : Nat},
    Members cs pairs rest → 2 * cs.length ≤ fuel →
      readFields DigitLimit.limit (fuel + 1) before cs =
        .ok (.obj (Fields.ofPairs (before.reverse ++ pairs)), rest)
  | _, _, _, _, _, .last key value gap, enough => by
      obtain ⟨left, rfl⟩ := key.opens.exists_fuel enough
      have read := value.read (gap.stops (by simp)) (key.enough enough)
      exact readFields_last key value.opens read gap
  | _, _, _, _, _, .more key value gap gap' others, enough => by
      obtain ⟨left, rfl⟩ := key.opens.exists_fuel enough
      have read := value.read (gap.stops (by simp)) (key.enough enough)
      rw [readFields_more key value.opens read gap gap' others.opens,
        others.read (gap.enough_behind gap' value.length_le (key.enough enough))]
      simp

end

theorem readValue_tooLong {negative : Bool} (tight : Text.Tight ds) (long : limit < ds.length)
    (stops : Stops rest) :
    readValue limit (fuel + 1) (sign negative ++ (ds ++ rest)) =
      .error (.tooLong ⟨some ds.length⟩) := by
  have isWhole : Literal.isWhole ⟨negative, ds, none, none⟩ = true := rfl
  rw [readValue_atomic (atomic_tight tight), ← List.append_assoc,
    readAtom_numeral (numeral_of_tight tight) stops, ofLiteral, if_pos isWhole,
    if_neg (Nat.not_le.mpr long)]
  rfl

mutual

/-- A text is refused for a number that is too long where the reader comes to it. -/
theorem Overlong.read : ∀ {n : Nat} {cs : List Char} {fuel : Nat}, Overlong n cs →
    2 * cs.length ≤ fuel + 1 →
      readValue DigitLimit.limit (fuel + 1) cs = .error (.tooLong ⟨some n⟩)
  | _, _, _, .number tight long stops, _ => readValue_tooLong tight long stops
  | _, _, _, .items gap items, enough => by
      obtain ⟨left, rfl, within⟩ := gap.exists_fuel enough
      rw [readValue_items gap items.opens]
      exact items.read within
  | _, _, _, .fields gap members, enough => by
      obtain ⟨left, rfl, within⟩ := gap.exists_fuel enough
      rw [readValue_fields gap members.opens]
      exact members.read within

theorem OverlongItems.read : ∀ {n : Nat} {cs : List Char} {done : List Json} {fuel : Nat},
    OverlongItems n cs → 2 * cs.length ≤ fuel →
      readItems DigitLimit.limit (fuel + 1) done cs = .error (.tooLong ⟨some n⟩)
  | _, _, _, _, .here item, enough => by
      obtain ⟨left, rfl⟩ := item.opens.exists_fuel enough
      exact readItems_failed (item.read enough)
  | _, _, _, _, .later item gap gap' others, enough => by
      obtain ⟨left, rfl⟩ := item.opens.exists_fuel enough
      rw [readItems_more (item.read (gap.stops (by simp)) enough) gap gap' others.opens]
      exact others.read (gap.enough_behind gap' item.length_le enough)

theorem OverlongMembers.read : ∀ {n : Nat} {cs : List Char} {before : List (String × Json)}
    {fuel : Nat}, OverlongMembers n cs → 2 * cs.length ≤ fuel →
      readFields DigitLimit.limit (fuel + 1) before cs = .error (.tooLong ⟨some n⟩)
  | _, _, _, _, .here key value, enough => by
      obtain ⟨left, rfl⟩ := key.opens.exists_fuel enough
      exact readFields_failed key value.opens (value.read (key.enough enough))
  | _, _, _, _, .later key value gap gap' others, enough => by
      obtain ⟨left, rfl⟩ := key.opens.exists_fuel enough
      have read := value.read (gap.stops (by simp)) (key.enough enough)
      rw [readFields_more key value.opens read gap gap' others.opens]
      exact others.read (gap.enough_behind gap' value.length_le (key.enough enough))

end

end Completeness

section Soundness

/-- A number that is taken off the front of a text is one of the grammar. -/
theorem spells_of_readDigits (read : readDigits DigitLimit.limit cs = .ok (v, rest)) :
    Spells cs v rest := by
  rcases readDigits_cases DigitLimit.limit cs with flaw | ⟨l, front, rest, rfl, numeral, -, same⟩
  · cases flaw.symm.trans read
  · rw [same, ofLiteral] at read
    split at read
    next isWhole =>
      split at read
      next fits =>
        cases read
        exact .whole numeral isWhole fits
      next => cases read
    next notWhole =>
      cases read
      exact .binary numeral (by simpa using notWhole)

theorem spells_of_readAtom (read : readAtom DigitLimit.limit cs = .ok (v, rest)) :
    Spells cs v rest := by
  rcases readAtom_cases DigitLimit.limit cs with ⟨name, v, rest, known, rfl, same⟩ | same
  · cases same.symm.trans read
    exact .constant known
  · exact spells_of_readDigits (same ▸ read)

mutual

/-- What is read is spelled by the characters that were taken. -/
theorem spells_of_readValue : ∀ (fuel : Nat) {cs rest : List Char} {v : Json},
    readValue DigitLimit.limit fuel cs = .ok (v, rest) → Spells cs v rest
  | 0, _, _, _, read => nomatch read
  | fuel + 1, cs, rest, v, read => by
      unfold readValue at read
      split at read
      next =>
        obtain ⟨⟨s, rest⟩, letters, read⟩ := bind_eq_ok.mp read
        cases read
        exact .text (readText_eq_ok.mp letters)
      next cs =>
        split at read
        next closing =>
          cases read
          exact .noItems (closing ▸ gap_skip cs)
        next =>
          obtain ⟨vs, rfl, items⟩ := items_of_readItems fuel read
          exact .items (gap_skip cs) items
      next cs =>
        split at read
        next closing =>
          cases read
          exact .noFields (closing ▸ gap_skip cs)
        next =>
          obtain ⟨pairs, rfl, members⟩ := members_of_readFields fuel read
          exact .fields (gap_skip cs) members
      next => exact spells_of_readAtom read

theorem items_of_readItems : ∀ (fuel : Nat) {cs rest : List Char} {v : Json} {done : List Json},
    readItems DigitLimit.limit fuel done cs = .ok (v, rest) →
      ∃ vs, v = .arr (done.reverse ++ vs) ∧ Items cs vs rest
  | 0, _, _, _, _, read => nomatch read
  | fuel + 1, cs, rest, v, done, read => by
      unfold readItems at read
      obtain ⟨⟨w, ds⟩, first, read⟩ := bind_eq_ok.mp read
      have item := spells_of_readValue fuel first
      dsimp only at read
      split at read
      next closing =>
        cases read
        exact ⟨[w], by simp, .last item (closing ▸ gap_skip ds)⟩
      next es comma =>
        obtain ⟨vs, rfl, others⟩ := items_of_readItems fuel read
        exact ⟨w :: vs, by simp, .more item (comma ▸ gap_skip ds) (gap_skip es) others⟩
      next => cases read

theorem members_of_readFields : ∀ (fuel : Nat) {cs rest : List Char} {v : Json}
    {before : List (String × Json)},
    readFields DigitLimit.limit fuel before cs = .ok (v, rest) →
      ∃ pairs, v = .obj (Fields.ofPairs (before.reverse ++ pairs)) ∧ Members cs pairs rest
  | 0, _, _, _, _, read => nomatch read
  | fuel + 1, cs, rest, v, before, read => by
      unfold readFields at read
      split at read
      next cs =>
        obtain ⟨⟨k, ds⟩, letters, read⟩ := bind_eq_ok.mp read
        dsimp only at read
        split at read
        next es colon =>
          obtain ⟨⟨w, fs⟩, first, read⟩ := bind_eq_ok.mp read
          have key : Key k ('"' :: cs) (skip es) :=
            ⟨cs, ds, es, rfl, readText_eq_ok.mp letters, colon ▸ gap_skip ds, gap_skip es⟩
          have value := spells_of_readValue fuel first
          dsimp only at read
          split at read
          next closing =>
            cases read
            exact ⟨[(k, w)], by simp, .last key value (closing ▸ gap_skip fs)⟩
          next gs comma =>
            obtain ⟨pairs, rfl, others⟩ := members_of_readFields fuel read
            exact ⟨(k, w) :: pairs, by simp,
              .more key value (comma ▸ gap_skip fs) (gap_skip gs) others⟩
          next => cases read
        next => cases read
      next => cases read

end

variable {e : DigitLimit}

theorem overlong_of_readAtom (failed : readAtom DigitLimit.limit cs = .error (.tooLong e)) :
    ∃ n, e = ⟨some n⟩ ∧ Overlong n cs := by
  rcases readAtom_cases DigitLimit.limit cs with ⟨name, v, rest, -, rfl, same⟩ | same
  · cases same.symm.trans failed
  · rw [same] at failed
    rcases readDigits_cases DigitLimit.limit cs with
      flaw | ⟨l, front, rest, rfl, numeral, stop, same⟩
    · cases flaw.symm.trans failed
    · rw [same, ofLiteral] at failed
      split at failed
      next isWhole =>
        split at failed
        next => cases failed
        next long =>
          cases failed
          obtain ⟨plain, part, isExponent, rfl⟩ := numeral
          obtain ⟨negative, whole, fraction, exponent⟩ := l
          obtain ⟨rfl, rfl⟩ : fraction = none ∧ exponent = none := by
            simpa [Literal.isWhole] using isWhole
          obtain rfl : part = [] := isExponent
          have stops : Stops rest := by
            refine (stop isWhole).resolve_left ?_
            rintro rfl
            exact long (show 1 ≤ DigitLimit.limit by decide)
          refine ⟨whole.length, rfl, ?_⟩
          rw [List.append_assoc, Literal.pointPart, List.append_nil, List.append_nil]
          exact .number plain.whole (Nat.not_le.mp long) stops
      next => cases failed

mutual

theorem overlong_of_readValue : ∀ (fuel : Nat) {cs : List Char} {e : DigitLimit},
    readValue DigitLimit.limit fuel cs = .error (.tooLong e) → ∃ n, e = ⟨some n⟩ ∧ Overlong n cs
  | 0, _, _, failed => nomatch failed
  | fuel + 1, cs, e, failed => by
      unfold readValue at failed
      split at failed
      next =>
        rcases bind_eq_error.mp failed with failed | ⟨_, -, failed⟩
        · exact absurd failed readText_ne_tooLong
        · cases failed
      next cs =>
        split at failed
        next => cases failed
        next =>
          obtain ⟨n, rfl, items⟩ := overlong_of_readItems fuel failed
          exact ⟨n, rfl, .items (gap_skip cs) items⟩
      next cs =>
        split at failed
        next => cases failed
        next =>
          obtain ⟨n, rfl, members⟩ := overlong_of_readFields fuel failed
          exact ⟨n, rfl, .fields (gap_skip cs) members⟩
      next => exact overlong_of_readAtom failed

theorem overlong_of_readItems : ∀ (fuel : Nat) {cs : List Char} {done : List Json} {e : DigitLimit},
    readItems DigitLimit.limit fuel done cs = .error (.tooLong e) →
      ∃ n, e = ⟨some n⟩ ∧ OverlongItems n cs
  | 0, _, _, _, failed => nomatch failed
  | fuel + 1, cs, done, e, failed => by
      unfold readItems at failed
      rcases bind_eq_error.mp failed with failed | ⟨⟨w, ds⟩, first, failed⟩
      · obtain ⟨n, rfl, item⟩ := overlong_of_readValue fuel failed
        exact ⟨n, rfl, .here item⟩
      · have item := spells_of_readValue fuel first
        dsimp only at failed
        split at failed
        next => cases failed
        next es comma =>
          obtain ⟨n, rfl, others⟩ := overlong_of_readItems fuel failed
          exact ⟨n, rfl, .later item (comma ▸ gap_skip ds) (gap_skip es) others⟩
        next => cases failed

theorem overlong_of_readFields : ∀ (fuel : Nat) {cs : List Char} {before : List (String × Json)}
    {e : DigitLimit}, readFields DigitLimit.limit fuel before cs = .error (.tooLong e) →
      ∃ n, e = ⟨some n⟩ ∧ OverlongMembers n cs
  | 0, _, _, _, failed => nomatch failed
  | fuel + 1, cs, before, e, failed => by
      unfold readFields at failed
      split at failed
      next cs =>
        rcases bind_eq_error.mp failed with failed | ⟨⟨k, ds⟩, letters, failed⟩
        · exact absurd failed readText_ne_tooLong
        · dsimp only at failed
          split at failed
          next es colon =>
            have key : Key k ('"' :: cs) (skip es) :=
              ⟨cs, ds, es, rfl, readText_eq_ok.mp letters, colon ▸ gap_skip ds, gap_skip es⟩
            rcases bind_eq_error.mp failed with failed | ⟨⟨w, fs⟩, first, failed⟩
            · obtain ⟨n, rfl, value⟩ := overlong_of_readValue fuel failed
              exact ⟨n, rfl, .here key value⟩
            · have value := spells_of_readValue fuel first
              dsimp only at failed
              split at failed
              next => cases failed
              next gs comma =>
                obtain ⟨n, rfl, others⟩ := overlong_of_readFields fuel failed
                exact ⟨n, rfl, .later key value (comma ▸ gap_skip fs) (gap_skip gs) others⟩
              next => cases failed
          next => cases failed
      next => cases failed

end

end Soundness

section Texts

variable {s : String} {e : DigitLimit}

/-- A text that begins with a value, past a gap, does not begin with a byte order mark. -/
theorem Gap.ne_mark (gap : Gap cs ds) (opens : Opens ds) (rest : List Char) :
    cs ≠ '\ufeff' :: rest := by
  rintro rfl
  cases gap with
  | none =>
      obtain ⟨c, tail, same, opening⟩ := opens
      obtain ⟨rfl, -⟩ := List.cons.inj same
      cases opening
  | blank blank _ => cases blank

theorem read_eq_ok : read s = .ok v ↔ Spelled s.toList v := by
  constructor
  · intro read
    unfold Json.read readChars at read
    split at read
    next => cases read
    next =>
      obtain ⟨⟨v, rest⟩, first, read⟩ := bind_eq_ok.mp read
      dsimp only at read
      split at read
      next none =>
        cases read
        exact ⟨_, rest, gap_skip _, spells_of_readValue _ first, none ▸ gap_skip rest⟩
      next => cases read
  · rintro ⟨ds, es, gap, spells, gap'⟩
    have size := gap.length_le
    have first : readValue DigitLimit.limit (2 * s.toList.length + 2) ds = .ok (v, es) :=
      spells.read (gap'.stops fun _ none => nomatch none) (by omega)
    rw [Json.read, readChars, gap.skip_eq_of_opens spells.opens, first]
    · simp only [bind, Except.bind, gap'.skip_eq]
      rfl
    · exact gap.ne_mark spells.opens

theorem read_eq_tooLong :
    read s = .error (.tooLong e) ↔ ∃ n, e = ⟨some n⟩ ∧ HasOverlong n s.toList := by
  constructor
  · intro failed
    unfold Json.read readChars at failed
    split at failed
    next => cases failed
    next =>
      rcases bind_eq_error.mp failed with failed | ⟨⟨v, rest⟩, -, failed⟩
      · obtain ⟨n, rfl, overlong⟩ := overlong_of_readValue _ failed
        exact ⟨n, rfl, _, gap_skip _, overlong⟩
      · dsimp only at failed
        split at failed
        next => cases failed
        next => cases failed
  · rintro ⟨n, rfl, ds, gap, overlong⟩
    have size := gap.length_le
    have failed : readValue DigitLimit.limit (2 * s.toList.length + 2) ds =
        .error (.tooLong ⟨some n⟩) := overlong.read (by omega)
    rw [Json.read, readChars, gap.skip_eq_of_opens overlong.opens, failed]
    · rfl
    · exact gap.ne_mark overlong.opens

/-- A text spells one value at most. -/
theorem Spelled.unique {w : Json} (one : Spelled cs v) (other : Spelled cs w) : v = w := by
  have same : cs = (String.ofList cs).toList := String.toList_ofList.symm
  rw [same] at one other
  exact Except.ok.inj ((read_eq_ok.mpr one).symm.trans (read_eq_ok.mpr other))

end Texts

end Parley.Json
