import Parley.Proofs.Json.Reading

/-!
# Texts that are read back

What is written of a value, in any layout, spells it, if no key comes twice in any of its objects
and no whole number is too long.  So it is read back as it was.
-/

namespace Parley.Fields

variable {fields done pairs : Fields} {key : String} {v : Json}

/-- A key that is not there comes last. -/
theorem put_of_absent (absent : key ∉ fields.map (·.1)) :
    fields.put key v = fields ++ [(key, v)] := by
  induction fields with
  | nil => rfl
  | cons field rest ih =>
      simp only [List.map_cons, List.mem_cons, not_or] at absent
      have other : (field.1 == key) = false := beq_false_of_ne (Ne.symm absent.1)
      simp [put, other, ih absent.2]

theorem foldl_put (nodup : ((done ++ pairs).map (·.1)).Nodup) :
    pairs.foldl (fun fields pair => fields.put pair.1 pair.2) done = done ++ pairs := by
  induction pairs generalizing done with
  | nil => simp
  | cons pair rest ih =>
      have absent : pair.1 ∉ done.map (·.1) := by
        rw [List.map_append, List.nodup_append] at nodup
        exact fun member => nodup.2.2 _ member _ (List.mem_cons_self ..) rfl
      rw [List.foldl_cons, put_of_absent absent, ih (by simpa using nodup)]
      simp

/-- Pairs of which no key comes twice are the fields that they set. -/
theorem ofPairs_of_nodup (nodup : (pairs.map (·.1)).Nodup) : ofPairs pairs = pairs :=
  (foldl_put (by simpa using nodup)).trans (List.nil_append pairs)

end Parley.Fields

namespace Parley.Json

mutual

/-- Whether no key comes twice in any object of a value. -/
def Keyed : Json → Prop
  | .arr items => KeyedItems items
  | .obj fields => (fields.map (·.1)).Nodup ∧ KeyedFields fields
  | _ => True

/-- Whether no key comes twice in any object of some values. -/
def KeyedItems : List Json → Prop
  | [] => True
  | v :: vs => v.Keyed ∧ KeyedItems vs

/-- Whether no key comes twice in any object under some fields. -/
def KeyedFields : List (String × Json) → Prop
  | [] => True
  | (_, v) :: fields => v.Keyed ∧ KeyedFields fields

end

variable {v : Json} {layout : Layout} {s : String}

theorem text_eq_ok : v.text layout = .ok s ↔
    v.hasLongInteger = false ∧ s = String.ofList (v.write layout 0) := by
  rw [text]
  cases v.hasLongInteger <;> simp [eq_comm]

theorem keyedItems_iff {vs : List Json} : KeyedItems vs ↔ ∀ v ∈ vs, v.Keyed := by
  induction vs with
  | nil => simp [KeyedItems]
  | cons v vs ih => simp [KeyedItems, ih]

theorem keyedFields_iff {fields : Fields} :
    KeyedFields fields ↔ ∀ field ∈ fields, field.2.Keyed := by
  induction fields with
  | nil => simp [KeyedFields]
  | cons field fields ih => simp [KeyedFields, ih]

@[simp] theorem keyed_null : null.Keyed := trivial

@[simp] theorem keyed_bool (b : Bool) : (bool b).Keyed := trivial

@[simp] theorem keyed_int (n : Int) : (int n).Keyed := trivial

@[simp] theorem keyed_float (x : Binary64) : (float x).Keyed := trivial

@[simp] theorem keyed_str (text : String) : (str text).Keyed := trivial

@[simp] theorem keyed_arr {vs : List Json} : (arr vs).Keyed ↔ ∀ v ∈ vs, v.Keyed := keyedItems_iff

@[simp] theorem keyed_obj {fields : Fields} :
    (obj fields).Keyed ↔ (fields.map (·.1)).Nodup ∧ ∀ field ∈ fields, field.2.Keyed :=
  and_congr_right fun _ => keyedFields_iff

theorem anyLongItem_eq (vs : List Json) : anyLongItem vs = vs.any hasLongInteger := by
  induction vs with
  | nil => rfl
  | cons v vs ih => rw [anyLongItem, ih, List.any_cons]

theorem anyLongField_eq (fields : Fields) :
    anyLongField fields = fields.any fun field => field.2.hasLongInteger := by
  induction fields with
  | nil => rfl
  | cons field fields ih => rw [anyLongField, ih, List.any_cons]

theorem anyLongItem_eq_false {vs : List Json} :
    anyLongItem vs = false ↔ ∀ v ∈ vs, v.hasLongInteger = false := by
  simp [anyLongItem_eq]

@[simp] theorem hasLongInteger_null : null.hasLongInteger = false := rfl

@[simp] theorem hasLongInteger_bool (b : Bool) : (bool b).hasLongInteger = false := rfl

@[simp] theorem hasLongInteger_float (x : Binary64) : (float x).hasLongInteger = false := rfl

@[simp] theorem hasLongInteger_str (text : String) : (str text).hasLongInteger = false := rfl

@[simp] theorem hasLongInteger_arr (vs : List Json) :
    (arr vs).hasLongInteger = vs.any hasLongInteger := anyLongItem_eq vs

@[simp] theorem hasLongInteger_obj (fields : Fields) :
    (obj fields).hasLongInteger = fields.any fun field => field.2.hasLongInteger :=
  anyLongField_eq fields

section Parts

variable {level : Nat} {cs rest : List Char}

theorem gap_lineBreak : Gap (lineBreak level ++ cs) cs := by
  refine Gap.none.append (List.forall_mem_cons.mpr ⟨rfl, fun c member => ?_⟩)
  rw [List.eq_of_mem_replicate member]
  rfl

theorem gap_spread (layout : Layout) (level : Nat) :
    Gap ((if layout.spread then lineBreak level else []) ++ cs) cs := by
  split
  · exact gap_lineBreak
  · exact .none

theorem gap_opening : Gap (layout.opening level ++ cs) cs := gap_spread layout (level + 1)

theorem gap_closing : Gap (layout.closing level ++ cs) cs := gap_spread layout level

/-- Between two parts there is a comma and then a gap. -/
theorem between_eq (layout : Layout) (level : Nat) (cs : List Char) :
    ∃ es, layout.between level ++ cs = ',' :: es ∧ Gap es cs := by
  refine ⟨_, rfl, ?_⟩
  show Gap ((if layout.spread then lineBreak (level + 1) else [' ']) ++ cs) cs
  split
  · exact gap_lineBreak
  · exact .blank rfl .none

theorem key_writeText {ascii : Bool} (k : String) :
    Key k (writeText ascii k ++ ':' :: ' ' :: rest) rest :=
  ⟨k.toList.flatMap (writeChar ascii) ++ '"' :: ':' :: ' ' :: rest, ':' :: ' ' :: rest, ' ' :: rest,
    by simp [writeText], letters_written k.toList, .none, .blank rfl .none⟩

end Parts

/-- Whether what is written of a value spells it, wherever it was written. -/
def SpelledOut (v : Json) : Prop :=
  ∀ (layout : Layout) (level : Nat) (rest : List Char), Spells (v.write layout level ++ rest) v rest

section Values

variable {level : Nat} {rest : List Char}

theorem spelledOut_constant (name : List Char) (known : (name, v) ∈ constants)
    (written : ∀ layout level, v.write layout level = name) : v.SpelledOut := by
  intro layout level rest
  rw [written]
  exact .constant known

theorem spelledOut_null : null.SpelledOut :=
  spelledOut_constant ['n', 'u', 'l', 'l'] (by simp [constants]) fun _ _ => rfl

theorem spelledOut_bool (b : Bool) : (bool b).SpelledOut := by
  cases b with
  | true => exact spelledOut_constant ['t', 'r', 'u', 'e'] (by simp [constants]) fun _ _ => rfl
  | false =>
    exact spelledOut_constant ['f', 'a', 'l', 's', 'e'] (by simp [constants]) fun _ _ => rfl

theorem spelledOut_int {n : Int} (short : (int n).hasLongInteger = false) :
    (int n).SpelledOut := by
  intro layout level rest
  have fits : Binary64.digitCount n.natAbs ≤ DigitLimit.limit := by
    simpa [hasLongInteger] using short
  obtain ⟨l, plain, isWhole, value, length, written⟩ := exists_literal_ofInt (n := n)
  rw [write, written, ← value]
  exact .whole plain.numeral isWhole (length ▸ fits)

theorem spelledOut_float (x : Binary64) : (float x).SpelledOut := by
  cases x with
  | nan => exact spelledOut_constant ['N', 'a', 'N'] (by simp [constants]) fun _ _ => rfl
  | infinite negative =>
      cases negative with
      | true =>
          exact spelledOut_constant ['-', 'I', 'n', 'f', 'i', 'n', 'i', 't', 'y']
            (by simp [constants]) fun _ _ => rfl
      | false =>
          exact spelledOut_constant ['I', 'n', 'f', 'i', 'n', 'i', 't', 'y'] (by simp [constants])
            fun _ _ => rfl
  | finite negative exponent fraction =>
      intro layout level rest
      obtain ⟨l, plain, notWhole, value, written⟩ := toList_text negative
      rw [write, written, ← value]
      exact .binary plain.numeral notWhole

theorem spelledOut_str (text : String) : (str text).SpelledOut := by
  intro layout level rest
  have form : (str text).write layout level ++ rest =
      '"' :: (text.toList.flatMap (writeChar layout.ascii) ++ '"' :: rest) := by
    simp [write, writeText]
  rw [form]
  exact .text (letters_written text.toList)

/-- The items of an array are spelled one after the other. -/
theorem items_write {v : Json} {vs : List Json} (each : ∀ w ∈ v :: vs, w.SpelledOut) :
    Items (v.write layout (level + 1) ++
      (writeItems layout level vs ++ (layout.closing level ++ ']' :: rest))) (v :: vs) rest := by
  induction vs generalizing v with
  | nil => exact .last (each v (List.mem_cons_self ..) layout (level + 1) _) gap_closing
  | cons w vs ih =>
      obtain ⟨here, others⟩ := List.forall_mem_cons.mp each
      obtain ⟨es, comma, gap⟩ := between_eq layout level
        (w.write layout (level + 1) ++
          (writeItems layout level vs ++ (layout.closing level ++ ']' :: rest)))
      rw [writeItems, List.append_assoc, List.append_assoc, comma]
      exact .more (here layout (level + 1) _) .none gap (ih others)

/-- An array whose items are spelled is spelled. -/
theorem spelledOut_arr {vs : List Json} (each : ∀ w ∈ vs, w.SpelledOut) :
    (arr vs).SpelledOut := by
  intro layout level rest
  cases vs with
  | nil => exact .noItems .none
  | cons v vs =>
      have form : (arr (v :: vs)).write layout level ++ rest =
          '[' :: (layout.opening level ++ (v.write layout (level + 1) ++
            (writeItems layout level vs ++ (layout.closing level ++ ']' :: rest)))) := by
        simp [write]
      rw [form]
      exact .items gap_opening (items_write each)

/-- The fields of an object are spelled one after the other. -/
theorem members_write {k : String} {v : Json} {fields : Fields} (here : v.SpelledOut)
    (each : ∀ field ∈ fields, field.2.SpelledOut) :
    Members (writeText layout.ascii k ++ ':' :: ' ' :: (v.write layout (level + 1) ++
      (writeFields layout level fields ++ (layout.closing level ++ '\x7d' :: rest))))
      ((k, v) :: fields) rest := by
  induction fields generalizing k v with
  | nil => exact .last (key_writeText k) (here layout (level + 1) _) gap_closing
  | cons field fields ih =>
      obtain ⟨key, w⟩ := field
      obtain ⟨there, each⟩ := List.forall_mem_cons.mp each
      have more := ih (k := key) there each
      obtain ⟨es, comma, gap⟩ := between_eq layout level
        (writeText layout.ascii key ++ ':' :: ' ' :: (w.write layout (level + 1) ++
          (writeFields layout level fields ++ (layout.closing level ++ '\x7d' :: rest))))
      have form : writeFields layout level ((key, w) :: fields) ++
          (layout.closing level ++ '\x7d' :: rest) = ',' :: es := by
        rw [← comma]
        simp [writeFields]
      rw [form]
      exact .more (key_writeText k) (here layout (level + 1) _) .none gap more

/-- An object whose values are spelled is spelled, if no key comes twice. -/
theorem spelledOut_obj {fields : Fields} (nodup : (fields.map (·.1)).Nodup)
    (each : ∀ field ∈ fields, field.2.SpelledOut) : (obj fields).SpelledOut := by
  intro layout level rest
  cases fields with
  | nil => exact .noFields .none
  | cons field fields =>
      obtain ⟨k, v⟩ := field
      obtain ⟨here, each⟩ := List.forall_mem_cons.mp each
      have form : (obj ((k, v) :: fields)).write layout level ++ rest =
          '\x7b' :: (layout.opening level ++ (writeText layout.ascii k ++ ':' :: ' ' ::
            (v.write layout (level + 1) ++
              (writeFields layout level fields ++ (layout.closing level ++ '\x7d' :: rest))))) := by
        simp [write]
      rw [form, ← Fields.ofPairs_of_nodup nodup]
      exact .fields gap_opening (members_write here each)

end Values

mutual

/-- What is written of a value spells it, if no key comes twice and no whole number is too long. -/
theorem spelledOut : ∀ {v : Json}, v.Keyed → v.hasLongInteger = false → v.SpelledOut
  | .null, _, _ => spelledOut_null
  | .bool b, _, _ => spelledOut_bool b
  | .int _, _, short => spelledOut_int short
  | .float x, _, _ => spelledOut_float x
  | .str text, _, _ => spelledOut_str text
  | .arr _, keyed, short => spelledOut_arr (spelledOut_items keyed short)
  | .obj _, keyed, short => spelledOut_obj keyed.1 (spelledOut_fields keyed.2 short)

theorem spelledOut_items : ∀ {vs : List Json}, KeyedItems vs → anyLongItem vs = false →
    ∀ v ∈ vs, v.SpelledOut
  | [], _, _ => fun _ member => nomatch member
  | _ :: _, keyed, short => by
      rw [anyLongItem, Bool.or_eq_false_iff] at short
      exact List.forall_mem_cons.mpr
        ⟨spelledOut keyed.1 short.1, spelledOut_items keyed.2 short.2⟩

theorem spelledOut_fields : ∀ {fields : Fields}, KeyedFields fields →
    anyLongField fields = false → ∀ field ∈ fields, field.2.SpelledOut
  | [], _, _ => fun _ member => nomatch member
  | (_, _) :: _, keyed, short => by
      rw [anyLongField, Bool.or_eq_false_iff] at short
      exact List.forall_mem_cons.mpr
        ⟨spelledOut keyed.1 short.1, spelledOut_fields keyed.2 short.2⟩

end

/-- A text that is written spells the value that it was written of. -/
theorem spelled_text (keyed : v.Keyed) (written : v.text layout = .ok s) : Spelled s.toList v := by
  obtain ⟨short, rfl⟩ := text_eq_ok.mp written
  have spells := spelledOut keyed short layout 0 []
  rw [List.append_nil] at spells
  rw [String.toList_ofList]
  exact ⟨_, [], .none, spells, .none⟩

/-- A text that is written is read back as the value it was written of. -/
theorem read_text (keyed : v.Keyed) (written : v.text layout = .ok s) : read s = .ok v :=
  read_eq_ok.mpr (spelled_text keyed written)

end Parley.Json
