import Parley.Proofs.Json.RoundTrip

/-!
# The whole numbers of a text that is read

The limit on the digits of a whole number holds for texts in both directions: a value that is read
has no whole number that is too long to be written.  Where a key comes twice in an object the last
value counts, and it was read like the others.
-/

namespace Parley

namespace Fields

variable {fields : Fields} {key : String} {v : Json} {field : String × Json}

theorem mem_put (member : field ∈ fields.put key v) : field = (key, v) ∨ field ∈ fields := by
  induction fields with
  | nil => exact .inl (List.mem_singleton.mp member)
  | cons first rest ih =>
      rw [put] at member
      split at member
      next => exact (List.mem_cons.mp member).imp_right (List.mem_cons_of_mem _)
      next =>
        rcases List.mem_cons.mp member with rfl | member
        · exact .inr (List.mem_cons_self ..)
        · exact (ih member).imp_right (List.mem_cons_of_mem _)

theorem mem_foldl_put {pairs : List (String × Json)}
    (member : field ∈ pairs.foldl (fun fields pair => fields.put pair.1 pair.2) fields) :
    field ∈ pairs ∨ field ∈ fields := by
  induction pairs generalizing fields with
  | nil => exact .inr member
  | cons pair rest ih =>
      rcases ih member with member | member
      · exact .inl (List.mem_cons_of_mem _ member)
      · exact (mem_put member).imp_left fun same => List.mem_cons.mpr (.inl same)

/-- The fields that pairs set are among the pairs. -/
theorem mem_ofPairs {pairs : List (String × Json)} (member : field ∈ ofPairs pairs) :
    field ∈ pairs :=
  (mem_foldl_put member).resolve_right List.not_mem_nil

end Fields

namespace Json

/-- Whether no whole number in a value is too long to be written. -/
def Short (v : Json) : Prop := v.hasLongInteger = false

instance (v : Json) : Decidable v.Short := inferInstanceAs (Decidable (_ = _))

variable {v : Json} {vs : List Json} {fields : Fields} {cs rest : List Char} {n : Int}

theorem short_int : (int n).Short ↔ Binary64.digitCount n.natAbs ≤ DigitLimit.limit := by
  simp [Short, hasLongInteger]

theorem short_arr : (arr vs).Short ↔ ∀ v ∈ vs, v.Short := by
  simp [Short]

theorem short_obj : (obj fields).Short ↔ ∀ field ∈ fields, field.2.Short := by
  simp [Short]

theorem Short.get? (h : (obj fields).Short) {key : String} (there : fields.get? key = some v) :
    v.Short := by
  obtain ⟨before, after, same, -⟩ := List.lookup_eq_some_iff.mp there
  exact short_obj.mp h (key, v) (by simp [same])

theorem short_toInt {l : Literal} (fits : l.whole.length ≤ DigitLimit.limit) :
    (int l.toInt).Short := by
  have count := Binary64.digitCount_number fits (by decide)
  rw [short_int, Literal.toInt]
  split <;> simpa using count

mutual

/-- Either a whole number in a value has too many digits and the value cannot be shown, or none has
and it can. -/
theorem display_cases : ∀ v : Json, (v.hasLongInteger = true ∧ v.display = .error ⟨none⟩) ∨
    (v.hasLongInteger = false ∧ ∃ s, v.display = .ok s)
  | .null | .bool _ | .float _ | .str _ => by simp [display, hasLongInteger]
  | .int n => by
      by_cases short : Binary64.digitCount n.natAbs ≤ DigitLimit.limit
      · simp [display, hasLongInteger, DigitLimit.write, short]
      · simp [display, hasLongInteger, DigitLimit.write, short, Nat.lt_of_not_le short]
  | .arr items => by
      rw [display, hasLongInteger]
      rcases displayItems_cases items with ⟨long, failed⟩ | ⟨short, texts, shown⟩
      · exact .inl ⟨long, by rw [failed]; rfl⟩
      · exact .inr ⟨short, _, by rw [shown]; rfl⟩
  | .obj fields => by
      rw [display, hasLongInteger]
      rcases displayFields_cases fields with ⟨long, failed⟩ | ⟨short, texts, shown⟩
      · exact .inl ⟨long, by rw [failed]; rfl⟩
      · exact .inr ⟨short, _, by rw [shown]; rfl⟩

theorem displayItems_cases : ∀ vs : List Json,
    (anyLongItem vs = true ∧ displayItems vs = .error ⟨none⟩) ∨
      (anyLongItem vs = false ∧ ∃ texts, displayItems vs = .ok texts)
  | [] => by simp [displayItems, anyLongItem]
  | v :: vs => by
      rw [displayItems, anyLongItem]
      rcases display_cases v with ⟨long, failed⟩ | ⟨short, s, shown⟩
      · exact .inl ⟨by rw [long, Bool.true_or], by rw [failed]; rfl⟩
      · rw [short, shown, Bool.false_or]
        rcases displayItems_cases vs with ⟨long, failed⟩ | ⟨short, texts, shown⟩
        · exact .inl ⟨long, by rw [failed]; rfl⟩
        · exact .inr ⟨short, _, by rw [shown]; rfl⟩

theorem displayFields_cases : ∀ fields : List (String × Json),
    (anyLongField fields = true ∧ displayFields fields = .error ⟨none⟩) ∨
      (anyLongField fields = false ∧ ∃ texts, displayFields fields = .ok texts)
  | [] => by simp [displayFields, anyLongField]
  | (k, v) :: fields => by
      rw [displayFields, anyLongField]
      rcases display_cases v with ⟨long, failed⟩ | ⟨short, s, shown⟩
      · exact .inl ⟨by rw [long, Bool.true_or], by rw [failed]; rfl⟩
      · rw [short, shown, Bool.false_or]
        rcases displayFields_cases fields with ⟨long, failed⟩ | ⟨short, texts, shown⟩
        · exact .inl ⟨long, by rw [failed]; rfl⟩
        · exact .inr ⟨short, _, by rw [shown]; rfl⟩

end

theorem display_eq_error {e : DigitLimit} :
    v.display = .error e ↔ v.hasLongInteger = true ∧ e = ⟨none⟩ := by
  rcases display_cases v with ⟨long, failed⟩ | ⟨short, s, shown⟩
  · simp [long, failed, eq_comm]
  · simp [short, shown]

theorem label_cases (v : Json) : (v.hasLongInteger = true ∧ v.label = .error ⟨none⟩) ∨
    (v.hasLongInteger = false ∧ ∃ s, v.label = .ok s) := by
  cases v with
  | str s => exact .inr ⟨rfl, s, rfl⟩
  | _ => exact display_cases _

mutual

/-- A value that is spelled has no number that is too long to be written. -/
theorem Spells.short : ∀ {cs rest : List Char} {v : Json}, Spells cs v rest → v.Short
  | _, _, v, .constant known => by
      have each : ∀ constant ∈ constants, constant.2.Short := by
        simp only [constants, List.forall_mem_cons]
        exact ⟨rfl, rfl, rfl, rfl, rfl, rfl, List.forall_mem_nil _⟩
      exact each _ known
  | _, _, _, .whole _ _ fits => short_toInt fits
  | _, _, _, .binary _ _ => rfl
  | _, _, _, .text _ => rfl
  | _, _, _, .noItems _ => rfl
  | _, _, _, .items _ items => short_arr.mpr items.short
  | _, _, _, .noFields _ => rfl
  | _, _, _, .fields _ members =>
      short_obj.mpr fun field member => members.short field (Fields.mem_ofPairs member)

theorem Items.short : ∀ {cs rest : List Char} {vs : List Json}, Items cs vs rest →
    ∀ v ∈ vs, v.Short
  | _, _, _, .last item _ => List.forall_mem_singleton.mpr item.short
  | _, _, _, .more item _ _ others => List.forall_mem_cons.mpr ⟨item.short, others.short⟩

theorem Members.short : ∀ {cs rest : List Char} {pairs : List (String × Json)},
    Members cs pairs rest → ∀ pair ∈ pairs, pair.2.Short
  | _, _, _, .last _ value _ => List.forall_mem_singleton.mpr value.short
  | _, _, _, .more _ value _ _ others => List.forall_mem_cons.mpr ⟨value.short, others.short⟩

end

/-- A value that is read from a text has no number that is too long to be written. -/
theorem short_read {text : String} (read : Json.read text = .ok v) : v.Short := by
  obtain ⟨ds, es, -, spells, -⟩ := read_eq_ok.mp read
  exact spells.short

end Json

end Parley
