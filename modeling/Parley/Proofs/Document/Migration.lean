import Parley.Document.Migration
import Parley.Proofs.Record.Stored

/-!
# Migrating the present form

A stored document is in the present form: it is found to be of the current version, no row of it
carries an entry flag and its entry is spelled in full.  Migrating it therefore gives back its
fields, in their order.
-/

namespace Parley

namespace Fields

/-- Putting back the value that is there changes nothing. -/
theorem put_eq_self {fields : Fields} {key : String} {v : Json} (found : fields.get? key = some v) :
    fields.put key v = fields := by
  induction fields with
  | nil => cases found
  | cons f rest ih =>
      obtain ⟨k, w⟩ := f
      rw [get?_cons] at found
      rw [put]
      by_cases here : k = key
      · subst here
        simp only [if_true, Option.some.injEq] at found
        simp [found]
      · have found : Fields.get? rest key = some v := by simpa [Ne.symm here, here] using found
        simp [here, ih found]

variable {key other : String}

theorem get?_erase_of_ne (fields : Fields) (different : other ≠ key) :
    (fields.erase key).get? other = fields.get? other := by
  induction fields with
  | nil => rfl
  | cons f rest ih =>
      rw [get?_cons]
      by_cases here : f.1 = key
      · have gone : erase (f :: rest) key = erase rest key := by simp [erase, here]
        rw [gone, ih, if_neg (here ▸ different)]
      · have kept : erase (f :: rest) key = f :: erase rest key := by simp [erase, here]
        rw [kept, get?_cons, ih]

theorem erase_erase (fields : Fields) (key : String) :
    (fields.erase key).erase key = fields.erase key := by
  simp [erase]

end Fields

namespace Migration

theorem unflag_resultRow (r : ResultRow) : (unflag r.toJson).1 = r.toJson := rfl

theorem unflag_conditionRow (r : ConditionRow) : (unflag r.toJson).1 = r.toJson := rfl

/-- Rows without an entry flag stay as they are. -/
theorem unflagRows_eq_self {fields : Fields} {key : String}
    (unflagged : ∀ vs, fields.get? key = some (.arr vs) → ∀ v ∈ vs, (unflag v).1 = v) :
    unflagRows fields key = fields := by
  rw [unflagRows]
  split
  next vs found =>
    have same : vs.map (fun v => (unflag v).1) = vs := by
      simpa using List.map_congr_left (unflagged vs found)
    rw [same]
    exact Fields.put_eq_self found
  next => rfl

/-- An entry that is spelled in full is read as it is. -/
theorem entry_of_spelled {fields : Fields} {id : String} {type : Json}
    (spelled : fields.get? "initial" = some (.obj [("id", .str id), ("type", type)]))
    (named : id ≠ "") (typed : type.isVoid = false) :
    entry fields = .ok (.obj [("id", .str id), ("type", type)]) := by
  have given : (Json.str id).isVoid = false := by simp [Json.isVoid, named]
  have whole : spelledEntry fields = .ok (.str id, some type) := by
    simp [spelledEntry, spelled, Option.filter_some, given]
  simp [entry, whole, Option.filter_some, typed]

end Migration

namespace Document

variable (d : Document)

theorem get?_actions : d.fields.get? "actions" = some (.arr (d.actions.map ActionRow.toJson)) := by
  rw [fields]
  cases d.interaction <;> rfl

theorem get?_results : d.fields.get? "results" = some (.arr (d.results.map ResultRow.toJson)) := by
  rw [fields]
  cases d.interaction <;> rfl

theorem get?_conditions :
    d.fields.get? "conditions" = some (.arr (d.conditions.map ConditionRow.toJson)) := by
  rw [fields]
  cases d.interaction <;> rfl

theorem get?_initial : d.fields.get? "initial" = some d.initial.toJson := by
  rw [fields]
  cases d.interaction <;> rfl

theorem detectVersion_fields : detectVersion d.fields = currentVersion := by
  rw [fields]
  cases d.interaction <;> rfl

/-- A reference with an id is a full spelling of the entry. -/
theorem entry_fields (named : d.initial.id ≠ "") :
    Migration.entry d.fields = .ok d.initial.toJson := by
  have typed : (Json.str d.initial.type.word).isVoid = false := by
    cases d.initial.type <;> decide
  exact Migration.entry_of_spelled d.get?_initial named typed

theorem unflagRows_results : Migration.unflagRows d.fields "results" = d.fields := by
  apply Migration.unflagRows_eq_self
  rintro _ found v member
  rw [get?_results, Option.some.injEq, Json.arr.injEq] at found
  rw [← found] at member
  obtain ⟨r, -, rfl⟩ := List.mem_map.mp member
  exact Migration.unflag_resultRow r

theorem unflagRows_conditions : Migration.unflagRows d.fields "conditions" = d.fields := by
  apply Migration.unflagRows_eq_self
  rintro _ found v member
  rw [get?_conditions, Option.some.injEq, Json.arr.injEq] at found
  rw [← found] at member
  obtain ⟨r, -, rfl⟩ := List.mem_map.mp member
  exact Migration.unflag_conditionRow r

theorem resolveEntry_fields (named : d.initial.id ≠ "") :
    Migration.resolveEntry d.fields = .ok d.fields := by
  rw [Migration.resolveEntry, bind_eq_ok]
  refine ⟨_, d.entry_fields named, ?_⟩
  rw [unflagRows_results, unflagRows_conditions, Fields.put_eq_self d.get?_initial]
  rfl

theorem hasList_actions : Migration.hasList d.fields "actions" = true := by
  simp [Migration.hasList, get?_actions]

theorem hasList_results : Migration.hasList d.fields "results" = true := by
  simp [Migration.hasList, get?_results]

/-- A stored document whose entry has an id is migrated to itself. -/
theorem migrate_toJson (named : d.initial.id ≠ "") :
    migrate d.toJson = .ok (d.fields, currentVersion) := by
  simp only [migrate, toJson, detectVersion_fields, currentVersion, pure_bind, hasList_actions,
    hasList_results, resolveEntry_fields d named]
  rfl

end Document

end Parley
