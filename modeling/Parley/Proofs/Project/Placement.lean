import Parley.Project.Config
import Parley.Proofs.Record.Stored

/-!
# The place of a character in a configuration

A configuration is read back from its stored form as it was, whatever values it was given: what the
readers put in for a value that is missing or void never takes the place of one that is there.  An
interaction that it adopts comes out of it again for the next document, each number as the kind of
number that it was.
-/

namespace Parley.Config

section Stored

variable {fields : List (String × Yaml)} {key : String} {v : Yaml}

/-- The entries of a map that is written down. -/
def entriesOf (fields : List (String × Yaml)) : List (Yaml × Yaml) :=
  fields.map fun f => (.text f.1, f.2)

theorem get?_entriesOf : Yaml.get? (entriesOf fields) key = fields.lookup key := by
  induction fields with
  | nil => rfl
  | cons field rest ih =>
      obtain ⟨k, v⟩ := field
      by_cases here : k = key
      · simp [Yaml.get?, entriesOf, here]
      · have other : (key == k) = false := beq_false_of_ne (Ne.symm here)
        simpa [Yaml.get?, entriesOf, here, other, List.lookup_cons] using ih

/-- A value that is there is taken, even if it is void. -/
theorem entryOr_entriesOf (there : fields.lookup key = some v) (absent : Yaml) :
    entryOr (entriesOf fields) key absent = v := by
  rw [entryOr, get?_entriesOf, there]
  rfl

/-- A name is read as it is.  An empty one is taken for a missing one, which is empty too. -/
theorem nameUnder_entriesOf {name : String} (there : fields.lookup key = some (.text name)) :
    nameUnder (entriesOf fields) key = .ok name := by
  rw [nameUnder, get?_entriesOf, there]
  by_cases empty : name = ""
  · subst empty
    rfl
  · have full : (Yaml.text name).isVoid = false := by
      simpa [Yaml.isVoid, Yaml.toJson, Json.isVoid] using empty
    simp only [full]
    rfl

/-- A map with entries is not void, so its entries are read. -/
theorem innerEntries_entriesOf {field : String × Yaml} {rest : List (String × Yaml)}
    (there : fields.lookup key = some (made (field :: rest))) :
    innerEntries (entriesOf fields) key = .ok (entriesOf (field :: rest)) := by
  rw [innerEntries, get?_entriesOf, there]
  rfl

theorem read_made : read (made fields) = ofEntries (entriesOf fields) := rfl

theorem placeOf_entriesOf (p : PlaceSettings) :
    placeOf (entriesOf [("x", p.x), ("y", p.y), ("z", p.z), ("rotation", p.rotation),
      ("world", p.world)]) = p := by
  rw [placeOf, entryOr_entriesOf rfl, entryOr_entriesOf rfl, entryOr_entriesOf rfl,
    entryOr_entriesOf rfl, entryOr_entriesOf rfl]

theorem interactionOf_entriesOf (i : InteractionSettings) :
    interactionOf (entriesOf [("enabled", .bool i.enabled), ("location", placeToYaml i.location),
      ("render_distance", i.renderDistance)]) = .ok i := by
  have enabled (b : Bool) : (!(Yaml.bool b).isVoid) = b := by
    cases b <;> rfl
  refine bind_eq_ok.mpr ⟨_, innerEntries_entriesOf rfl, congrArg Except.ok ?_⟩
  rw [placeOf_entriesOf, entryOr_entriesOf rfl, entryOr_entriesOf rfl, enabled]

/-- A configuration is read back from its stored form as it was. -/
theorem read_toYaml (c : Config) : read c.toYaml = .ok c := by
  rw [toYaml, read_made]
  refine bind_eq_ok.mpr ⟨_, nameUnder_entriesOf rfl, bind_eq_ok.mpr ⟨_, nameUnder_entriesOf rfl,
    bind_eq_ok.mpr ⟨_, innerEntries_entriesOf rfl,
      bind_eq_ok.mpr ⟨_, interactionOf_entriesOf c.interaction, congrArg Except.ok ?_⟩⟩⟩⟩
  rw [entryOr_entriesOf rfl]

end Stored

section Adopted

variable {c : Config} {i : Interaction}

theorem toJson_ofQuantity (q : Quantity) : (ofQuantity q).toJson = q.toJson := by
  cases q <;> rfl

/-- The place that was adopted is written as the one of the document. -/
theorem toJson_location :
    (placeToYaml (c.applyInteraction (some i)).interaction.location).toJson =
      i.location.toJson := by
  simp [applyInteraction, placeToYaml, made, Yaml.toJson, Yaml.toFields, Yaml.keyText, Yaml.label,
    toJson_ofQuantity, Location.toJson]

/-- The distance may also stand under its name in a configuration. -/
theorem read_renderDistance : Interaction.read (.obj [("location", i.location.toJson),
    ("render_distance", i.renderDistance.toJson)]) = .ok i := by
  simp [Interaction.read, Checked.record, Checked.field, Checked.keyOf, Fields.has,
    Checked.quantity_toJson, Location.read_toJson]

/-- An interaction that was adopted is the one for documents. -/
theorem documentInteraction_of_some :
    (c.applyInteraction (some i)).documentInteraction = .ok (some i) := by
  have distance : (c.applyInteraction (some i)).interaction.renderDistance.toJson =
      i.renderDistance.toJson := toJson_ofQuantity _
  rw [documentInteraction, toJson_location, distance, Location.read_toJson]
  refine bind_eq_ok.mpr ⟨i.location, rfl, bind_eq_ok.mpr ⟨i, ?_, rfl⟩⟩
  rw [read_renderDistance]
  rfl

end Adopted

/-- A configuration that has adopted the interaction of a document is read back from its stored form
as it was, and it has that interaction for the next document. -/
theorem placement_survives (c : Config) (i : Option Interaction) :
    let applied := c.applyInteraction i
    read applied.toYaml = .ok applied ∧ applied.documentInteraction = .ok i := by
  intro applied
  refine ⟨read_toYaml applied, ?_⟩
  cases i with
  | none => rfl
  | some i => exact documentInteraction_of_some

end Parley.Config
