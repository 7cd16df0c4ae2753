import Parley.Proofs.Document.Migration

/-!
# Migrating again

What a document is migrated to is in the present form, whatever version it had and however its
entry was spelled: the fields that tell the version are those of the present one, the entry is
spelled in full, and no row with an id carries a flag any more.  The rows may be any values, and the
fields that no version has stay where they are.  So migrating a second time changes nothing, as long
as the entry has an id that is not empty.
-/

namespace Parley

namespace Migration

variable {fields fields' : Fields} {key other id : String} {v : Json} {vs : List Json}

/-- A flag that was taken off a row is not there any more. -/
theorem unflag_unflag (v : Json) : (unflag (unflag v).1).1 = (unflag v).1 := by
  cases v with
  | obj row =>
      cases named : Fields.get? row "id" with
      | none => simp [unflag, named]
      | some id =>
          cases id with
          | str id =>
              have off : (unflag (.obj row)).1 = .obj (Fields.erase row "initial") := by
                simp [unflag, named, take]
              have still : Fields.get? (Fields.erase row "initial") "id" = some (.str id) := by
                rw [Fields.get?_erase_of_ne row (by decide), named]
              rw [off]
              simp [unflag, still, take, Fields.erase_erase]
          | _ => simp [unflag, named]
  | _ => rfl

theorem get?_unflagRows_of_ne (fields : Fields) (different : other ≠ key) :
    (unflagRows fields key).get? other = fields.get? other := by
  rw [unflagRows]
  split
  next => exact Fields.get?_put_of_ne fields _ different
  next => rfl

theorem get?_unflagRows (fields : Fields) (key : String) :
    (unflagRows fields key).get? key =
      match fields.get? key with
      | some (.arr vs) => some (.arr (vs.map fun v => (unflag v).1))
      | found => found := by
  cases found : fields.get? key with
  | none => simp [unflagRows, found]
  | some v =>
      cases v with
      | arr vs => simp [unflagRows, found, Fields.get?_put_self]
      | _ => simp [unflagRows, found]

/-- The rows from which the flags were taken stay as they are. -/
theorem unflagged_of_unflagRows (there : (unflagRows fields key).get? key = some (.arr vs)) :
    ∀ v ∈ vs, (unflag v).1 = v := by
  rw [get?_unflagRows] at there
  split at there
  next rows _ =>
    cases there
    intro v member
    obtain ⟨row, -, rfl⟩ := List.mem_map.mp member
    exact unflag_unflag row
  next noRows => exact absurd there (noRows vs)

theorem isVoid_of_rowType? {type : Json} (found : rowType? fields id = some type) :
    type.isVoid = false := by
  rw [rowType?] at found
  split at found
  next =>
    cases found
    decide
  next =>
    split at found
    next =>
      cases found
      decide
    next => cases found

/-- The entry is read as a reference with a type. -/
theorem entry_eq_ok (read : entry fields = .ok v) :
    ∃ id type, v = .obj [("id", .str id), ("type", type)] ∧ type.isVoid = false := by
  rw [entry] at read
  split at read
  next => cases read
  next id spelled _ =>
    split at read
    next type typed =>
      cases read
      refine ⟨id, type, rfl, ?_⟩
      rcases Option.or_eq_some_iff.mp typed with given | ⟨-, found⟩
      · simpa using (Option.filter_eq_some_iff.mp given).2
      · exact isVoid_of_rowType? found
    next => cases read
  next => cases read

theorem resolveEntry_eq_ok : resolveEntry fields = .ok fields' ↔ ∃ v, entry fields = .ok v ∧
    (unflagRows (unflagRows fields "results") "conditions").put "initial" v = fields' := by
  rw [resolveEntry, bind_eq_ok]
  simp only [pure, Except.pure, Except.ok.injEq]

/-- The id of the entry of a document whose entry is spelled in full. -/
def entryId? (fields : Fields) : Option String :=
  match fields.get? "initial" with
  | some (.obj entry) =>
    match Fields.get? entry "id" with
    | some (.str id) => some id
    | _ => none
  | _ => none

/-- The fields of the present version that stand for those of a document; its entry may still be
spelled in any way. -/
def upgrade (fields : Fields) : Except MigrationError Fields :=
  match detectVersion fields with
  | 0 => ofEditorGraph fields
  | 1 => ofLocation fields
  | _ => .ok fields

/-- What is upgraded needs lists of actions and results, and its entry is then spelled in full. -/
theorem migrate_obj (fields : Fields) : migrate (.obj fields) = (do
    let upgraded ← upgrade fields
    if !hasList upgraded "actions" then .error (.format (.noRows "actions"))
    if !hasList upgraded "results" then .error (.format (.noRows "results"))
    let spelled ← (resolveEntry upgraded).mapError .format
    pure (spelled, detectVersion fields)) := by
  rw [migrate, upgrade]
  generalize detectVersion fields = version
  rcases version with _ | _ | _
  · rfl
  · rfl
  · rfl

/-- A document is migrated if it can be upgraded to one with lists of actions and results and with
an entry. -/
theorem migrate_eq_ok {version : Nat} : migrate v = .ok (fields', version) ↔
    ∃ fields upgraded, v = .obj fields ∧ detectVersion fields = version ∧
      upgrade fields = .ok upgraded ∧ hasList upgraded "actions" = true ∧
      hasList upgraded "results" = true ∧ resolveEntry upgraded = .ok fields' := by
  constructor
  · intro migrated
    cases v with
    | obj fields =>
        rw [migrate_obj, bind_eq_ok] at migrated
        obtain ⟨upgraded, up, rest⟩ := migrated
        cases actions : hasList upgraded "actions" with
        | false =>
            rw [actions] at rest
            cases rest
        | true =>
            cases results : hasList upgraded "results" with
            | false =>
                rw [actions, results] at rest
                cases rest
            | true =>
                rw [actions, results] at rest
                obtain ⟨spelled, resolved, same⟩ := bind_eq_ok.mp rest
                cases same
                exact ⟨fields, upgraded, rfl, rfl, up, actions, results,
                  mapError_eq_ok.mp resolved⟩
    | _ => cases migrated
  · rintro ⟨fields, upgraded, rfl, rfl, up, actions, results, resolved⟩
    rw [migrate_obj, bind_eq_ok]
    refine ⟨upgraded, up, ?_⟩
    rw [actions, results]
    exact bind_eq_ok.mpr ⟨fields', mapError_eq_ok.mpr resolved, rfl⟩

/-- The nodes and edges that are read of the graph of the editor in a document. -/
def Drawn (fields : Fields) (nodes : List Node) (edges : List Edge) : Prop :=
  ∃ graph, fields.get? "creator_data" = some (.obj graph) ∧ editorGraph graph = .ok (nodes, edges)

/-- The interaction that the bare location of a document stands for, if there is one. -/
def placed? (fields : Fields) : Except MigrationError (Option Interaction) :=
  match fields.get? "location" with
  | none => .ok none
  | some location => do
    let v ← (placement location).mapError .format
    some <$> ((Interaction.read v).titled Interaction.title).mapError .invalid

/-- The fields of the document that nodes and edges are compiled to for the character of an old
one. -/
def compiled? (fields : Fields) (nodes : List Node) (edges : List Edge)
    (interaction : Option Interaction) : Except MigrationError Fields := do
  let outcome ← (compileUnread nodes edges (orElse (fields.get? "npc") (.str ""))
    interaction).mapError .invalid
  match outcome with
  | .empty reason => .error (.format (.emptyGraph reason))
  | .compiled document _ => .ok document.fields

section EditorGraph

variable {graph : Fields} {nodes : List Node} {edges : List Edge}
  {interaction : Option Interaction}

/-- The graph of the editor is read first, then the character is placed, and then the graph is
compiled. -/
theorem ofEditorGraph_of_stored (stored : fields.get? "creator_data" = some (.obj graph)) :
    ofEditorGraph fields =
      editorGraph graph >>= fun drawn => placed? fields >>= compiled? fields drawn.1 drawn.2 := by
  rw [ofEditorGraph, stored, placed?]
  simp only [pure_bind]
  congr 1
  funext drawn
  cases fields.get? "location" with
  | none => rfl
  | some location =>
      dsimp only
      rw [bind_assoc]
      rfl

theorem ofEditorGraph_of_drawn (drawn : Drawn fields nodes edges) :
    ofEditorGraph fields = placed? fields >>= compiled? fields nodes edges := by
  obtain ⟨graph, stored, read⟩ := drawn
  rw [ofEditorGraph_of_stored stored, read]
  rfl

/-- The graph of the editor in a document that does not fail for want of one. -/
theorem exists_stored {r : Except MigrationError Fields} (result : ofEditorGraph fields = r)
    (other : r ≠ .error (.format .noEditorGraph)) :
    ∃ graph, fields.get? "creator_data" = some (.obj graph) := by
  rw [ofEditorGraph] at result
  split at result
  next graph stored => exact ⟨graph, stored⟩
  next => exact absurd result.symm other

/-- What an old graph is compiled to is the stored form of a document. -/
theorem fields_of_compiled? (up : compiled? fields nodes edges interaction = .ok fields') :
    ∃ document : Document, document.fields = fields' := by
  obtain ⟨outcome, -, stored⟩ := bind_eq_ok.mp up
  cases outcome with
  | empty reason => cases stored
  | compiled document warnings => exact ⟨document, Except.ok.inj stored⟩

theorem fields_of_ofEditorGraph (up : ofEditorGraph fields = .ok fields') :
    ∃ document : Document, document.fields = fields' := by
  obtain ⟨graph, stored⟩ := exists_stored up (by simp)
  rw [ofEditorGraph_of_stored stored] at up
  obtain ⟨drawn, -, up⟩ := bind_eq_ok.mp up
  obtain ⟨interaction, -, up⟩ := bind_eq_ok.mp up
  exact fields_of_compiled? up

end EditorGraph

theorem ofLocation_eq_ok (up : ofLocation fields = .ok fields') :
    ∃ v, fields' = (fields.erase "location").put "interaction" v := by
  obtain ⟨v, -, put⟩ := bind_eq_ok.mp up
  exact ⟨v, (Except.ok.inj put).symm⟩

theorem detectVersion_cases (fields : Fields) :
    detectVersion fields = 0 ∨ detectVersion fields = 1 ∨
      detectVersion fields = currentVersion := by
  rw [detectVersion]
  split
  · exact .inl rfl
  · split
    · exact .inr (.inl rfl)
    · exact .inr (.inr rfl)

/-- A document with the graph of the editor is of the first version. -/
theorem detectVersion_of_stored {v : Json} (stored : fields.get? "creator_data" = some v) :
    detectVersion fields = 0 := by
  simp [detectVersion, Fields.has, stored]

/-- Only a document of the first version is refused for anything but a reason of the migration, and
only with what comes of the graph of the editor. -/
theorem migrate_eq_error {r : MigrationError} (other : ∀ reason, r ≠ .format reason) :
    migrate v = .error r ↔
      ∃ fields, v = .obj fields ∧ detectVersion fields = 0 ∧ ofEditorGraph fields = .error r := by
  constructor
  · intro refused
    cases v with
    | obj fields =>
        rw [migrate_obj] at refused
        rcases bind_eq_error.mp refused with refused | ⟨upgraded, -, rest⟩
        · refine ⟨fields, rfl, ?_⟩
          rcases detectVersion_cases fields with first | second | current
          · rw [upgrade, first] at refused
            exact ⟨first, refused⟩
          · rw [upgrade, second] at refused
            rcases bind_eq_error.mp refused with unplaced | ⟨_, -, refused⟩
            · obtain ⟨reason, -, rfl⟩ := mapError_eq_error.mp unplaced
              exact absurd rfl (other reason)
            · cases refused
          · rw [upgrade, current] at refused
            cases refused
        · cases actions : hasList upgraded "actions" <;>
            cases results : hasList upgraded "results" <;>
            rw [actions, results] at rest
          case true.true =>
            rcases bind_eq_error.mp rest with unread | ⟨_, -, rest⟩
            · obtain ⟨reason, -, rfl⟩ := mapError_eq_error.mp unread
              exact absurd rfl (other reason)
            · cases rest
          all_goals
            cases rest
            exact absurd rfl (other _)
    | _ =>
        cases refused
        exact absurd rfl (other _)
  · rintro ⟨fields, rfl, first, refused⟩
    rw [migrate_obj, upgrade, first]
    exact bind_eq_error.mpr (.inl refused)

/-- What a document is upgraded to has the fields that tell the present version. -/
theorem detectVersion_upgrade (up : upgrade fields = .ok fields') :
    detectVersion fields' = currentVersion := by
  rcases detectVersion_cases fields with first | second | current
  · rw [upgrade, first] at up
    obtain ⟨document, rfl⟩ := fields_of_ofEditorGraph up
    exact document.detectVersion_fields
  · rw [upgrade, second] at up
    obtain ⟨v, rfl⟩ := ofLocation_eq_ok up
    have noGraph : fields.has "creator_data" = false := by
      cases there : fields.has "creator_data" with
      | false => rfl
      | true => simp [detectVersion, there] at second
    have still : ((fields.erase "location").put "interaction" v).has "creator_data" = false := by
      rw [Fields.has, Fields.get?_put_of_ne _ _ (by decide),
        Fields.get?_erase_of_ne _ (by decide)]
      exact noGraph
    have placed : ((fields.erase "location").put "interaction" v).has "interaction" = true := by
      rw [Fields.has, Fields.get?_put_self]
      rfl
    simp [detectVersion, still, placed]
  · rw [upgrade, current] at up
    cases up
    exact current

variable (resolved : resolveEntry fields = .ok fields')

include resolved

/-- Only the rows that may have flags and the entry are touched. -/
theorem get?_resolveEntry_of_ne (notResults : other ≠ "results")
    (notConditions : other ≠ "conditions") (notInitial : other ≠ "initial") :
    fields'.get? other = fields.get? other := by
  obtain ⟨v, -, rfl⟩ := resolveEntry_eq_ok.mp resolved
  rw [Fields.get?_put_of_ne _ _ notInitial, get?_unflagRows_of_ne _ notConditions,
    get?_unflagRows_of_ne _ notResults]

theorem get?_results_resolveEntry :
    fields'.get? "results" = (unflagRows fields "results").get? "results" := by
  obtain ⟨v, -, rfl⟩ := resolveEntry_eq_ok.mp resolved
  rw [Fields.get?_put_of_ne _ _ (by decide), get?_unflagRows_of_ne _ (by decide)]

theorem get?_conditions_resolveEntry : fields'.get? "conditions" =
    (unflagRows (unflagRows fields "results") "conditions").get? "conditions" := by
  obtain ⟨v, -, rfl⟩ := resolveEntry_eq_ok.mp resolved
  rw [Fields.get?_put_of_ne _ _ (by decide)]

theorem detectVersion_resolveEntry : detectVersion fields' = detectVersion fields := by
  have same (key : String) (notResults : key ≠ "results") (notConditions : key ≠ "conditions")
      (notInitial : key ≠ "initial") : fields'.has key = fields.has key := by
    rw [Fields.has, get?_resolveEntry_of_ne resolved notResults notConditions notInitial,
      Fields.has]
  rw [detectVersion, same "creator_data" (by decide) (by decide) (by decide),
    same "interaction" (by decide) (by decide) (by decide),
    same "location" (by decide) (by decide) (by decide), detectVersion]

theorem hasList_actions_resolveEntry : hasList fields' "actions" = hasList fields "actions" := by
  rw [hasList, get?_resolveEntry_of_ne resolved (by decide) (by decide) (by decide), hasList]

theorem hasList_results_resolveEntry : hasList fields' "results" = hasList fields "results" := by
  rw [hasList, get?_results_resolveEntry resolved, get?_unflagRows, hasList]
  cases fields.get? "results" with
  | none => rfl
  | some v => cases v <;> rfl

/-- An entry that is spelled in the present form, with an id, is not spelled any better. -/
theorem resolveEntry_resolved (spelled : entryId? fields' = some id) (named : id ≠ "") :
    resolveEntry fields' = .ok fields' := by
  have results : unflagRows fields' "results" = fields' := by
    apply unflagRows_eq_self
    intro vs found
    rw [get?_results_resolveEntry resolved] at found
    exact unflagged_of_unflagRows found
  have conditions : unflagRows fields' "conditions" = fields' := by
    apply unflagRows_eq_self
    intro vs found
    rw [get?_conditions_resolveEntry resolved] at found
    exact unflagged_of_unflagRows found
  obtain ⟨v, read, put⟩ := resolveEntry_eq_ok.mp resolved
  have there : fields'.get? "initial" = some v := by
    rw [← put, Fields.get?_put_self]
  obtain ⟨id', type, rfl, typed⟩ := entry_eq_ok read
  have same : id' = id := by
    simpa [entryId?, there] using spelled
  subst same
  rw [resolveEntry_eq_ok, results, conditions]
  exact ⟨_, entry_of_spelled there named typed, Fields.put_eq_self there⟩

end Migration

open Migration

/-- Migrating a document brings it into the present form, which is migrated to itself, provided
that the entry has an id that is not empty. -/
theorem migrate_migrated {v : Json} {fields : Fields} {version : Nat} {id : String}
    (migrated : migrate v = .ok (fields, version)) (spelled : entryId? fields = some id)
    (named : id ≠ "") :
    detectVersion fields = currentVersion ∧
      migrate (.obj fields) = .ok (fields, currentVersion) := by
  obtain ⟨old, upgraded, -, -, up, actions, results, resolved⟩ := migrate_eq_ok.mp migrated
  have current : detectVersion fields = currentVersion :=
    (detectVersion_resolveEntry resolved).trans (detectVersion_upgrade up)
  refine ⟨current, migrate_eq_ok.mpr ⟨fields, fields, rfl, current, ?_, ?_, ?_, ?_⟩⟩
  · rw [upgrade, current]
    rfl
  · rw [hasList_actions_resolveEntry resolved, actions]
  · rw [hasList_results_resolveEntry resolved, results]
  · exact resolveEntry_resolved resolved spelled named

/-- A document of the second version with rows of several shapes and a field that no version has;
its entry shows in a flag only. -/
theorem migrate_migrated_of_flag :
    let old := Json.obj [("location", .obj [("x", .int 3)]), ("actions", .arr [.null]),
      ("results", .arr [.int 5, .obj [("initial", .bool true)],
        .obj [("id", .str "hello"), ("initial", .bool true), ("mood", .str "calm")]]),
      ("conditions", .bool false), ("note", .arr [])]
    let fields := [("actions", .arr [.null]),
      ("results", .arr [.int 5, .obj [("initial", .bool true)],
        .obj [("id", .str "hello"), ("mood", .str "calm")]]),
      ("conditions", .bool false), ("note", .arr []),
      ("interaction", .obj [
        ("location", .obj [("x", .int 3), ("y", .int 0), ("z", .int 0), ("rotation", .int 0),
          ("world", .str Location.standardWorld)]),
        ("renderDistance", .int Interaction.standardDistance)]),
      ("initial", .obj [("id", .str "hello"), ("type", .str "result")])]
    migrate old = .ok (fields, 1) ∧ entryId? fields = some "hello" ∧ "hello" ≠ "" ∧
      detectVersion fields = currentVersion ∧
      migrate (.obj fields) = .ok (fields, currentVersion) := by
  intro old fields
  have migrated : migrate old = .ok (fields, 1) := rfl
  have spelled : entryId? fields = some "hello" := rfl
  have named : "hello" ≠ "" := by decide
  exact ⟨migrated, spelled, named, migrate_migrated migrated spelled named⟩

end Parley
