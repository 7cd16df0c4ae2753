import Parley.Proofs.Document.Migrated

/-!
# Spellings of the entry

The entry of a document may be spelled as a bare id, as a reference without a type, as a full
reference, or by a flag on the row that it is.  Migrating a document of the present version resolves
each of them to the same full reference.  The rows may be any values around the one that is meant.
-/

namespace Parley

namespace Fields

variable {fields : Fields} {key : String} {v : Json}

theorem put_put (fields : Fields) (key : String) (v w : Json) :
    (fields.put key v).put key w = fields.put key w := by
  induction fields with
  | nil => simp [put]
  | cons f rest ih =>
      obtain ⟨k, u⟩ := f
      by_cases here : k = key <;> simp [put, here, ih]

theorem get?_erase_self (fields : Fields) (key : String) : (fields.erase key).get? key = none := by
  refine List.lookup_eq_none_iff.mpr fun f there => ?_
  simpa [bne, Bool.beq_comm] using (List.mem_filter.mp there).2

theorem erase_of_absent (absent : fields.get? key = none) : fields.erase key = fields := by
  refine List.filter_eq_self.mpr fun f there => ?_
  have different := List.lookup_eq_none_iff.mp absent f there
  simpa [bne, Bool.beq_comm] using different

theorem erase_put_of_absent (absent : fields.get? key = none) :
    (fields.put key v).erase key = fields := by
  induction fields with
  | nil => simp [put, erase]
  | cons f rest ih =>
      obtain ⟨k, u⟩ := f
      rw [get?_cons] at absent
      by_cases here : key = k
      · simp [here] at absent
      · have absent : Fields.get? rest key = none := by simpa [here] using absent
        have kept : (k, u) :: erase (put key v rest) key = (k, u) :: rest := by rw [ih absent]
        simpa [put, erase, Ne.symm here] using kept

/-- Whether two objects have the same value under each key but one. -/
def AgreeBut (key : String) (fields other : Fields) : Prop :=
  ∀ k, k ≠ key → fields.get? k = other.get? k

theorem agreeBut_put (fields : Fields) (key : String) (v : Json) :
    AgreeBut key (fields.put key v) fields :=
  fun _ different => get?_put_of_ne fields v different

theorem agreeBut_erase (fields : Fields) (key : String) : AgreeBut key (fields.erase key) fields :=
  fun _ different => get?_erase_of_ne fields different

end Fields

/-- The key of the rows that references of a type lead to. -/
def RefType.rowsKey : RefType → String
  | .result => "results"
  | .condition => "conditions"

theorem RefType.rowsKey_ne_initial (type : RefType) : type.rowsKey ≠ "initial" := by
  cases type <;> decide

namespace Migration

open Fields (AgreeBut)

/-- The id of a row. -/
def rowId? : Json → Option String
  | .obj row =>
    match Fields.get? row "id" with
    | some (.str id) => some id
    | _ => none
  | _ => none

/-- Whether a value is a row with the key of the entry. -/
def hasFlag : Json → Bool
  | .obj row => Fields.has row "initial"
  | _ => false

/-- Whether a document is of the present version, has lists of actions and results, and has the key
of the entry on none of its results and conditions. -/
structure Unmarked (d : Fields) : Prop where
  current : detectVersion d = currentVersion
  actions : hasList d "actions" = true
  results : hasList d "results" = true
  plain : ∀ type : RefType, ∀ v ∈ rows d type.rowsKey, hasFlag v = false

/-- Whether a document has a row of a type with an id that is not empty, between other rows.  No
condition has the id of a result. -/
structure Candidate (d : Fields) (type : RefType) (id : String) (before : List Json) (row : Fields)
    (after : List Json) : Prop where
  listed : d.get? type.rowsKey = some (.arr (before ++ .obj row :: after))
  named : row.get? "id" = some (.str id)
  nonempty : id ≠ ""
  alone : type = .result → ∀ v ∈ rows d "conditions", rowId? v ≠ some id

variable {d d' : Fields} {type : RefType} {id key : String} {before after : List Json}
  {row : Fields} {v : Json}

section Agreement

/-- What the key of the entry holds does not matter for the rows of a document. -/
theorem rows_eq (same : AgreeBut "initial" d d') (other : key ≠ "initial") :
    rows d key = rows d' key := by
  rw [rows, rows, same key other]

theorem Unmarked.congr (h : Unmarked d) (same : AgreeBut "initial" d' d) : Unmarked d' where
  current := by
    simpa [detectVersion, Fields.has, same _ (by decide : "creator_data" ≠ "initial"),
      same _ (by decide : "interaction" ≠ "initial"),
      same _ (by decide : "location" ≠ "initial")] using h.current
  actions := by
    rw [hasList, same _ (by decide)]
    exact h.actions
  results := by
    rw [hasList, same _ (by decide)]
    exact h.results
  plain type := by
    rw [rows_eq same type.rowsKey_ne_initial]
    exact h.plain type

theorem Candidate.congr (h : Candidate d type id before row after)
    (same : AgreeBut "initial" d' d) : Candidate d' type id before row after where
  listed := (same _ type.rowsKey_ne_initial).trans h.listed
  named := h.named
  nonempty := h.nonempty
  alone := by
    rw [rows_eq same (by decide)]
    exact h.alone

end Agreement

section Rows

theorem unflag_of_plain (plain : hasFlag v = false) : unflag v = (v, none) := by
  cases v with
  | obj row =>
      have absent : Fields.get? row "initial" = none := by simpa [hasFlag, Fields.has] using plain
      cases named : Fields.get? row "id" with
      | none => simp [unflag, named]
      | some i => cases i <;> simp [unflag, named, take, absent, Fields.erase_of_absent absent]
  | _ => rfl

/-- The row with an entry flag. -/
def mark (row : Fields) : Json := .obj (row.put "initial" (.bool true))

theorem unflag_mark (named : row.get? "id" = some (.str id)) (plain : hasFlag (.obj row) = false) :
    unflag (mark row) = (.obj row, some id) := by
  have absent : row.get? "initial" = none := by simpa [hasFlag, Fields.has] using plain
  have still : (row.put "initial" (.bool true)).get? "id" = some (.str id) := by
    rw [Fields.get?_put_of_ne _ _ (by decide), named]
  simp [mark, unflag, still, take, Fields.get?_put_self, Fields.erase_put_of_absent absent]

theorem hasRow_iff : hasRow d key id = true ↔ ∃ v ∈ rows d key, rowId? v = some id := by
  rw [hasRow, List.any_eq_true]
  refine exists_congr fun v => and_congr_right fun _ => ?_
  cases v with
  | obj row =>
      cases named : Fields.get? row "id" with
      | none => simp [rowId?, named]
      | some i => cases i <;> simp [rowId?, named]
  | _ => simp [rowId?]

end Rows

namespace Unmarked

variable (h : Unmarked d)

include h

theorem unflagRows_eq (type : RefType) : unflagRows d type.rowsKey = d := by
  refine unflagRows_eq_self fun vs found v member => ?_
  have listed : v ∈ rows d type.rowsKey := by
    rw [rows, found]
    exact member
  rw [unflag_of_plain (h.plain type v listed)]

/-- An entry that can be read is put in place, and nothing else is done. -/
theorem migrate_of_entry (read : entry d = .ok v) :
    migrate (.obj d) = .ok (d.put "initial" v, currentVersion) := by
  refine migrate_eq_ok.mpr ⟨d, d, rfl, h.current, ?_, h.actions, h.results, ?_⟩
  · rw [upgrade, h.current]
    rfl
  · have results : unflagRows d "results" = d := h.unflagRows_eq .result
    have conditions : unflagRows d "conditions" = d := h.unflagRows_eq .condition
    exact resolveEntry_eq_ok.mpr ⟨v, read, by rw [results, conditions]⟩

end Unmarked

namespace Candidate

variable (h : Candidate d type id before row after)

include h

theorem rows_eq : Migration.rows d type.rowsKey = before ++ .obj row :: after := by
  rw [Migration.rows, h.listed]

/-- The row tells the type of a reference to its id. -/
theorem rowType?_eq : rowType? d id = some (.str type.word) := by
  have member : .obj row ∈ Migration.rows d type.rowsKey := by simp [h.rows_eq]
  have there : hasRow d type.rowsKey id = true :=
    hasRow_iff.mpr ⟨.obj row, member, by simp [rowId?, h.named]⟩
  cases type with
  | condition => exact if_pos there
  | result =>
      have none : ¬ hasRow d "conditions" id = true := by
        rw [hasRow_iff]
        rintro ⟨v, member, same⟩
        exact h.alone rfl v member same
      rw [rowType?, if_neg none]
      exact if_pos there

/-- An entry with the id of the row is read as a reference to it, if it has the type of the row or
no type. -/
theorem entry_of_named {given : Option Json} (spelled : spelledEntry d = .ok (.str id, given))
    (typed : ∀ t ∈ given, t = .str type.word) :
    entry d = .ok (Ref.mk id type).toJson := by
  have type_eq : (given.filter (!·.isVoid)).or (rowType? d id) = some (.str type.word) := by
    rw [h.rowType?_eq]
    cases given with
    | none => rfl
    | some t =>
        have given : (Json.str type.word).isVoid = false := by cases type <;> decide
        simp [typed t rfl, Option.filter_some, given]
  simp [entry, spelled, type_eq, Ref.toJson]

/-- The entry of a document that names none is the row with the only flag. -/
theorem entry_of_flag (absent : d.get? "initial" = none)
    (only : flagged d "results" ++ flagged d "conditions" = [id]) :
    entry d = .ok (Ref.mk id type).toJson := by
  have spelled : spelledEntry d = .ok (.str id, none) := by
    simp [spelledEntry, absent, only]
  exact h.entry_of_named spelled (by rintro _ ⟨⟩)

end Candidate

/-- A document in which a row between others carries the entry flag. -/
def markRow (d : Fields) (type : RefType) (before : List Json) (row : Fields) (after : List Json) :
    Fields :=
  d.put type.rowsKey (.arr (before ++ mark row :: after))

section Marked

variable {other : RefType}

theorem get?_markRow_of_ne (different : key ≠ type.rowsKey) :
    (markRow d type before row after).get? key = d.get? key :=
  Fields.get?_put_of_ne d _ different

theorem get?_markRow_self : (markRow d type before row after).get? type.rowsKey =
    some (.arr (before ++ mark row :: after)) :=
  Fields.get?_put_self ..

theorem rows_markRow_of_ne (different : other ≠ type) :
    rows (markRow d type before row after) other.rowsKey = rows d other.rowsKey := by
  have keys : other.rowsKey ≠ type.rowsKey := by
    cases other <;> cases type <;> first | decide | exact absurd rfl different
  rw [rows, rows, get?_markRow_of_ne keys]

theorem rows_markRow_self :
    rows (markRow d type before row after) type.rowsKey = before ++ mark row :: after := by
  rw [rows, get?_markRow_self]

theorem Unmarked.unflag_markRow (unmarked : Unmarked d) (different : other ≠ type) :
    ∀ v ∈ rows (markRow d type before row after) other.rowsKey, unflag v = (v, none) := by
  rw [rows_markRow_of_ne different]
  exact fun v member => unflag_of_plain (unmarked.plain other v member)

theorem Candidate.markRow (candidate : Candidate d type id before row after) :
    Candidate (markRow d type before row after) type id before (row.put "initial" (.bool true))
      after where
  listed := get?_markRow_self
  named := by
    rw [Fields.get?_put_of_ne _ _ (by decide)]
    exact candidate.named
  nonempty := candidate.nonempty
  alone := by
    rintro rfl v member
    have different : RefType.condition ≠ .result := by decide
    have kept : rows (markRow d .result before row after) "conditions" = rows d "conditions" :=
      rows_markRow_of_ne different
    exact candidate.alone rfl v (kept ▸ member)

variable (unmarked : Unmarked d) (candidate : Candidate d type id before row after)

include unmarked candidate

/-- Of the rows one has a flag, with its id. -/
theorem map_unflag_markRow : (before ++ mark row :: after).map unflag =
    before.map (·, none) ++ (.obj row, some id) :: after.map (·, none) := by
  have plain : ∀ v ∈ before ++ .obj row :: after, hasFlag v = false :=
    candidate.rows_eq ▸ unmarked.plain type
  have others {vs : List Json} (part : ∀ v ∈ vs, v ∈ before ++ .obj row :: after) :
      vs.map unflag = vs.map (·, none) :=
    List.map_congr_left fun v member => unflag_of_plain (plain v (part v member))
  rw [List.map_append, List.map_cons, unflag_mark candidate.named (plain _ (by simp)),
    others (by simp +contextual), others (by simp +contextual)]

/-- Taking off the flag gives back the rows. -/
theorem unflagRows_markRow_self :
    unflagRows (markRow d type before row after) type.rowsKey = d := by
  have plain : (before ++ mark row :: after).map (fun v => (unflag v).1) =
      before ++ .obj row :: after := by
    have firsts := congrArg (List.map Prod.fst) (map_unflag_markRow unmarked candidate)
    simpa [List.map_map, Function.comp_def] using firsts
  rw [unflagRows, get?_markRow_self]
  dsimp only
  rw [plain, markRow, Fields.put_put, Fields.put_eq_self candidate.listed]

theorem flagged_markRow_self :
    flagged (markRow d type before row after) type.rowsKey = [id] := by
  have seconds := congrArg (List.filterMap (·.2)) (map_unflag_markRow unmarked candidate)
  have none (vs : List Json) : vs.filterMap (fun _ => (none : Option String)) = [] :=
    List.filterMap_eq_nil_iff.mpr fun _ _ => rfl
  rw [List.filterMap_map] at seconds
  rw [flagged, rows_markRow_self]
  simpa [Function.comp_def, none] using seconds

/-- Taking off all flags gives back the document. -/
theorem unflagRows_markRow :
    unflagRows (unflagRows (markRow d type before row after) "results") "conditions" = d := by
  have this := unflagRows_markRow_self unmarked candidate
  cases type with
  | result =>
      calc unflagRows (unflagRows (markRow d .result before row after) "results") "conditions"
          = unflagRows d "conditions" := congrArg (unflagRows · "conditions") this
        _ = d := unmarked.unflagRows_eq .condition
  | condition =>
      have other : unflagRows (markRow d .condition before row after) "results" =
          markRow d .condition before row after := by
        refine unflagRows_eq_self fun vs found v member => ?_
        have listed : v ∈ rows (markRow d .condition before row after) "results" := by
          rwa [rows, found]
        have different : RefType.result ≠ .condition := by decide
        rw [unmarked.unflag_markRow different v listed]
      rw [other]
      exact this

/-- There is one flag. -/
theorem flagged_markRow : flagged (markRow d type before row after) "results" ++
    flagged (markRow d type before row after) "conditions" = [id] := by
  have this := flagged_markRow_self unmarked candidate
  have others (other : RefType) (different : other ≠ type) :
      flagged (markRow d type before row after) other.rowsKey = [] :=
    List.filterMap_eq_nil_iff.mpr fun v member => by
      rw [unmarked.unflag_markRow different v member]
  cases type with
  | result =>
      have none := others .condition (by decide)
      simp only [RefType.rowsKey] at this none
      rw [this, none, List.append_nil]
  | condition =>
      have none := others .result (by decide)
      simp only [RefType.rowsKey] at this none
      rw [this, none, List.nil_append]

/-- A flag comes to the same as a reference. -/
theorem migrate_markRow (absent : d.get? "initial" = none) :
    migrate (.obj (markRow d type before row after)) =
      .ok (d.put "initial" (Ref.mk id type).toJson, currentVersion) := by
  have keys {key : String} (notResults : key ≠ "results") (notConditions : key ≠ "conditions") :
      (markRow d type before row after).get? key = d.get? key := by
    refine get?_markRow_of_ne ?_
    cases type
    · exact notResults
    · exact notConditions
  have current : detectVersion (markRow d type before row after) = currentVersion := by
    simpa [detectVersion, Fields.has, keys (by decide : "creator_data" ≠ "results") (by decide),
      keys (by decide : "interaction" ≠ "results") (by decide),
      keys (by decide : "location" ≠ "results") (by decide)] using unmarked.current
  have actions : hasList (markRow d type before row after) "actions" = true := by
    rw [hasList, keys (by decide) (by decide)]
    exact unmarked.actions
  have results : hasList (markRow d type before row after) "results" = true := by
    cases type with
    | result =>
        have found : (markRow d .result before row after).get? "results" = _ := get?_markRow_self
        rw [hasList, found]
    | condition =>
        rw [hasList, get?_markRow_of_ne (by decide)]
        exact unmarked.results
  have nothing : (markRow d type before row after).get? "initial" = none := by
    rw [keys (by decide) (by decide), absent]
  have read := candidate.markRow.entry_of_flag nothing (flagged_markRow unmarked candidate)
  refine migrate_eq_ok.mpr ⟨_, _, rfl, current, ?_, actions, results,
    resolveEntry_eq_ok.mpr ⟨_, read, ?_⟩⟩
  · rw [upgrade, current]
    rfl
  · rw [unflagRows_markRow unmarked candidate]

end Marked

/-- A document with a reference to its entry is migrated to the one in which the reference is
full. -/
theorem migrate_put (unmarked : Unmarked d) (candidate : Candidate d type id before row after)
    {given : Option Json} (spelled : spelledEntry (d.put "initial" v) = .ok (.str id, given))
    (typed : ∀ t ∈ given, t = .str type.word) :
    migrate (.obj (d.put "initial" v)) =
      .ok (d.put "initial" (Ref.mk id type).toJson, currentVersion) := by
  have same := Fields.agreeBut_put d "initial" v
  have read := (candidate.congr same).entry_of_named spelled typed
  rw [(unmarked.congr same).migrate_of_entry read, Fields.put_put]

end Migration

open Migration in
/-- All spellings of the entry come to the same.  In a document of the present version without entry
flags let there be a result or condition whose id is not empty; no condition has the id of a result.
Migrating gives the document with a full reference to that row, whether the entry is spelled as the
bare id, as an object with the id and with the type of the row or none, or, where nothing is
spelled, by a flag on the row.  All else stays as it is. -/
theorem migrate_spellings {d : Fields} {type : RefType} {id : String} {before after : List Json}
    {row : Fields} (unmarked : Unmarked d) (candidate : Candidate d type id before row after) :
    let reference := (Ref.mk id type).toJson
    let document := d.put "initial" reference
    let bare := d.erase "initial"
    migrate (.obj (d.put "initial" (.str id))) = .ok (document, currentVersion) ∧
      (∀ entry : Fields, entry.get? "id" = some (.str id) →
        entry.get? "type" = none ∨ entry.get? "type" = some (.str type.word) →
        migrate (.obj (d.put "initial" (.obj entry))) = .ok (document, currentVersion)) ∧
      migrate (.obj (markRow bare type before row after)) =
        .ok (bare.put "initial" reference, currentVersion) ∧
      (∀ key, (bare.put "initial" reference).get? key = document.get? key) ∧
      document.get? "initial" = some reference ∧ document.AgreeBut "initial" d := by
  intro reference document bare
  have given : (Json.str id).isVoid = false := by simp [Json.isVoid, candidate.nonempty]
  refine ⟨?_, fun entry named typed => ?_, ?_, fun key => ?_, ?_, ?_⟩
  · have spelled : spelledEntry (d.put "initial" (.str id)) = .ok (.str id, none) := by
      simp [spelledEntry, Fields.get?_put_self, Option.filter_some, given]
    exact migrate_put unmarked candidate spelled (by rintro _ ⟨⟩)
  · have spelled :
        spelledEntry (d.put "initial" (.obj entry)) = .ok (.str id, entry.get? "type") := by
      simp [spelledEntry, Fields.get?_put_self, Option.filter_some, named, given]
    refine migrate_put unmarked candidate spelled fun t there => ?_
    rcases typed with none | word
    · simp [none] at there
    · simpa [word, eq_comm] using there
  · have same := Fields.agreeBut_erase d "initial"
    exact migrate_markRow (unmarked.congr same) (candidate.congr same) (Fields.get?_erase_self ..)
  · by_cases here : key = "initial"
    · rw [here, Fields.get?_put_self, Fields.get?_put_self]
    · rw [Fields.get?_put_of_ne _ _ here, Fields.get?_erase_of_ne _ here,
        Fields.get?_put_of_ne _ _ here]
  · exact Fields.get?_put_self ..
  · exact Fields.agreeBut_put d "initial" reference

open Migration in
/-- A document whose reference names nothing, with rows of several shapes; the row that is meant is
the second condition. -/
theorem migrate_spellings_of_condition :
    let d : Fields := [("initial", .int 5), ("actions", .arr [.null]),
      ("results", .arr [.obj [("id", .str "hello")], .bool true]),
      ("conditions", .arr [.obj [("id", .int 3)],
        .obj [("id", .str "rich"), ("value", .str "coins")], .str "rich"]), ("note", .null)]
    let before : List Json := [.obj [("id", .int 3)]]
    let row : Fields := [("id", .str "rich"), ("value", .str "coins")]
    let after : List Json := [.str "rich"]
    let rest : Fields := [("actions", .arr [.null]),
      ("results", .arr [.obj [("id", .str "hello")], .bool true]),
      ("conditions", .arr [.obj [("id", .int 3)],
        .obj [("id", .str "rich"), ("value", .str "coins")], .str "rich"]), ("note", .null)]
    let reference := Json.obj [("id", .str "rich"), ("type", .str "condition")]
    Unmarked d ∧ Candidate d .condition "rich" before row after ∧
      migrate (.obj (("initial", .str "rich") :: rest)) =
        .ok (("initial", reference) :: rest, currentVersion) ∧
      migrate (.obj (("initial", .obj [("id", .str "rich")]) :: rest)) =
        .ok (("initial", reference) :: rest, currentVersion) ∧
      migrate (.obj (("initial", reference) :: rest)) =
        .ok (("initial", reference) :: rest, currentVersion) ∧
      migrate (.obj [("actions", .arr [.null]),
        ("results", .arr [.obj [("id", .str "hello")], .bool true]),
        ("conditions", .arr [.obj [("id", .int 3)],
          .obj [("id", .str "rich"), ("value", .str "coins"), ("initial", .bool true)],
          .str "rich"]), ("note", .null)]) =
        .ok (rest ++ [("initial", reference)], currentVersion) := by
  intro d before row after rest reference
  have unmarked : Unmarked d := ⟨rfl, rfl, rfl, fun type => by cases type <;> decide⟩
  have candidate : Candidate d .condition "rich" before row after :=
    ⟨rfl, rfl, by decide, fun same => nomatch same⟩
  obtain ⟨bare, object, flag, -⟩ := migrate_spellings unmarked candidate
  exact ⟨unmarked, candidate, bare, object [("id", .str "rich")] rfl (.inl rfl),
    object [("id", .str "rich"), ("type", .str "condition")] rfl (.inr rfl), flag⟩

end Parley
