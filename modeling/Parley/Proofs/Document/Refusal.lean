import Parley.Proofs.Document.Overlong
import Parley.Proofs.Document.Unfailing
import Parley.Proofs.Document.Upgrade
import Parley.Proofs.Graph.Entered

/-!
# What migrating is refused with

A document that cannot be migrated is refused with a reason of the migration itself, whatever shapes
its parts have, but for two places of the first version: the numbers of its bare location and the id
of its character are read there as the present form has them, and a value that does not fit is
refused with the faults of that reading.  Whether they are reached is settled by what is read
before: the graph of the editor comes first, then the location, and the id only where the graph has
a beginning.
-/

namespace Parley

namespace Checked

variable {α β : Type}

@[simp] theorem map_faults (f : α → β) (l : List Fault) :
    f <$> (faults l : Checked α) = faults l := rfl

@[simp] theorem faults_seq_ok (l : List Fault) (a : α) :
    (faults l <*> ok a : Checked β) = faults l := rfl

@[simp] theorem ok_seq_faults (f : α → β) (l : List Fault) :
    (ok f <*> faults l : Checked β) = faults l := rfl

@[simp] theorem faults_seq_faults (l m : List Fault) :
    (faults l <*> (faults m : Checked α) : Checked β) = faults (l ++ m) := rfl

@[simp] theorem under_faults (step : Step) (l : List Fault) :
    (faults l : Checked α).under step = faults (l.map (Fault.under step)) := rfl

@[simp] theorem faultsUnder_ok (a : α) (key : String) : (ok a).faultsUnder key = [] := rfl

@[simp] theorem faultsUnder_faults (l : List Fault) (key : String) :
    (faults l : Checked α).faultsUnder key = l.map (Fault.under (.name key)) := rfl

@[simp] theorem quantity_int (n : Int) : quantity (.int n) = ok (.whole n) := rfl

end Checked

namespace Migration

open Compile

/-- A coordinate of a bare location. -/
def coordinate (location : Fields) (key : String) : Json :=
  (Fields.get? location key).getD (.int 0)

/-- The keys of the coordinates. -/
def axes : List String := ["x", "y", "z"]

/-- Whether all coordinates of a bare location are numbers or are read as such. -/
def Gauged (location : Fields) : Prop :=
  ∀ key ∈ axes, ∃ q, Checked.quantity (coordinate location key) = .ok q

/-- The faults of a bare location, under the places that its numbers have in the present form. -/
def gridFaults (location : Fields) : List Fault :=
  (axes.flatMap fun key => (Checked.quantity (coordinate location key)).faultsUnder key).map
    (Fault.under (.name "location"))

/-- What a document of the first version is refused with, although it is of that version and the
graph of the editor is read. -/
inductive Slip (fields : Fields) : Invalid → Prop
  /-- A coordinate of its location is no number. -/
  | location {nodes : List Node} {edges : List Edge} {location : Fields}
      (drawn : Drawn fields nodes edges) (located : fields.get? "location" = some (.obj location))
      (odd : ¬ Gauged location) : Slip fields ⟨Interaction.title, gridFaults location⟩
  /-- The id of its character is no text; nothing is wrong with its location, and the dialogue has a
  beginning. -/
  | npc {nodes : List Node} {edges : List Edge}
      (drawn : Drawn fields nodes edges)
      (located : ∀ v, fields.get? "location" = some v →
        ∃ location, v = .obj location ∧ Gauged location)
      (begins : Begins nodes edges)
      (odd : ∀ s, orElse (fields.get? "npc") (.str "") ≠ .str s) :
      Slip fields ⟨Document.title, [⟨.notText, [.name "npc"]⟩]⟩

variable {fields location : Fields} {nodes : List Node} {edges : List Edge} {e : Invalid} {v : Json}

theorem gauged_iff : Gauged location ↔
    (∃ q, Checked.quantity (coordinate location "x") = .ok q) ∧
      (∃ q, Checked.quantity (coordinate location "y") = .ok q) ∧
      ∃ q, Checked.quantity (coordinate location "z") = .ok q := by
  simp [Gauged, axes]

/-- The stored form of the interaction that a bare location stands for. -/
def standing (location : Fields) : Json :=
  .obj [
    ("location", .obj [("x", coordinate location "x"), ("y", coordinate location "y"),
      ("z", coordinate location "z"), ("rotation", .int 0),
      ("world", .str Location.standardWorld)]),
    ("renderDistance", .int Interaction.standardDistance)]

theorem placement_obj (location : Fields) :
    placement (.obj location) = .ok (standing location) := rfl

/-- With numbers for coordinates nothing is wrong. -/
theorem read_gauged (gauged : Gauged location) :
    ∃ i, Interaction.read (standing location) = .ok i := by
  obtain ⟨⟨x, hx⟩, ⟨y, hy⟩, ⟨z, hz⟩⟩ := gauged_iff.mp gauged
  simp [standing, Interaction.read, Location.read, Checked.record, Checked.field, Checked.keyOf,
    Fields.has, hx, hy, hz]

/-- All faults of the coordinates are reported, in their order, and nothing else is wrong. -/
theorem read_odd (odd : ¬ Gauged location) :
    Interaction.read (standing location) = .faults (gridFaults location) := by
  have odd := mt gauged_iff.mpr odd
  cases hx : Checked.quantity (coordinate location "x") <;>
    cases hy : Checked.quantity (coordinate location "y") <;>
    cases hz : Checked.quantity (coordinate location "z")
  case ok.ok.ok => exact absurd ⟨⟨_, hx⟩, ⟨_, hy⟩, ⟨_, hz⟩⟩ odd
  all_goals
    simp [gridFaults, axes, standing, Interaction.read, Location.read, Checked.record,
      Checked.field, Checked.keyOf, Fields.has, hx, hy, hz]

/-- An old node is read as a node. -/
theorem exists_read_of_node {n : Node} {flag : Bool} (made : node v = .ok (n, flag)) :
    ∃ w, Node.read w = .ok n := by
  cases v with
  | obj fields =>
      rw [node] at made
      split at made
      next data _ =>
        dsimp only at made
        split at made
        next read =>
          cases made
          exact ⟨_, Checked.titled_eq_ok.mp read⟩
        next => cases made
      next => cases made
  | _ => cases made

/-- The nodes of an old graph have points. -/
theorem Drawn.placed (drawn : Drawn fields nodes edges) :
    ∀ n ∈ nodes, ∃ p, n.position = .point p := by
  obtain ⟨graph, -, read⟩ := drawn
  obtain ⟨vs, -, read⟩ := bind_eq_ok.mp read
  obtain ⟨marked, nodesRead, read⟩ := bind_eq_ok.mp read
  obtain ⟨_, -, read⟩ := bind_eq_ok.mp read
  obtain ⟨_, -, read⟩ := bind_eq_ok.mp read
  obtain ⟨rfl, rfl⟩ := Prod.mk.inj (Except.ok.inj read)
  intro n member
  rcases List.mem_cons.mp member with rfl | member
  · exact ⟨{}, rfl⟩
  · obtain ⟨⟨m, flag⟩, there, rfl⟩ := List.mem_map.mp member
    obtain ⟨_, -, made⟩ := exists_of_mem_mapM nodesRead _ there
    obtain ⟨w, read⟩ := exists_read_of_node made
    exact (Node.sound_of_read read).1

/-- Of nodes with points and an id of the character that is any value, only the id may be refused,
and it is where the dialogue has a beginning. -/
theorem compileUnread_eq_error (placed : ∀ n ∈ nodes, ∃ p, n.position = .point p)
    {interaction : Option Interaction} : compileUnread nodes edges v interaction = .error e ↔
      Begins nodes edges ∧ (∀ s, v ≠ .str s) ∧
        e = ⟨Document.title, [⟨.notText, [.name "npc"]⟩]⟩ := by
  rw [← exists_compiled_iff "" interaction, compileUnread]
  cases outcome : compile nodes edges "" interaction with
  | empty reason => simp
  | compiled d ws =>
      dsimp only
      rw [misplaced?_eq_none placed]
      cases v <;> simp [Checked.text, Checked.titled, Checked.under, Except.map, Checked.fault,
        Fault.here, Fault.under, eq_comm]

theorem placed?_gauged (located : fields.get? "location" = some (.obj location))
    (gauged : Gauged location) : ∃ i, placed? fields = .ok (some i) := by
  obtain ⟨i, read⟩ := read_gauged gauged
  refine ⟨i, ?_⟩
  simp only [placed?, located, placement_obj, Except.mapError, bind, Except.bind, read]
  rfl

theorem placed?_odd (located : fields.get? "location" = some (.obj location))
    (odd : ¬ Gauged location) :
    placed? fields = .error (.invalid ⟨Interaction.title, gridFaults location⟩) := by
  simp only [placed?, located, placement_obj, Except.mapError, bind, Except.bind, read_odd odd]
  rfl

theorem compiled?_eq_invalid (placed : ∀ n ∈ nodes, ∃ p, n.position = .point p)
    {interaction : Option Interaction} :
    compiled? fields nodes edges interaction = .error (.invalid e) ↔ Begins nodes edges ∧
      (∀ s, orElse (fields.get? "npc") (.str "") ≠ .str s) ∧
      e = ⟨Document.title, [⟨.notText, [.name "npc"]⟩]⟩ := by
  rw [← compileUnread_eq_error placed, compiled?]
  constructor
  · intro refused
    rcases bind_eq_error.mp refused with unread | ⟨outcome, -, other⟩
    · obtain ⟨_, unread, same⟩ := mapError_eq_error.mp unread
      cases same
      exact unread
    · cases outcome <;> cases other
  · intro unread
    exact bind_eq_error.mpr (.inl (mapError_eq_error.mpr ⟨_, unread, rfl⟩))

theorem node_ne_invalid (v : Json) (e : Invalid) : node v ≠ .error (.invalid e) := by
  have reported : shapeless v ≠ .invalid e := by
    rw [shapeless]
    split <;> simp
  intro refused
  cases v with
  | obj fields =>
      rw [node] at refused
      split at refused
      next =>
        dsimp only at refused
        split at refused <;> cases refused
      next => exact reported (Except.error.inj refused)
  | _ => exact reported (Except.error.inj refused)

theorem edge_ne_invalid (v : Json) (e : Invalid) : edge v ≠ .error (.invalid e) := by
  intro refused
  cases v with
  | obj fields =>
      rw [edge] at refused
      rcases bind_eq_error.mp refused with unread | ⟨_, -, refused⟩
      · obtain ⟨_, -, other⟩ := mapError_eq_error.mp unread
        cases other
      rcases bind_eq_error.mp refused with unshown | ⟨_, -, refused⟩
      · obtain ⟨_, -, other⟩ := mapError_eq_error.mp unshown
        cases other
      · split at refused <;> cases refused
  | _ => cases refused

/-- The faults of an old node or edge are a reason of the migration. -/
theorem editorGraph_ne_invalid (graph : Fields) (e : Invalid) :
    editorGraph graph ≠ .error (.invalid e) := by
  intro refused
  rcases bind_eq_error.mp refused with unlisted | ⟨_, -, refused⟩
  · obtain ⟨_, -, other⟩ := mapError_eq_error.mp unlisted
    cases other
  rcases bind_eq_error.mp refused with unread | ⟨_, -, refused⟩
  · obtain ⟨_, v, _, -, -, refused⟩ := mapM_eq_error.mp unread
    exact node_ne_invalid v e refused
  rcases bind_eq_error.mp refused with unlisted | ⟨_, -, refused⟩
  · obtain ⟨_, -, other⟩ := mapError_eq_error.mp unlisted
    cases other
  rcases bind_eq_error.mp refused with unread | ⟨_, -, refused⟩
  · obtain ⟨_, v, _, -, -, refused⟩ := mapM_eq_error.mp unread
    exact edge_ne_invalid v e refused
  · cases refused

/-- Nothing is refused with faults of a reading before the graph of the editor is read. -/
theorem drawn_of_ofEditorGraph_eq_invalid (refused : ofEditorGraph fields = .error (.invalid e)) :
    ∃ nodes edges, Drawn fields nodes edges := by
  obtain ⟨graph, stored⟩ := exists_stored refused (by simp)
  rw [ofEditorGraph_of_stored stored] at refused
  rcases bind_eq_error.mp refused with unread | ⟨⟨nodes, edges⟩, read, -⟩
  · exact absurd unread (editorGraph_ne_invalid graph e)
  · exact ⟨nodes, edges, graph, stored, read⟩

/-- A document of the first version is refused with the faults of a reading at its location and at
the id of its character, and nowhere else. -/
theorem ofEditorGraph_eq_invalid : ofEditorGraph fields = .error (.invalid e) ↔ Slip fields e := by
  constructor
  · intro refused
    obtain ⟨nodes, edges, drawn⟩ := drawn_of_ofEditorGraph_eq_invalid refused
    rw [ofEditorGraph_of_drawn drawn] at refused
    have atCharacter {interaction : Option Interaction}
        (located : ∀ v, fields.get? "location" = some v →
          ∃ location, v = .obj location ∧ Gauged location)
        (refused : compiled? fields nodes edges interaction = .error (.invalid e)) :
        Slip fields e := by
      obtain ⟨begins, odd, rfl⟩ := (compiled?_eq_invalid drawn.placed).mp refused
      exact .npc drawn located begins odd
    cases located : fields.get? "location" with
    | none =>
        have placed : placed? fields = .ok none := by rw [placed?, located]
        rw [placed] at refused
        exact atCharacter (by simp [located]) refused
    | some v =>
        cases v with
        | obj location =>
            by_cases gauged : Gauged location
            · obtain ⟨i, placed⟩ := placed?_gauged located gauged
              rw [placed] at refused
              exact atCharacter (by simpa [located] using gauged) refused
            · rw [placed?_odd located gauged] at refused
              cases refused
              exact .location drawn located gauged
        | _ =>
            rw [placed?, located] at refused
            cases refused
  · intro slip
    cases slip with
    | location drawn located odd =>
        rw [ofEditorGraph_of_drawn drawn, placed?_odd located odd]
        rfl
    | npc drawn located begins odd =>
        have placed : ∃ i, placed? fields = .ok i := by
          cases there : fields.get? "location" with
          | none => exact ⟨none, by rw [placed?, there]⟩
          | some v =>
              obtain ⟨location, rfl, gauged⟩ := located v there
              obtain ⟨i, placed⟩ := placed?_gauged there gauged
              exact ⟨_, placed⟩
        obtain ⟨i, placed⟩ := placed
        rw [ofEditorGraph_of_drawn drawn, placed]
        exact (compiled?_eq_invalid drawn.placed).mpr ⟨begins, odd, rfl⟩

/-- Only a document of the first version slips. -/
theorem Slip.detectVersion (slip : Slip fields e) : detectVersion fields = 0 := by
  cases slip with
  | location drawn _ _ =>
      obtain ⟨_, stored, -⟩ := drawn
      exact detectVersion_of_stored stored
  | npc drawn _ _ _ =>
      obtain ⟨_, stored, -⟩ := drawn
      exact detectVersion_of_stored stored

theorem migrate_eq_invalid : migrate v = .error (.invalid e) ↔
    ∃ fields, v = .obj fields ∧ Slip fields e := by
  simp only [migrate_eq_error (r := .invalid e) (by simp), ofEditorGraph_eq_invalid]
  constructor
  · rintro ⟨fields, rfl, -, slip⟩
    exact ⟨fields, rfl, slip⟩
  · rintro ⟨fields, rfl, slip⟩
    exact ⟨fields, rfl, slip.detectVersion, slip⟩

end Migration

open Migration

/-- Whatever a value is, it is migrated to a document in the present form, from one of three
versions, or it is refused with a reason of the migration, or it is refused with the faults of a
reading, or a whole number in it has too many digits to be shown.  The last two happen exactly where
a document of the first version slips through and where it is overlong. -/
theorem migrate_outcome (v : Json) :
    ((∃ fields, ∃ version ∈ [0, 1, 2], migrate v = .ok (fields, version) ∧
        detectVersion fields = currentVersion) ∨
      (∃ e, migrate v = .error (.format e)) ∨ (∃ e, migrate v = .error (.invalid e)) ∨
      ∃ e, migrate v = .error (.digits e)) ∧
    (∀ e, migrate v = .error (.invalid e) ↔ ∃ fields, v = .obj fields ∧ Slip fields e) ∧
    ∀ e, migrate v = .error (.digits e) ↔ Overlong v ∧ e = ⟨none⟩ := by
  refine ⟨?_, fun e => migrate_eq_invalid, fun e => migrate_eq_digits⟩
  cases migrated : migrate v with
  | ok answer =>
      obtain ⟨fields, version⟩ := answer
      obtain ⟨old, upgraded, -, rfl, up, -, -, resolved⟩ := migrate_eq_ok.mp migrated
      refine .inl ⟨fields, detectVersion old, ?_, rfl, ?_⟩
      · rcases detectVersion_cases old with version | version | version <;>
          simp [version, currentVersion]
      · exact (detectVersion_resolveEntry resolved).trans (detectVersion_upgrade up)
  | error reason =>
      cases reason with
      | format e => exact .inr (.inl ⟨e, rfl⟩)
      | invalid e => exact .inr (.inr (.inl ⟨e, rfl⟩))
      | digits e => exact .inr (.inr (.inr ⟨e, rfl⟩))

/-- A coordinate that is a word, in a document whose editor graph is empty, is no reason of the
migration. -/
theorem migrate_odd_location :
    let v := Json.obj [("creator_data", .obj [("nodes", .arr []), ("edges", .arr [])]),
      ("location", .obj [("x", .str "east")])]
    ¬ ((∃ fields, ∃ version ∈ [0, 1, 2], migrate v = .ok (fields, version)) ∨
      ∃ e, migrate v = .error (.format e)) := by
  intro v
  have refused : migrate v = .error (.invalid ⟨Interaction.title,
      [⟨.unreadableInteger, [.name "location", .name "x", .name "int"]⟩,
        ⟨.unreadableNumber, [.name "location", .name "x", .name "float"]⟩]⟩) := rfl
  rw [refused]
  rintro (⟨_, _, -, migrated⟩ | ⟨_, other⟩)
  · cases migrated
  · cases other

end Parley
