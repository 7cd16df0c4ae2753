import Parley.Node.Basic

/-!
# Dialogue documents

The form in which a game reads a dialogue: flat rows of actions, results and conditions that name
one another by id, and the reference at which the dialogue begins.  Rows keep the place and the
handles of their nodes, so that a document can be turned back into a graph.
-/

namespace Parley

/-- What a reference leads to. -/
inductive RefType where
  | result
  | condition
deriving DecidableEq

namespace RefType

/-- The word under which a type of reference is stored. -/
def word : RefType → String
  | .result => "result"
  | .condition => "condition"

/-- Reads a type of reference. -/
def read : Json → Checked RefType
  | .str "result" => .ok .result
  | .str "condition" => .ok .condition
  | _ => Checked.fault (.unknownReference [RefType.result.word, RefType.condition.word])

end RefType

/-- A reference to a result or condition row. -/
structure Ref where
  id : String
  type : RefType
deriving DecidableEq

namespace Ref

/-- The stored form of a reference. -/
def toJson (r : Ref) : Json := .obj [("id", .str r.id), ("type", .str r.type.word)]

/-- Reads a reference. -/
def read : Json → Checked Ref := Checked.record "Ref" fun fields =>
  Ref.mk <$> Checked.needed fields "id" Checked.text
    <*> Checked.needed fields "type" RefType.read

end Ref

/-- A place in the game world. -/
structure Location where
  x : Quantity := .whole 0
  y : Quantity := .whole 0
  z : Quantity := .whole 0
  rotation : Quantity := .whole 0
  world : String := "world"
deriving DecidableEq

namespace Location

/-- The world where none is given. -/
def standardWorld : String := "world"

/-- The stored form of a place. -/
def toJson (l : Location) : Json :=
  .obj [("x", l.x.toJson), ("y", l.y.toJson), ("z", l.z.toJson),
    ("rotation", l.rotation.toJson), ("world", .str l.world)]

/-- Reads a place. -/
def read : Json → Checked Location := Checked.record "Location" fun fields =>
  Location.mk <$> Checked.field fields "x" Checked.quantity (.whole 0)
    <*> Checked.field fields "y" Checked.quantity (.whole 0)
    <*> Checked.field fields "z" Checked.quantity (.whole 0)
    <*> Checked.field fields "rotation" Checked.quantity (.whole 0)
    <*> Checked.field fields "world" Checked.text standardWorld

end Location

/-- Where the character stands and from how far players can talk to it. -/
structure Interaction where
  location : Location := {}
  renderDistance : Quantity := .whole 15
deriving DecidableEq

namespace Interaction

/-- The distance where none is given. -/
def standardDistance : Nat := 15

/-- The stored form. -/
def toJson (i : Interaction) : Json :=
  .obj [("location", i.location.toJson), ("renderDistance", i.renderDistance.toJson)]

/-- Reads the stored form. -/
def read : Json → Checked Interaction := Checked.record "Interaction" fun fields =>
  Interaction.mk <$> Checked.field fields "location" Location.read {}
    <*> Checked.field fields (Checked.keyOf fields "renderDistance" "render_distance")
      Checked.quantity (.whole standardDistance)

/-- The title under which faults are reported. -/
def title : String := "Interaction"

end Interaction

/-- The row of an action. -/
structure ActionRow where
  id : String
  label : String := ""
  target : Option Ref := none
  position : Position := {}
  handle : ActionHandles := {}
deriving DecidableEq

namespace ActionRow

/-- The stored form of a row. -/
def toJson (r : ActionRow) : Json :=
  .obj [("id", .str r.id), ("label", .str r.label),
    ("target", (r.target.map Ref.toJson).getD .null), ("position", r.position.toJson),
    ("handle", r.handle.toJson)]

/-- Reads a row. -/
def read : Json → Checked ActionRow := Checked.record "ActionRow" fun fields =>
  ActionRow.mk <$> Checked.needed fields "id" Checked.text
    <*> Checked.field fields "label" Checked.text ""
    <*> Checked.field fields "target" (Checked.optional Ref.read) none
    <*> Checked.field fields "position" Position.read {}
    <*> Checked.field fields "handle" ActionHandles.read {}

end ActionRow

/-- The row of a result. -/
structure ResultRow where
  id : String
  message : String := ""
  preferred : Option String := none
  /-- The actions that are offered, in the order in which they are shown. -/
  actions : List String := []
  close : CloseBehavior := {}
  executors : List Executor := []
  position : Position := {}
  handle : ResultHandles := {}
deriving DecidableEq

namespace ResultRow

/-- The stored form of a row. -/
def toJson (r : ResultRow) : Json :=
  .obj [("id", .str r.id), ("message", .str r.message), ("preferred", Json.ofText? r.preferred),
    ("actions", Json.ofTexts r.actions), ("close", r.close.toJson),
    ("executors", .arr (r.executors.map Executor.toJson)), ("position", r.position.toJson),
    ("handle", r.handle.toJson)]

/-- Reads a row. -/
def read : Json → Checked ResultRow := Checked.record "ResultRow" fun fields =>
  ResultRow.mk <$> Checked.needed fields "id" Checked.text
    <*> Checked.field fields "message" Checked.text ""
    <*> Checked.field fields "preferred" (Checked.optional Checked.text) none
    <*> Checked.field fields "actions" (Checked.list Checked.text) []
    <*> Checked.field fields "close" CloseBehavior.read {}
    <*> Checked.field fields "executors" (Checked.list Executor.read) []
    <*> Checked.field fields "position" Position.read {}
    <*> Checked.field fields "handle" ResultHandles.read {}

end ResultRow

/-- The row of a condition. -/
structure ConditionRow where
  id : String
  value : String := ""
  condition : Operator := .equal
  objective : Scalar := .text ""
  onTrue : Ref
  onFalse : Ref
  position : Position := {}
  handle : ConditionalHandles := {}
deriving DecidableEq

namespace ConditionRow

/-- The stored form of a row. -/
def toJson (r : ConditionRow) : Json :=
  .obj [("id", .str r.id), ("value", .str r.value), ("condition", r.condition.toJson),
    ("objective", r.objective.toJson), ("true", r.onTrue.toJson), ("false", r.onFalse.toJson),
    ("position", r.position.toJson), ("handle", r.handle.toJson)]

/-- Reads a row.  The two references may also come under their long keys. -/
def read : Json → Checked ConditionRow := Checked.record "ConditionRow" fun fields =>
  ConditionRow.mk <$> Checked.needed fields "id" Checked.text
    <*> Checked.field fields "value" Checked.text ""
    <*> Checked.field fields "condition" Operator.read .equal
    <*> Checked.field fields "objective" Checked.scalar (.text "")
    <*> Checked.needed fields (Checked.keyOf fields "true" "on_true") Ref.read
    <*> Checked.needed fields (Checked.keyOf fields "false" "on_false") Ref.read
    <*> Checked.field fields "position" Position.read {}
    <*> Checked.field fields "handle" ConditionalHandles.read {}

end ConditionRow

/-- A complete dialogue as the game reads it. -/
structure Document where
  /-- The id of the character. -/
  npc : String := ""
  interaction : Option Interaction := none
  actions : List ActionRow
  results : List ResultRow
  conditions : List ConditionRow := []
  initial : Ref
deriving DecidableEq

namespace Document

/-- The fields of the stored form; the placement of the character is left out where there is
none. -/
def fields (d : Document) : Fields :=
  let interaction := match d.interaction with
    | some i => [("interaction", i.toJson)]
    | none => []
  [("npc", .str d.npc)] ++ interaction ++
    [("actions", .arr (d.actions.map ActionRow.toJson)),
      ("results", .arr (d.results.map ResultRow.toJson)),
      ("conditions", .arr (d.conditions.map ConditionRow.toJson)),
      ("initial", d.initial.toJson)]

/-- The stored form. -/
def toJson (d : Document) : Json := .obj d.fields

/-- The title under which faults are reported. -/
def title : String := "Document"

/-- Reads a document. -/
def read : Json → Checked Document := Checked.record "Document" fun fields =>
  Document.mk <$> Checked.field fields "npc" Checked.text ""
    <*> Checked.field fields "interaction" (Checked.optional Interaction.read) none
    <*> Checked.needed fields "actions" (Checked.list ActionRow.read)
    <*> Checked.needed fields "results" (Checked.list ResultRow.read)
    <*> Checked.field fields "conditions" (Checked.list ConditionRow.read) []
    <*> Checked.needed fields "initial" Ref.read

/-- The type of the row with an id; a condition row comes before a result row. -/
def refType? (d : Document) (id : String) : Option RefType :=
  if d.conditions.any (·.id == id) then some .condition
  else if d.results.any (·.id == id) then some .result
  else none

/-- The ids that a reference may name, each with its type. -/
def refTypes (d : Document) : List (String × RefType) :=
  ((d.results.map (·.id) ++ d.conditions.map (·.id)).eraseDups).filterMap fun id =>
    (d.refType? id).map (id, ·)

end Document

end Parley
