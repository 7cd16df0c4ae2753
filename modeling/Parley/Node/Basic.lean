import Parley.Node.Executor

/-!
# Nodes

A node has an id, a place on the canvas and the data of its kind.  For each part there is a reader
of its stored form, which gathers faults, and a writer.

The place is usually a point.  A move takes any value on trust, though, so a place may also be a
value that nobody has read yet; reading the stored node again is what finds it out.
-/

namespace Parley

/-- A point of the canvas. -/
structure Position where
  x : Binary64 := .zero
  y : Binary64 := .zero
deriving DecidableEq

namespace Position

/-- The stored form of a point. -/
def toJson (p : Position) : Json := .obj [("x", .float p.x), ("y", .float p.y)]

/-- Reads a point. -/
def read : Json → Checked Position := Checked.record "Position" fun fields =>
  Position.mk <$> Checked.field fields "x" Checked.number .zero
    <*> Checked.field fields "y" Checked.number .zero

end Position

/-- The place of a node: a point, or a value taken on trust. -/
inductive Placement where
  | point (p : Position)
  | unread (v : Json)

namespace Placement

/-- The stored form of a place. -/
def toJson : Placement → Json
  | .point p => p.toJson
  | .unread v => v

/-- Reads a place, which has to be a point. -/
def read (v : Json) : Checked Placement := .point <$> Position.read v

/-- The point of a place. -/
def toPosition : Placement → Checked Position
  | .point p => .ok p
  | .unread v => Position.read v

end Placement

/-- The sides of the ports of an action. -/
structure ActionHandles where
  owner : Side := .left
  result : Side := .right
deriving DecidableEq

namespace ActionHandles

/-- The stored form of the sides. -/
def toJson (h : ActionHandles) : Json :=
  .obj [("owner", h.owner.toJson), ("result", h.result.toJson)]

/-- Reads the sides. -/
def read : Json → Checked ActionHandles := Checked.record "ActionHandles" fun fields =>
  ActionHandles.mk <$> Checked.field fields "owner" Side.read .left
    <*> Checked.field fields "result" Side.read .right

end ActionHandles

/-- The sides of the ports of a result. -/
structure ResultHandles where
  trigger : Side := .left
  actions : Side := .right
deriving DecidableEq

namespace ResultHandles

/-- The stored form of the sides. -/
def toJson (h : ResultHandles) : Json :=
  .obj [("trigger", h.trigger.toJson), ("actions", h.actions.toJson)]

/-- Reads the sides. -/
def read : Json → Checked ResultHandles := Checked.record "ResultHandles" fun fields =>
  ResultHandles.mk <$> Checked.field fields "trigger" Side.read .left
    <*> Checked.field fields "actions" Side.read .right

end ResultHandles

/-- The sides of the ports of a conditional. -/
structure ConditionalHandles where
  trigger : Side := .left
  onTrue : Side := .right
  onFalse : Side := .right
deriving DecidableEq

namespace ConditionalHandles

/-- The stored form of the sides. -/
def toJson (h : ConditionalHandles) : Json :=
  .obj [("trigger", h.trigger.toJson), ("true", h.onTrue.toJson), ("false", h.onFalse.toJson)]

/-- Reads the sides. -/
def read : Json → Checked ConditionalHandles := Checked.record "ConditionalHandles" fun fields =>
  ConditionalHandles.mk <$> Checked.field fields "trigger" Side.read .left
    <*> Checked.field fields "true" Side.read .right
    <*> Checked.field fields "false" Side.read .right

end ConditionalHandles

/-- Whether the dialogue closes after an answer, and after how many milliseconds. -/
structure CloseBehavior where
  enabled : Bool := false
  delay : Nat := 1000
deriving DecidableEq

namespace CloseBehavior

/-- The delay where none is given. -/
def standardDelay : Nat := 1000

/-- The fields of the stored form. -/
def fields (c : CloseBehavior) : Fields :=
  [("enabled", .bool c.enabled), ("delay", .int c.delay)]

/-- The stored form. -/
def toJson (c : CloseBehavior) : Json := .obj c.fields

/-- Reads the stored form. -/
def read : Json → Checked CloseBehavior := Checked.record "CloseBehavior" fun fields =>
  CloseBehavior.mk <$> Checked.field fields "enabled" Checked.flag false
    <*> Checked.field fields "delay" Checked.natural standardDelay

end CloseBehavior

/-- The data of an action. -/
structure ActionData where
  label : String := ""
  handle : ActionHandles := {}
deriving DecidableEq

namespace ActionData

/-- The fields of the stored form. -/
def fields (d : ActionData) : Fields := [("label", .str d.label), ("handle", d.handle.toJson)]

/-- Reads the data of an action. -/
def read : Json → Checked ActionData := Checked.record "ActionData" fun fields =>
  ActionData.mk <$> Checked.field fields "label" Checked.text ""
    <*> Checked.field fields "handle" ActionHandles.read {}

end ActionData

/-- The data of a result: the answer, its side effects and the choices offered next. -/
structure ResultData where
  message : String := ""
  /-- The choice that is shown first. -/
  preferred : Option String := none
  /-- The order of the other choices. -/
  order : List String := []
  close : CloseBehavior := {}
  executors : List Executor := []
  handle : ResultHandles := {}
deriving DecidableEq

namespace ResultData

/-- The fields of the stored form. -/
def fields (d : ResultData) : Fields :=
  [("message", .str d.message), ("preferred", Json.ofText? d.preferred),
    ("order", Json.ofTexts d.order), ("close", d.close.toJson),
    ("executors", .arr (d.executors.map Executor.toJson)), ("handle", d.handle.toJson)]

/-- Reads the data of a result. -/
def read : Json → Checked ResultData := Checked.record "ResultData" fun fields =>
  ResultData.mk <$> Checked.field fields "message" Checked.text ""
    <*> Checked.field fields "preferred" (Checked.optional Checked.text) none
    <*> Checked.field fields "order" (Checked.list Checked.text) []
    <*> Checked.field fields "close" CloseBehavior.read {}
    <*> Checked.field fields "executors" (Checked.list Executor.read) []
    <*> Checked.field fields "handle" ResultHandles.read {}

end ResultData

/-- The data of a conditional: it compares a value with an objective. -/
structure ConditionalData where
  value : String := ""
  condition : Operator := .equal
  objective : Scalar := .text ""
  handle : ConditionalHandles := {}
deriving DecidableEq

namespace ConditionalData

/-- The fields of the stored form. -/
def fields (d : ConditionalData) : Fields :=
  [("value", .str d.value), ("condition", d.condition.toJson),
    ("objective", d.objective.toJson), ("handle", d.handle.toJson)]

/-- Reads the data of a conditional. -/
def read : Json → Checked ConditionalData := Checked.record "ConditionalData" fun fields =>
  ConditionalData.mk <$> Checked.field fields "value" Checked.text ""
    <*> Checked.field fields "condition" Operator.read .equal
    <*> Checked.field fields "objective" Checked.scalar (.text "")
    <*> Checked.field fields "handle" ConditionalHandles.read {}

end ConditionalData

/-- The data of a node, by its kind. -/
inductive Payload where
  /-- An entry has no data; the flags say what an editor may do with it. -/
  | entry (draggable deletable : Bool)
  | action (data : ActionData)
  | result (data : ResultData)
  | conditional (data : ConditionalData)
deriving DecidableEq

namespace Payload

/-- The kind that a payload belongs to. -/
def kind : Payload → Kind
  | .entry _ _ => .entry
  | .action _ => .action
  | .result _ => .result
  | .conditional _ => .conditional

/-- The payload of a new node of a kind. -/
def ofKind : Kind → Payload
  | .entry => .entry false false
  | .action => .action {}
  | .result => .result {}
  | .conditional => .conditional {}

/-- The fields of the stored data. -/
def fields : Payload → Fields
  | .entry _ _ => []
  | .action d => d.fields
  | .result d => d.fields
  | .conditional d => d.fields

/-- The name of the record that stores the data of a kind. -/
def recordName : Kind → String
  | .entry => "EntryData"
  | .action => "ActionData"
  | .result => "ResultData"
  | .conditional => "ConditionalData"

/-- Reads the data of a kind. -/
def read : Kind → Json → Checked Payload
  | .entry, v => Checked.record "EntryData" (fun _ => .ok (.entry false false)) v
  | .action, v => Payload.action <$> ActionData.read v
  | .result, v => Payload.result <$> ResultData.read v
  | .conditional, v => Payload.conditional <$> ConditionalData.read v

/-- Sets the editor flags of an entry; the other payloads have none. -/
def withFlags (draggable deletable : Bool) : Payload → Payload
  | .entry _ _ => .entry draggable deletable
  | payload => payload

end Payload

/-- A node of a dialogue graph. -/
structure Node where
  id : String
  position : Placement := .point {}
  payload : Payload

namespace Node

/-- The kind of a node. -/
def kind (n : Node) : Kind := n.payload.kind

/-- The id of the entry where none is given. -/
def entryId : String := "initial"

/-- The entry of a new graph. -/
def entry : Node := { id := entryId, payload := .ofKind .entry }

/-- Whether a node is an entry. -/
def isEntry (n : Node) : Bool := n.kind == .entry

/-- Whether a node is an action. -/
def isAction (n : Node) : Bool := n.kind == .action

/-- Whether a node is a result. -/
def isResult (n : Node) : Bool := n.kind == .result

/-- Whether a node is a conditional. -/
def isConditional (n : Node) : Bool := n.kind == .conditional

theorem kind_eq_action {n : Node} : n.kind = .action ↔ ∃ d, n.payload = .action d := by
  rw [kind]
  cases n.payload <;> simp [Payload.kind]

theorem kind_eq_result {n : Node} : n.kind = .result ↔ ∃ d, n.payload = .result d := by
  rw [kind]
  cases n.payload <;> simp [Payload.kind]

theorem kind_eq_conditional {n : Node} :
    n.kind = .conditional ↔ ∃ d, n.payload = .conditional d := by
  rw [kind]
  cases n.payload <;> simp [Payload.kind]

/-- The stored form of a node. -/
def toJson (n : Node) : Json :=
  let fields : Fields :=
    [("id", .str n.id), ("position", n.position.toJson), ("type", .str n.kind.word),
      ("data", .obj n.payload.fields)]
  match n.payload with
  | .entry draggable deletable =>
    .obj (fields ++ [("draggable", .bool draggable), ("deletable", .bool deletable)])
  | _ => .obj fields

/-- The name of the record that stores a node of a kind. -/
def recordName : Kind → String
  | .entry => "EntryNode"
  | .action => "ActionNode"
  | .result => "ResultNode"
  | .conditional => "ConditionalNode"

/-- Reads the id of a node of a kind: an entry has one of its own and allows any other. -/
def readId (kind : Kind) (fields : Fields) : Checked String :=
  match kind with
  | .entry => Checked.field fields "id" Checked.text entryId
  | _ => Checked.needed fields "id" Checked.nonemptyText

/-- Reads the fields of a node of a kind. -/
def readFields (kind : Kind) (fields : Fields) : Checked Node :=
  let base := (fun id position payload => ({ id, position, payload } : Node)) <$> readId kind fields
    <*> Checked.field fields "position" Placement.read (.point {})
    <*> Checked.field fields "data" (Payload.read kind) (.ofKind kind)
  match kind with
  | .entry =>
    (fun (n : Node) draggable deletable =>
        { n with payload := n.payload.withFlags draggable deletable }) <$> base
      <*> Checked.field fields "draggable" Checked.flag false
      <*> Checked.field fields "deletable" Checked.flag false
  | _ => base

/-- Reads a node by its kind. -/
def read : Json → Checked Node
  | .obj fields =>
    match Fields.get? fields "type" with
    | none => Checked.fault .noTag
    | some tag =>
      match Kind.ofJson? tag with
      | some kind => (readFields kind fields).under (.name kind.word)
      | none => Checked.fault (.unknownTag (Defect.tagName tag) (Kind.all.map Kind.word))
  | _ => Checked.fault .notTagged

/-- The title under which faults of a node are reported. -/
def title : String := "tagged-union[" ++ ",".intercalate (Kind.all.map recordName) ++ "]"

end Node

end Parley
