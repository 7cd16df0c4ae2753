import Parley.Command.Basic
import Parley.Command.Console
import Parley.Graph.Session

/-!
# Commands that edit a graph

An edit command works on a session: it applies edits one after the other, reports events and
answers what is to be said of it.  An edit that is refused ends it with an error that says why; a
failure of another kind ends it without one.
-/

namespace Parley.Command

/-- Why a piece of work ends early. -/
inductive Obstacle where
  /-- Something is to be said about it. -/
  | told (p : Printed)
  /-- Something failed that is not reported. -/
  | failed (e : Failure)

/-- Whether a failure is reported to the author: a refused edit, or a value that does not fit. -/
def isReported : Failure → Bool
  | .graph _ | .invalid _ | .unknownKind _ | .unknownExecutor _ | .notResult _ _ => true
  | .unknownFields _ _ _ | .digits _ | .notText _ | .notJson _ _ | .notDraft _ | .noName _ => true
  | _ => false

/-- The text under which a failure is reported to the author. -/
def explanation : Failure → String
  | .graph e => e.describe
  | e => e.report

/-- A session at work on a command. -/
structure Desk where
  session : Session
  events : List Log.Event := []

/-- A piece of work on a session, which may end early. -/
abbrev Work := ExceptT Obstacle (StateM Desk)

namespace Work

/-- Reports events. -/
def report (events : List Log.Event) : Work Unit :=
  modify fun d => { d with events := d.events ++ events }

/-- Ends with an error. -/
def refuse {α : Type} (text : String) : Work α := throw (.told (errorLine text))

/-- Ends with a failure, which is reported where that is called for. -/
def fail {α : Type} (e : Failure) : Work α :=
  if isReported e then refuse (explanation e) else throw (.failed e)

/-- Goes on with a result, or ends with the failure in its place. -/
def ofExcept {α : Type} : Except Failure α → Work α
  | .ok a => pure a
  | .error e => fail e

/-- Applies an edit. -/
def edit (e : Edit) : Work EditAnswer := do
  let d ← get
  let (session, r) := d.session.edit e
  set { d with session }
  let (answer, events) ← ofExcept r
  report events
  pure answer

/-- The node with an id, which has to be there. -/
def node (id context : String) : Work Node := do
  ofExcept ((← get).session.graph.require id context)

end Work

/-- The field that holds the text of a node of a kind. -/
def textField : Kind → String
  | .action => "label"
  | .result => "message"
  | .conditional => "value"
  | .entry => ""

/-- The port at which connections leave a node of a kind. -/
def sourcePort : Kind → Option Bool → Option Port
  | .entry, _ => some .initialTarget
  | .action, _ => some .actionResult
  | .result, _ => some .resultActions
  | .conditional, branch => branch.map fun b => if b then .conditionTrue else .conditionFalse

/-- The port at which connections reach a node of a kind. -/
def targetPort : Kind → Option Port
  | .entry => none
  | .action => some .actionOwner
  | .result => some .nodeTrigger
  | .conditional => some .nodeTrigger

/-- The parts of a text between commas, without the blanks around them; empty parts are left out. -/
def listed (text : String) : List String :=
  ((Text.parts ',' text).map fun part => String.ofList (Text.trim Text.isBlank part.toList)).filter
    (!·.isEmpty)

/-- The part of the data of a node under a key, where the data have one. -/
def dataPart (n : Node) (key : String) : Except Failure Fields :=
  match n.payload.fields.get? key with
  | some (.obj fields) => .ok fields
  | _ => .error (.noAttribute (Payload.recordName n.kind) key)

/-- The close setting of a node with one of its parts set to a scalar that a text spells. -/
def closeUpdate (n : Node) (part text : String) : Except Failure Fields := do
  let close ← dataPart n "close"
  let scalar ← (Scalar.parse text).mapError .digits
  pure [("close", .obj (Fields.put part scalar.toJson close))]

/-- The port whose side a field names, if it names one. -/
def sideField? (field : String) : Option String :=
  if Text.startsWith "handle." field then some (String.ofList (field.toList.drop "handle.".length))
  else none

/-- The sides of the ports of a node with one of them set. -/
def sideUpdate (n : Node) (port side : String) : Except Failure Fields :=
  (dataPart n "handle").map fun sides => [("handle", .obj (Fields.put port (.str side) sides))]

/-- The fields of the data of a node that a command to set a field asks for. -/
def fieldUpdate (n : Node) (field text : String) : Except Failure Fields :=
  match sideField? field with
  | some port => sideUpdate n port text
  | none =>
    match field with
    | "close" => closeUpdate n "enabled" text
    | "close.enabled" => closeUpdate n "enabled" text
    | "close.delay" => closeUpdate n "delay" text
    | "objective" =>
      ((Scalar.parse text).mapError .digits).map fun scalar => [("objective", scalar.toJson)]
    | "preferred" => .ok [("preferred", if text == "null" then .null else .str text)]
    | "order" => .ok [("order", Json.ofTexts (listed text))]
    | field => .ok [(field, .str text)]

/-- The value of a new executor of a type that a text spells. -/
def executorValue (type : ExecutorType) (text : String) (key : Option String) :
    Except Failure Json :=
  let scalar := (Scalar.parse text).mapError Failure.digits
  match type with
  | .dialogStore => scalar.map fun s => .obj [("key", .str (key.getD "")), ("value", s.toJson)]
  | .setCoins => scalar.map Scalar.toJson
  | .setGems => scalar.map Scalar.toJson
  | .command => .ok (.str text)
  | .openMarket => .ok (.str text)

namespace Work

/-- Adds a node and gives it its text. -/
def addNode (kind : String) (id : Option String) (x y : Binary64) (text : Option String) :
    Work String := do
  let answer ← edit (.createNode (.str kind) (.coordinates [.float x, .float y]) (Json.ofText? id))
  let .node n := answer | pure ""
  if let some text := text then
    let _ ← edit (.updateData n.id [(textField n.kind, .str text)])
  report [⟨Log.Logger.commands, "node_added", .info,
    [("node", .str n.id), ("kind", .str n.kind.word)]⟩]
  pure ("Added " ++ n.kind.word ++ " node [bold]" ++ n.id ++ "[/bold]")

/-- Connects two nodes.  A result keeps a preferred action that it offers. -/
def connect (source target : String) (branch : Option Bool) : Work String := do
  let s ← node source "connect source"
  let t ← node target "connect target"
  match sourcePort s.kind branch, targetPort t.kind with
  | none, _ => refuse "Conditional sources need --true or --false"
  | some _, none => refuse "The entry node cannot be a connection target"
  | some sourcePort, some targetPort =>
    let answer ← edit (.connect source sourcePort.name target targetPort.name)
    if s.isResult then
      let _ ← edit (.syncPreferred source)
    if let .edge e := answer then
      report [⟨Log.Logger.commands, "nodes_connected", .info, [("edge", .str e.id)]⟩]
    pure ("Connected " ++ source ++ "." ++ sourcePort.name ++ " → " ++
      target ++ "." ++ targetPort.name)

/-- Removes the edges with given ids. -/
def removeEdges : List String → Work Unit
  | [] => pure ()
  | id :: ids => do
    let _ ← edit (.disconnect id)
    removeEdges ids

/-- Removes every edge from a node to another. -/
def disconnect (source target : String) : Work String := do
  let edges := ((← get).session.graph.edgesFrom source none).filter (·.target == target)
  if edges.isEmpty then
    throw (.told (.line ("[yellow]No edge from " ++ source ++ " to " ++ target ++ "[/yellow]")))
  removeEdges (edges.map (·.id))
  pure ("Removed " ++ Text.ofNat edges.length ++ " edge(s)")

/-- Deletes a node and the edges at it. -/
def removeNode (id : String) : Work String := do
  let answer ← edit (.deleteNode id)
  let .edges removed := answer | pure ""
  report [⟨Log.Logger.commands, "node_removed", .info,
    [("node", .str id), ("edges", .int removed.length)]⟩]
  pure ("Removed " ++ id ++ " and " ++ Text.ofNat removed.length ++ " edge(s)")

/-- Sets a field of the data of a node. -/
def setField (id field value : String) : Work String := do
  let n ← node id "set"
  let fields ← ofExcept (fieldUpdate n field value)
  let _ ← edit (.updateData id fields)
  pure (id ++ "." ++ field ++ " = " ++ value)

/-- Adds an executor to a result. -/
def addExecutor (result type value : String) (key : Option String) : Work String := do
  match ExecutorType.ofJson? (.str type) with
  | none => fail (.unknownExecutor (.str type))
  | some known =>
    let value ← ofExcept (executorValue known value key)
    let _ ← edit (.addExecutor result (.str type) value)
    pure ("Added " ++ known.word ++ " executor to " ++ result)

end Work

/-- Does what a command asks for, and answers what is said about it. -/
def EditCommand.work : EditCommand → Work String
  | .addNode kind id x y text => Work.addNode kind id x y text
  | .connect source target branch => Work.connect source target branch
  | .disconnect source target => Work.disconnect source target
  | .removeNode id => Work.removeNode id
  | .setField id field value => Work.setField id field value
  | .addExecutor result type value key => Work.addExecutor result type value key

end Parley.Command
