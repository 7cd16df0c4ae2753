import Parley.Graph.Basic
import Parley.Node.Create

/-!
# Editing a graph

The edits of a dialogue graph and the rules that they keep: ids are distinct, the entry stays what
it is and where it is, deleting a node deletes its edges, and an edge joins two existing nodes on
ports that match.

`Graph.edit` applies an edit.  Besides its answer it tells the graph after it, whether the edit is
reported as a change, and the supply of ids after its draws.
-/

namespace Parley

/-- An edit of a graph. -/
inductive Edit where
  /-- Adds a node that was made elsewhere. -/
  | addNode (node : Node)
  /-- Makes a node of the kind that a value names and adds it. -/
  | createNode (kind : Json) (place : PlaceArgument) (id : Json)
  /-- Sets fields of the data of a node. -/
  | updateData (id : String) (fields : Fields)
  /-- Moves a node. -/
  | moveNode (id : String) (place : PlaceArgument)
  /-- Deletes a node and the edges at it. -/
  | deleteNode (id : String)
  /-- Deletes all but the entry. -/
  | reset
  /-- Copies nodes under new ids, each shifted by an offset. -/
  | duplicate (ids : List String) (offset : Json)
  /-- Makes the preferred action of a result one that it offers. -/
  | syncPreferred (id : String)
  /-- Adds an executor of the type that a value names to a result; null is the standard value. -/
  | addExecutor (id : String) (type value : Json)
  /-- Removes the executor at an index, which counts from the end where it is negative. -/
  | removeExecutor (id : String) (index : Int)
  /-- Connects two ports. -/
  | connect (source sourceHandle target targetHandle : String)
  /-- Removes the edge with an id. -/
  | disconnect (id : String)

/-- What an edit answers. -/
inductive EditAnswer where
  | done
  | node (n : Node)
  | nodes (ns : List Node)
  | edge (e : Edge)
  | edges (es : List Edge)
  | executor (e : Executor)
  | choice (id : Option String)
  | flag (b : Bool)

/-- The state after an edit and its answer. -/
structure Edited where
  graph : Graph
  supply : IdSupply
  /-- Whether the edit is reported as a change. -/
  changed : Bool
  answer : Except Failure EditAnswer

namespace Graph

/-- The node with an id, which has to be there. -/
def require (g : Graph) (id context : String) : Except Failure Node :=
  match g.node? id with
  | some n => .ok n
  | none => .error (.graph (.noNode id g.ids context))

/-- The node with an id, which has to be there and may not be the entry. -/
def requireFree (g : Graph) (id context operation : String) : Except Failure Node := do
  let n ← g.require id context
  if n.isEntry then .error (.graph (.fixed id operation)) else pure n

/-- The data of the result with an id. -/
def requireResult (g : Graph) (id context : String) : Except Failure ResultData := do
  let n ← g.require id context
  match n.payload with
  | .result d => pure d
  | payload => .error (.notResult id payload.kind)

/-- The entry of a graph. -/
def entry (g : Graph) : Except Failure Node :=
  match g.node? g.entryId with
  | some n => if n.isEntry then .ok n else .error .noEntry
  | none => .error .noEntry

/-- Puts a node in the place of the one with its id, or behind all others. -/
def put (g : Graph) (n : Node) : Graph :=
  if g.hasNode n.id then { g with nodes := g.nodes.map fun m => if m.id == n.id then n else m }
  else { g with nodes := g.nodes ++ [n] }

/-- Adds a node behind all others. -/
def addNode (g : Graph) (n : Node) : Except Failure Graph :=
  if g.hasNode n.id then .error (.graph (.taken n.id))
  else if n.isEntry then .error (.graph .secondEntry)
  else .ok { g with nodes := g.nodes ++ [n] }

/-- Makes a node and adds it. -/
def createNode (g : Graph) (kind : Json) (place : PlaceArgument) (id : Json) (supply : IdSupply) :
    Except Failure (Graph × Node) × IdSupply :=
  match Kind.ofJson? kind with
  | none => (.error (.unknownKind kind), supply)
  | some .entry => (.error (.graph .secondEntry), supply)
  | some _ =>
    let (made, supply) := Node.create kind place id supply
    (made.bind fun n => (g.addNode n).map (·, n), supply)

/-- The names of the arguments that no field may have. -/
def argumentNames : List String := ["self", "node_id"]

/-- The payload with fields set, read again as a whole. -/
def updatePayload (payload : Payload) (fields : Fields) : Except Failure Payload :=
  let known := payload.fields.map (·.1)
  let unknown := (fields.map (·.1)).filter (!known.contains ·)
  if !unknown.isEmpty then
    .error (.unknownFields payload.kind (unknown.mergeSort fun a b => decide (a ≤ b)) known)
  else
    let merged := fields.foldl (fun all f => Fields.put f.1 f.2 all) payload.fields
    ((Payload.read payload.kind (.obj merged)).titled (Payload.recordName payload.kind)).mapError
      .invalid

/-- Sets fields of the data of a node. -/
def updateData (g : Graph) (id : String) (fields : Fields) : Except Failure (Graph × Node) :=
  match argumentNames.find? fields.has with
  | some name => .error (.doubleArgument name)
  | none => do
    let n ← g.requireFree id "update_node_data" "change"
    let payload ← updatePayload n.payload fields
    let n := { n with payload }
    pure (g.put n, n)

/-- Moves a node. -/
def moveNode (g : Graph) (id : String) (place : PlaceArgument) : Except Failure Graph := do
  let n ← g.requireFree id "move_node" "move"
  let position ← match place with
    | .omitted => pure (.unread .null)
    | place => place.settle
  pure (g.put { n with position })

/-- Deletes a node; answers the edges that went with it. -/
def deleteNode (g : Graph) (id : String) : Except Failure (Graph × List Edge) := do
  let _ ← g.requireFree id "delete_node" "delete"
  pure ({ g with
    nodes := g.nodes.filter (·.id != id)
    edges := g.edges.filter (!·.touches id) }, g.edges.filter (·.touches id))

/-- Deletes all but the entry. -/
def reset (g : Graph) : Except Failure Graph := do
  let entry ← g.entry
  pure { g with nodes := [entry], edges := [] }

/-- The number that an offset adds to a coordinate. -/
def amount : Json → Except Failure Binary64
  | .int n => (Binary64.ofInt? n).elim (.error .tooLarge) .ok
  | .float offset => .ok offset
  | .bool b => .ok (if b then Binary64.ofDecimal false 1 0 else .zero)
  | v => .error (.notAddable v.typeName)

/-- A coordinate shifted by an offset. -/
def shift (x : Binary64) (offset : Json) : Except Failure Binary64 :=
  (amount offset).map (x + ·)

/-- A place shifted by an offset on both axes. -/
def shiftPlace (offset : Json) : Placement → Except Failure Placement
  | .point p => do pure (.point ⟨← shift p.x offset, ← shift p.y offset⟩)
  | .unread v => .error (.noAttribute v.typeName "x")

/-- Copies nodes one after the other; answers the copies before a failure and the failure, if there
is one. -/
def copyAll (offset : Json) (supply : IdSupply) :
    List Node → List Node × IdSupply × Option Failure
  | [] => ([], supply, none)
  | n :: rest =>
    match shiftPlace offset n.position with
    | .error e => ([], supply.advance, some e)
    | .ok position =>
      let (copies, final, failure) := copyAll offset supply.advance rest
      ({ n with id := supply.next, position } :: copies, final, failure)

/-- Copies the nodes with given ids, the entry left out.  All of them are looked up first. -/
def duplicate (g : Graph) (ids : List String) (offset : Json) (supply : IdSupply) : Edited :=
  match ids.mapM (g.require · "duplicate_nodes") with
  | .error e => ⟨g, supply, false, .error e⟩
  | .ok sources =>
    let (copies, supply, failure) := copyAll offset supply (sources.filter (!·.isEntry))
    let g := copies.foldl put g
    match failure with
    | some e => ⟨g, supply, false, .error e⟩
    | none => ⟨g, supply, !copies.isEmpty, .ok (.nodes copies)⟩

/-- Makes the preferred action of a result one that it offers; answers the new graph if there is
something to change, and the preferred action. -/
def syncPreferred (g : Graph) (id : String) : Except Failure (Option Graph × Option String) := do
  let d ← g.requireResult id "sync_preferred"
  match g.connectedActions id with
  | [] => pure (none, d.preferred)
  | first :: others =>
    if d.preferred.any (first :: others).contains then pure (none, d.preferred)
    else do
      let (g, _) ← g.updateData id [("preferred", .str first)]
      pure (some g, some first)

/-- Sets the executors of a result. -/
def setExecutors (g : Graph) (id : String) (executors : List Executor) : Except Failure Graph :=
  (g.updateData id [("executors", .arr (executors.map Executor.toJson))]).map (·.1)

/-- An executor of the type that a value names, with a value that is read for it. -/
def makeExecutor (type value : Json) : Except Failure Executor := do
  let standard ← Executor.create type
  match value with
  | .null => pure standard
  | value =>
    ((Executor.readFields standard.type [("value", value)]).titled
      standard.type.recordName).mapError .invalid

/-- Adds an executor to a result. -/
def addExecutor (g : Graph) (id : String) (type value : Json) :
    Except Failure (Graph × Executor) := do
  let d ← g.requireResult id "add_executor"
  let executor ← makeExecutor type value
  let g ← g.setExecutors id (d.executors ++ [executor])
  pure (g, executor)

/-- The position that an index stands for in a list of a given length. -/
def position? (length : Nat) (index : Int) : Option Nat :=
  let n := if index < 0 then index + length else index
  if 0 ≤ n ∧ n < length then some n.toNat else none

/-- Removes the executor at an index from a result. -/
def removeExecutor (g : Graph) (id : String) (index : Int) : Except Failure Graph := do
  let d ← g.requireResult id "remove_executor"
  if !Checked.fitsWord index then .error .oversizeIndex
  else match position? d.executors.length index with
    | none => .error .noExecutor
    | some n => g.setExecutors id (d.executors.eraseIdx n)

/-- Which end of a connection is missing. -/
def missingEnd? (g : Graph) (source target : String) : Option MissingEnd :=
  match g.hasNode source, g.hasNode target with
  | true, true => none
  | false, true => some .source
  | true, false => some .target
  | false, false => some .both

/-- Why a connection between existing nodes is not allowed. -/
def connectionProblem? (g : Graph) (source sourceHandle target targetHandle : String) :
    Option String :=
  if source == target then some "a node cannot connect to itself"
  else match g.node? source, g.node? target with
    | some s, some t =>
      (Port.problem? s.kind sourceHandle t.kind targetHandle).map Port.Problem.message
    | _, _ => none

/-- Connects two ports; answers the edge, which may be there already, and the new graph if it is
not. -/
def connect (g : Graph) (source sourceHandle target targetHandle : String) :
    Except Failure (Option Graph × Edge) :=
  let refuse (reason : String) : Except Failure (Option Graph × Edge) :=
    .error (.graph (.refused source sourceHandle target targetHandle reason))
  match g.missingEnd? source target with
  | some missing => .error (.graph (.noEnd source target missing g.ids))
  | none =>
    match g.connectionProblem? source sourceHandle target targetHandle with
    | some reason => refuse reason
    | none =>
      let e := Edge.make source sourceHandle target targetHandle
      match g.edges.find? (·.id == e.id) with
      | some there => .ok (none, there)
      | none =>
        if Port.isSingle sourceHandle && !(g.edgesFrom source (some sourceHandle)).isEmpty then
          refuse ("'" ++ sourceHandle ++ "' already has a connection")
        else .ok (some { g with edges := g.edges ++ [e] }, e)

/-- Removes the first edge with an id; none if there is no such edge. -/
def disconnect (g : Graph) (id : String) : Option Graph :=
  if g.edges.any (·.id == id) then some { g with edges := g.edges.eraseP (·.id == id) } else none

/-- The state after an edit that may have changed the graph. -/
def settled (g : Graph) (supply : IdSupply) (r : Except Failure (Option Graph × EditAnswer)) :
    Edited :=
  match r with
  | .error e => ⟨g, supply, false, .error e⟩
  | .ok (none, answer) => ⟨g, supply, false, .ok answer⟩
  | .ok (some g, answer) => ⟨g, supply, true, .ok answer⟩

/-- Applies an edit. -/
def edit (g : Graph) (supply : IdSupply) : Edit → Edited
  | .addNode n => g.settled supply ((g.addNode n).map fun g => (some g, .done))
  | .createNode kind place id =>
    let (made, supply) := g.createNode kind place id supply
    g.settled supply (made.map fun (g, n) => (some g, .node n))
  | .updateData id fields =>
    g.settled supply ((g.updateData id fields).map fun (g, n) => (some g, .node n))
  | .moveNode id place => g.settled supply ((g.moveNode id place).map fun g => (some g, .done))
  | .deleteNode id =>
    g.settled supply ((g.deleteNode id).map fun (g, removed) => (some g, .edges removed))
  | .reset => g.settled supply (g.reset.map fun g => (some g, .done))
  | .duplicate ids offset => g.duplicate ids offset supply
  | .syncPreferred id =>
    g.settled supply ((g.syncPreferred id).map fun (g, choice) => (g, .choice choice))
  | .addExecutor id type value =>
    g.settled supply ((g.addExecutor id type value).map fun (g, e) => (some g, .executor e))
  | .removeExecutor id index =>
    g.settled supply ((g.removeExecutor id index).map fun g => (some g, .done))
  | .connect source sourceHandle target targetHandle =>
    g.settled supply ((g.connect source sourceHandle target targetHandle).map fun (g, e) =>
      (g, .edge e))
  | .disconnect id =>
    match g.disconnect id with
    | some g => ⟨g, supply, true, .ok (.flag true)⟩
    | none => ⟨g, supply, false, .ok (.flag false)⟩

end Graph

end Parley
