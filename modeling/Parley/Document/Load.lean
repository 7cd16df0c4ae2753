import Parley.Document.Migration
import Parley.Graph.Basic

/-!
# Loading a document into a graph

Each row becomes a node with the id, the place and the handles of the row, and each reference the
edge that it came from.  References to rows that do not exist are left out with a warning.
-/

namespace Parley

/-- Why a value is no dialogue document. -/
inductive Malformed where
  /-- It is of no known version. -/
  | format (e : FormatError)
  /-- It does not fit the record of a document. -/
  | invalid (e : Invalid)
  /-- Two rows have one id, or a row has that of the entry. -/
  | sharedId

/-- Why a value is not read as a document. -/
inductive Unread where
  /-- It is none. -/
  | malformed (m : Malformed)
  /-- A whole number in it has too many digits to be shown. -/
  | digits (e : DigitLimit)

/-- What is reported about a value that is no document. -/
def Malformed.message : Malformed → String
  | .format e => e.message
  | .invalid e => e.brief
  | .sharedId => "document rows share an id"

/-- A graph that was loaded from a document. -/
structure Loaded where
  graph : Graph
  npc : String := ""
  interaction : Option Interaction := none
  /-- The version in which the document was written. -/
  version : Nat := currentVersion

namespace Load

/-- Reads a value of any version as a document; answers it with its version. -/
def readDocument (v : Json) : Except Unread (Document × Nat) :=
  match migrate v with
  | .error (.format e) => .error (.malformed (.format e))
  | .error (.invalid e) => .error (.malformed (.invalid e))
  | .error (.digits e) => .error (.digits e)
  | .ok (fields, version) =>
    match (Document.read (.obj fields)).titled Document.title with
    | .ok document => .ok (document, version)
    | .error e => .error (.malformed (.invalid e))

/-- The version that a value was brought up from, once that has been reported. -/
def events (v : Json) : List Log.Event :=
  match migrate v with
  | .ok (_, version) => migrationEvents version
  | .error _ => []

/-- The id of the node of a row, which may not be empty. -/
def checkId (kind : Kind) (id : String) : Except Invalid Unit :=
  if id.isEmpty then .error ⟨Node.recordName kind, [⟨.emptyText, [.name "id"]⟩]⟩ else .ok ()

/-- The node of a result row.  The preferred action is no part of the order of the others. -/
def resultNode (r : ResultRow) : Node where
  id := r.id
  position := .point r.position
  payload := .result {
    message := r.message
    preferred := r.preferred
    order := r.actions.filter (some · != r.preferred)
    close := r.close
    executors := r.executors
    handle := r.handle }

/-- The node of a condition row. -/
def conditionNode (r : ConditionRow) : Node where
  id := r.id
  position := .point r.position
  payload := .conditional {
    value := r.value
    condition := r.condition
    objective := r.objective
    handle := r.handle }

/-- The node of an action row. -/
def actionNode (r : ActionRow) : Node where
  id := r.id
  position := .point r.position
  payload := .action { label := r.label, handle := r.handle }

/-- The edge from the entry to a row, if the dialogue begins there. -/
def entryEdge (d : Document) (id : String) : List Edge :=
  if id == d.initial.id then [Edge.join Node.entryId .initialTarget id .nodeTrigger] else []

/-- The edges of a result row. -/
def resultEdges (d : Document) (r : ResultRow) : List Edge :=
  entryEdge d r.id ++ r.actions.map fun action =>
    Edge.join r.id .resultActions action .actionOwner

/-- The edges of a condition row. -/
def conditionEdges (d : Document) (r : ConditionRow) : List Edge :=
  entryEdge d r.id ++ [Edge.join r.id .conditionTrue r.onTrue.id .nodeTrigger,
    Edge.join r.id .conditionFalse r.onFalse.id .nodeTrigger]

/-- The edge of an action row. -/
def actionEdges (r : ActionRow) : List Edge :=
  match r.target with
  | some target => [Edge.join r.id .actionResult target.id .nodeTrigger]
  | none => []

/-- The nodes of a document: the entry, the results, the conditions and the actions. -/
def nodes (d : Document) : List Node :=
  Node.entry :: d.results.map resultNode ++ d.conditions.map conditionNode ++
    d.actions.map actionNode

/-- All edges of a document, in the order of the rows. -/
def edges (d : Document) : List Edge :=
  d.results.flatMap (resultEdges d) ++ d.conditions.flatMap (conditionEdges d) ++
    d.actions.flatMap actionEdges

/-- Whether both ends of an edge are among the ids. -/
def joins (ids : List String) (e : Edge) : Bool := ids.contains e.source && ids.contains e.target

/-- The first edge of each id that is not among those seen before. -/
def distinct (seen : List String) : List Edge → List Edge
  | [] => []
  | e :: rest =>
    if seen.contains e.id then distinct seen rest else e :: distinct (e.id :: seen) rest

/-- The warnings on references that lead nowhere. -/
def warnings (d : Document) (ids : List String) : List Log.Event :=
  ((edges d).filter (!joins ids ·)).map (fun e => ⟨Log.Logger.loader, "edge_skipped",
    .warning, [("edge", .str e.id), ("reason", .str "endpoint missing from document")]⟩) ++
  (if ids.contains d.initial.id then []
    else [⟨Log.Logger.loader, "entry_target_missing", .warning, [("target", .str d.initial.id)]⟩])

/-- Whether two values of a list are the same. -/
def shared (ids : List String) : Bool := ids.eraseDups.length != ids.length

end Load

/-- Loads a value as a dialogue; answers the result with the events on the way.  An empty id of a
row is a fault of the node that it should become, and neither that nor a number that cannot be shown
is answered. -/
def load (v : Json) : Except Failure (Except Malformed Loaded) × List Log.Event :=
  let migrated := Load.events v
  match Load.readDocument v with
  | .error (.malformed m) => (.ok (.error m), migrated)
  | .error (.digits e) => (.error (.digits e), migrated)
  | .ok (d, version) =>
    let checked : Except Invalid Unit := do
      d.results.forM fun r => Load.checkId .result r.id
      d.conditions.forM fun r => Load.checkId .conditional r.id
      d.actions.forM fun r => Load.checkId .action r.id
    match checked with
    | .error e => (.error (.invalid e), migrated)
    | .ok () =>
      let nodes := Load.nodes d
      let ids := nodes.map (·.id)
      if Load.shared ids then (.ok (.error .sharedId), migrated)
      else
        let kept := Load.distinct [] ((Load.edges d).filter (Load.joins ids))
        let done : Log.Event := ⟨Log.Logger.loader, "document_loaded", .debug,
          [("schema_version", .int version), ("nodes", .int nodes.length),
            ("edges", .int kept.length)]⟩
        (.ok (.ok ⟨⟨nodes, kept, Node.entryId⟩, d.npc, d.interaction, version⟩),
          migrated ++ Load.warnings d ids ++ [done])

end Parley
