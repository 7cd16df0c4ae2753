import Parley.Proofs.Document.Migration
import Parley.Proofs.Graph.Rooted

/-!
# The form of the first version

The first version stored the graph of the editor.  It had other keys for some data of a result, no
record for closing and another name for the trigger of a result, and a flag on a node took the place
of the entry.  Here nodes and edges are stored in that form and read back by the migration: nothing
is lost but an empty preferred action, which is taken for none.
-/

namespace Parley

/-- The action that a result prefers; the other nodes prefer none. -/
def Payload.preferred? : Payload → Option String
  | .result d => d.preferred
  | _ => none

namespace Former

/-- The key that the first version has for a value of a result. -/
def key : String → String
  | "preferred" => "preferredId"
  | "order" => "actionsOrder"
  | "enabled" => "closeOnFinish"
  | "delay" => "closeDelay"
  | key => key

/-- The data of a result under the keys of the first version, which has no record for closing. -/
def renamed (fields : Fields) : Fields :=
  fields.flatMap fun f =>
    match f with
    | ("close", .obj close) => close.map fun f => (key f.1, f.2)
    | (k, v) => [(key k, v)]

/-- The data of a node; the flag marks what the entry leads to. -/
def data (flag : Bool) (payload : Payload) : Fields :=
  let fields := match payload with
    | .result d => renamed d.fields
    | payload => payload.fields
  if flag then fields.put "initial" (.bool true) else fields

/-- The stored form of a node with the data of the first version. -/
def node (flag : Bool) (n : Node) : Json :=
  match n.toJson with
  | .obj fields => .obj (Fields.put "data" (.obj (data flag n.payload)) fields)
  | v => v

/-- The name that the first version has for a port. -/
def handle (name : String) : String :=
  if name = Port.nodeTrigger.name then "result_trigger" else name

/-- The stored form of an edge with the ports of the first version. -/
def edge (e : Edge) : Json :=
  { e with
    sourceHandle := handle e.sourceHandle
    targetHandle := handle e.targetHandle }.toJson

end Former

/-- The fields of the stored form of a node with some data; an entry has two more. -/
def Node.stored (id : String) (p : Position) (kind : Kind) (data : Json) : Fields :=
  [("id", .str id), ("position", p.toJson), ("type", .str kind.word), ("data", data)]

/-- A node is read back from its stored form, if its data are. -/
theorem Node.read_stored {id : String} {p : Position} {kind : Kind} {data : Json}
    {payload : Payload} (free : kind ≠ .entry) (named : id ≠ "")
    (reads : Payload.read kind data = .ok payload) :
    Node.read (.obj (stored id p kind data)) = .ok ⟨id, .point p, payload⟩ := by
  have text : Checked.nonemptyText (.str id) = .ok id := Checked.nonemptyText_eq_ok.mpr ⟨rfl, named⟩
  have place : Placement.read p.toJson = .ok (.point p) := by
    simp [Placement.read, Position.read_toJson]
  have fields : readFields kind (stored id p kind data) = .ok ⟨id, .point p, payload⟩ := by
    cases kind with
    | entry => exact absurd rfl free
    | _ => simp [readFields, readId, stored, Checked.needed, Checked.field, text, place, reads]
  have tagged : Fields.get? (stored id p kind data) "type" = some (.str kind.word) := rfl
  simp [Node.read, tagged, Kind.ofJson?_word, fields]

namespace Migration

theorem elements_arr {fields : Fields} {key : String} {vs : List Json}
    (found : fields.get? key = some (.arr vs)) : elements fields key = .ok vs := by
  rw [elements, found]
  cases vs <;> rfl

/-- An old node is read if its data, brought into the present form and without the flag, are. -/
theorem node_stored {id : String} {p : Position} {kind : Kind} {data fields : Fields}
    {payload : Payload} {flag : Bool} (free : kind ≠ .entry) (named : id ≠ "")
    (marked : take data "initial" = (if flag then some (.bool true) else none, fields))
    (reads : Payload.read kind
      (.obj (if kind = .result then resultFields fields else fields)) = .ok payload) :
    node (.obj (Node.stored id p kind (.obj data))) = .ok (⟨id, .point p, payload⟩, flag) := by
  have present : orElse (Fields.get? (Node.stored id p kind (.obj data)) "data") (.obj []) =
      .obj data := by
    cases data <;> rfl
  have replaced (v : Json) : Fields.put "data" v (Node.stored id p kind (.obj data)) =
      Node.stored id p kind v := rfl
  have typed : Fields.get? (Node.stored id p kind (.obj data)) "type" = some (.str kind.word) := rfl
  have whole := Node.read_stored (p := p) free named reads
  simp only [node, present, marked, replaced, typed]
  cases kind with
  | entry => exact absurd rfl free
  | _ => cases flag <;> simp_all [Kind.word]

end Migration

namespace Former

variable {payload : Payload}

/-- The flag is taken out of the data, and nothing else. -/
theorem take_data (flag : Bool) (free : payload.kind ≠ .entry) :
    Migration.take (data flag payload) "initial" =
      (if flag then some (.bool true) else none, data false payload) := by
  cases payload with
  | entry => cases free rfl
  | _ => cases flag <;> rfl

/-- The data of a result in the present form, in the order in which migrating puts them in. -/
theorem resultFields_data (d : ResultData) (chosen : d.preferred ≠ some "") :
    Migration.resultFields (data false (.result d)) = [("message", .str d.message),
      ("executors", .arr (d.executors.map Executor.toJson)), ("handle", d.handle.toJson),
      ("preferred", Json.ofText? d.preferred), ("order", Json.ofTexts d.order),
      ("close", d.close.toJson)] := by
  have preferred : Migration.orElse (some (Json.ofText? d.preferred)) .null =
      Json.ofText? d.preferred := by
    cases given : d.preferred with
    | none => rfl
    | some s =>
        have named : s ≠ "" := by
          rintro rfl
          exact chosen given
        simp [Migration.orElse, Json.ofText?, Json.isVoid, named]
  have order : Migration.orElse (some (Json.ofTexts d.order)) (.arr []) = Json.ofTexts d.order := by
    cases d.order <;> rfl
  have close : Json.obj [("enabled", .bool (!(Json.bool d.close.enabled).isVoid)),
      ("delay", .int d.close.delay)] = d.close.toJson := by
    simp [Json.isVoid, CloseBehavior.toJson, CloseBehavior.fields]
  rw [← preferred, ← order, ← close]
  rfl

/-- The data of a node are read back once those of a result are in the present form. -/
theorem read_data (free : payload.kind ≠ .entry) (chosen : payload.preferred? ≠ some "") :
    Payload.read payload.kind (.obj (if payload.kind = .result then
      Migration.resultFields (data false payload) else data false payload)) = .ok payload := by
  cases payload with
  | entry => cases free rfl
  | action d => exact Checked.map_eq_ok.mpr ⟨d, d.read_fields, rfl⟩
  | conditional d => exact Checked.map_eq_ok.mpr ⟨d, d.read_fields, rfl⟩
  | result d =>
      simp [Payload.kind, resultFields_data d chosen, Payload.read, ResultData.read,
        Checked.record, Checked.field, Checked.optional_ofText, Checked.list_ofTexts,
        CloseBehavior.read_toJson, Checked.list_map Executor.read_toJson, ResultHandles.read_toJson]

/-- A node is read back from the form of the first version, with its flag. -/
theorem node_read (flag : Bool) {n : Node} (free : n.isEntry = false) (named : n.id ≠ "")
    (placed : ∃ p, n.position = .point p) (chosen : n.payload.preferred? ≠ some "") :
    Migration.node (node flag n) = .ok (n, flag) := by
  obtain ⟨id, position, payload⟩ := n
  obtain ⟨p, rfl⟩ := placed
  have free : payload.kind ≠ .entry := by simpa [Node.isEntry, Node.kind] using free
  have stored : node flag ⟨id, .point p, payload⟩ =
      .obj (Node.stored id p payload.kind (.obj (data flag payload))) := by
    cases payload with
    | entry => cases free rfl
    | _ => rfl
  rw [stored]
  exact Migration.node_stored free named (take_data flag free) (read_data free chosen)

/-- An edge from an output to its input is read back, under the id that is spelled from its ends. -/
theorem edge_read {e : Edge}
    (ported : ∃ output : Port, e = .join e.source output e.target output.input) :
    Migration.edge (edge e) = .ok e := by
  obtain ⟨output, whole⟩ := ported
  rw [whole]
  cases output <;> rfl

theorem find?_start {nodes : List Node} {start : Option String}
    (there : ∀ t ∈ start, ∃ n ∈ nodes, n.id = t) :
    (nodes.find? fun n => start == some n.id).map (·.id) = start := by
  cases start with
  | none => simp
  | some t =>
      obtain ⟨n, member, rfl⟩ := there t rfl
      cases found : nodes.find? fun m => some n.id == some m.id with
      | none => exact absurd (List.find?_eq_none.mp found n member) (by simp)
      | some m =>
          have same : n.id = m.id := by simpa using List.find?_some found
          rw [Option.map_some, same]

/-- Marking the node that the entry leads to gives the edge to it. -/
theorem editorGraph_former {nodes : List Node} {edges : List Edge} {start : Option String}
    (nodesRead : ∀ n ∈ nodes, ∀ flag, Migration.node (node flag n) = .ok (n, flag))
    (edgesRead : ∀ e ∈ edges, Migration.edge (edge e) = .ok e)
    (there : ∀ t ∈ start, ∃ n ∈ nodes, n.id = t) :
    Migration.editorGraph [
      ("nodes", .arr (nodes.map fun n => node (start == some n.id) n)),
      ("edges", .arr (edges.map edge))] =
        .ok (Node.entry :: nodes, start.toList.map Edge.start ++ edges) := by
  have nodesRead : (nodes.map fun n => node (start == some n.id) n).mapM Migration.node =
      .ok (nodes.map fun n => (n, start == some n.id)) :=
    mapM_map_eq_ok fun n member => nodesRead n member _
  have edgesRead : (edges.map edge).mapM Migration.edge = .ok (edges.map id) :=
    mapM_map_eq_ok edgesRead
  have marked : ((nodes.map fun n => (n, start == some n.id)).find? (·.2)).map
      (fun n => Edge.join Node.entryId .initialTarget n.1.id .nodeTrigger) =
        start.map Edge.start := by
    rw [List.find?_map, Option.map_map]
    conv_rhs => rw [← find?_start there, Option.map_map]
    rfl
  rw [Migration.editorGraph, Migration.elements_arr rfl, Migration.elements_arr rfl]
  simp only [bind, Except.bind, Except.mapError, nodesRead, edgesRead, marked]
  have unmarked : (nodes.map fun n => (n, start == some n.id)).map (·.1) = nodes := by
    simp [Function.comp_def]
  rw [unmarked, List.map_id]
  cases start <;> rfl

end Former

end Parley
