import Parley.Proofs.Document.Former
import Parley.Proofs.Graph.Entered

/-!
# Stored graphs

A graph that is read from a stored form is read back from its own stored form as it is: the same
nodes and edges in the same order, with scalars of the same types.  The stored form that was read
first may be another one: fields may be missing, spelled under a second key or given by values that
are converted, and the entry may be missing.  All of that is settled by the first reading, so its
result is stored in a normal form.
-/

namespace Parley

/-- The stored form of a place is read as the point that the place stands for. -/
theorem Placement.read_toJson (place : Placement) :
    Position.read place.toJson = place.toPosition := by
  cases place with
  | point p => exact Position.read_toJson p
  | unread v => rfl

namespace Node

variable {n : Node}

/-- A node is read back from its stored form, with its place as a point. -/
theorem read_toJson_of_place {p : Position} (named : n.Named)
    (place : n.position.toPosition = .ok p) :
    read n.toJson = .ok { n with position := .point p } := by
  obtain ⟨id, position, payload⟩ := n
  have placed : Placement.read position.toJson = .ok (.point p) := by
    rw [Placement.read, Placement.read_toJson, place, Checked.map_ok]
  by_cases isEntry : payload.kind = .entry
  · cases payload with
    | entry draggable deletable =>
        simp [toJson, read, readFields, readId, kind, Payload.kind, Payload.fields, Payload.read,
          Payload.withFlags, Checked.field, Checked.record, Kind.ofJson?_word, placed]
    | _ => cases isEntry
  · have text : Checked.nonemptyText (.str id) = .ok id :=
      Checked.nonemptyText_eq_ok.mpr
        ⟨rfl, named.resolve_left (by simpa [Node.isEntry, kind] using isEntry)⟩
    have data := Payload.read_fields isEntry
    cases payload with
    | entry => exact absurd rfl isEntry
    | _ =>
        simp_all [toJson, read, readFields, readId, kind, Payload.kind, Checked.needed,
          Checked.field, Kind.ofJson?_word]

/-- A node with a point is read back from its stored form. -/
theorem read_toJson (named : n.Named) (placed : ∃ p, n.position = .point p) :
    read n.toJson = .ok n := by
  obtain ⟨id, position, payload⟩ := n
  obtain ⟨p, rfl⟩ := placed
  exact read_toJson_of_place named rfl

/-- A node is read back from its stored form only if its place stands for a point. -/
theorem place_of_read_toJson {m : Node} (reads : read n.toJson = .ok m) :
    ∃ p, n.position.toPosition = .ok p := by
  obtain ⟨fields, stored, tagged, placed⟩ : ∃ fields : Fields, n.toJson = .obj fields ∧
      fields.get? "type" = some (.str n.kind.word) ∧
      fields.get? "position" = some n.position.toJson := by
    obtain ⟨id, position, payload⟩ := n
    cases payload with
    | _ => exact ⟨_, rfl, rfl, rfl⟩
  rw [stored] at reads
  simp only [read, tagged, Kind.ofJson?_word] at reads
  obtain ⟨-, place, -⟩ := parts_of_readFields (Checked.under_eq_ok.mp reads)
  simp only [Checked.field, placed] at place
  obtain ⟨p, read, -⟩ := Checked.map_eq_ok.mp (Checked.under_eq_ok.mp place)
  exact ⟨p, (Placement.read_toJson n.position).symm.trans read⟩

end Node

theorem Edge.read_toJson (e : Edge) : Edge.read e.toJson = .ok e := by
  simp [Edge.read, Edge.toJson, Checked.record, Checked.needed, Checked.keyOf, Fields.has]

namespace Graph

variable {g : Graph}

/-- Nodes with distinct ids are added as they are. -/
theorem addAll_of_nodup {before nodes : List Node}
    (distinct : ((before ++ nodes).map (·.id)).Nodup) :
    addAll before nodes = .ok (before ++ nodes) := by
  induction nodes generalizing before with
  | nil => rw [addAll, List.append_nil]
  | cons n rest ih =>
      have absent : before.any (·.id == n.id) = false := by
        simp only [List.map_append, List.map_cons] at distinct
        have apart := List.disjoint_of_nodup_append distinct
        simpa using fun m member same => apart (List.mem_map_of_mem member) (by simp [same])
      have shifted : before ++ n :: rest = before ++ [n] ++ rest := by simp
      rw [addAll, absent, shifted]
      exact ih (shifted ▸ distinct)

/-- Nodes with distinct ids, of which one is the entry, are built into a graph as they are. -/
theorem build_of_nodup {nodes : List Node} {edges : List Edge} {entry : Node}
    (distinct : (nodes.map (·.id)).Nodup) (start : nodes.filter Node.isEntry = [entry]) :
    build nodes edges = .ok ⟨nodes, edges, entry.id⟩ := by
  have added : addAll [] nodes = .ok ([] ++ nodes) := addAll_of_nodup distinct
  rw [build, start]
  simp only [added, List.nil_append]
  rfl

theorem elements_arr {fields : Fields} {key : String} {vs : List Json}
    (found : fields.get? key = some (.arr vs)) : elements fields key = .ok vs := by
  rw [elements, found]
  rfl

/-- Reading the stored form of a graph builds a graph of its nodes as each of them is read. -/
theorem ofJson_toJson_eq {view : Node → Node}
    (reads : ∀ n ∈ g.nodes, Node.read n.toJson = .ok (view n)) :
    ofJson g.toJson = (build (g.nodes.map view) g.edges).mapError .graph := by
  have nodes : (g.nodes.map Node.toJson).mapM readNode = .ok (g.nodes.map view) :=
    mapM_map_eq_ok fun n member => by
      rw [readNode, reads n member]
      rfl
  have edges : (g.edges.map Edge.toJson).mapM readEdge = .ok g.edges := by
    have reads : ∀ e ∈ g.edges, readEdge e.toJson = .ok (id e) := fun e _ => by
      rw [readEdge, Edge.read_toJson]
      rfl
    simpa using mapM_map_eq_ok reads
  rw [toJson, ofJson, elements_arr rfl, elements_arr rfl]
  simp only [bind, Except.bind, nodes, edges]

/-- The stored form of a graph is read only if each of its nodes is. -/
theorem exists_of_ofJson_toJson {g' : Graph} (read : ofJson g.toJson = .ok g') :
    ∀ n ∈ g.nodes, ∃ m, Node.read n.toJson = .ok m := by
  rw [toJson, ofJson, elements_arr rfl] at read
  obtain ⟨_, listed, read⟩ := bind_eq_ok.mp read
  cases listed
  obtain ⟨_, nodes, -⟩ := bind_eq_ok.mp read
  intro n member
  obtain ⟨m, read⟩ := exists_mapM_eq_ok.mp ⟨_, nodes⟩ n.toJson (List.mem_map_of_mem member)
  exact ⟨m, Checked.titled_eq_ok.mp (mapError_eq_ok.mp read)⟩

/-- A graph with one entry, whose nodes have ids, is read back from its stored form. -/
theorem Entered.ofJson_toJson (h : g.Entered) (named : ∀ n ∈ g.nodes, n.Named) :
    ofJson g.toJson = .ok g := by
  obtain ⟨entry, start, same⟩ := h.start
  have reads : ∀ n ∈ g.nodes, Node.read n.toJson = .ok (id n) := fun n member =>
    Node.read_toJson (named n member) (h.placed n member)
  rw [ofJson_toJson_eq reads, List.map_id, build_of_nodup h.distinct start, same]
  rfl

end Graph

open Parley.Graph in
/-- What is read from any stored form is read back from its own stored form: the same graph, node by
node and edge by edge, whose stored form is the same again. -/
theorem stored_normal {v : Json} {g : Graph} (read : ofJson v = .ok g) :
    ofJson g.toJson = .ok g ∧ (ofJson g.toJson).map toJson = .ok g.toJson := by
  have again := (entered_of_ofJson read).ofJson_toJson (named_of_ofJson read)
  exact ⟨again, by rw [again]; rfl⟩

/-- A graph without an entry is read, with a needless key, a delay and a flag that are converted, an
amount that stays a truth value, and an edge with one of its ports under the second key. -/
theorem stored_normal_of_converted :
    let stored : Json := .obj [
      ("nodes", .arr [.obj [("type", .str "result"), ("id", .str "hello"), ("data", .obj [
        ("close", .obj [("delay", .bool true), ("enabled", .int 1)]),
        ("executors", .arr [.obj [("type", .str "set_coins"), ("value", .bool true)]]),
        ("note", .null)])]]),
      ("edges", .arr [.obj [("id", .str "first"), ("source", .str "initial"),
        ("source_handle", .str "initial_target"), ("target", .str "hello"),
        ("targetHandle", .str "node_trigger")]])]
    let g : Graph := {
      nodes := [.entry, { id := "hello", payload := .result {
        close := { enabled := true, delay := 1 }
        executors := [.setCoins (.bool true)] } }]
      edges := [⟨"first", "initial", "initial_target", "hello", "node_trigger"⟩]
      entryId := Node.entryId }
    Graph.ofJson stored = .ok g ∧ Graph.ofJson g.toJson = .ok g ∧
      (Graph.ofJson g.toJson).map Graph.toJson = .ok g.toJson := by
  intro stored g
  have read : Graph.ofJson stored = .ok g := rfl
  exact ⟨read, stored_normal read⟩

end Parley
