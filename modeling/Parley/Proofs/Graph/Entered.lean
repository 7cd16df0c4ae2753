import Parley.Proofs.Graph.Sound

/-!
# Graphs with one entry

However a graph came about, its ids are distinct, one node of it is the entry, under the id that the
graph knows it by, and each node has a point.  Nothing is said about edges: a graph that is built
takes them as they come.
-/

namespace Parley

/-- A place that is read is a point, and one that is missing is the origin. -/
theorem Placement.point_of_field {fields : Fields} {place : Placement}
    (read : Checked.field fields "position" Placement.read (.point {}) = .ok place) :
    ∃ p, place = .point p := by
  rw [Checked.field] at read
  split at read
  next v _ =>
    obtain ⟨p, -, rfl⟩ := Checked.map_eq_ok.mp (Checked.under_eq_ok.mp read)
    exact ⟨p, rfl⟩
  next =>
    cases read
    exact ⟨{}, rfl⟩

namespace Node

/-- Data that are read, or missing, are data of the kind that is asked for. -/
theorem kind_of_field {kind : Kind} {fields : Fields} {payload : Payload}
    (read : Checked.field fields "data" (Payload.read kind) (.ofKind kind) = .ok payload) :
    payload.kind = kind := by
  rw [Checked.field] at read
  split at read
  next => exact Payload.kind_of_read (Checked.under_eq_ok.mp read)
  next =>
    cases read
    exact Payload.kind_ofKind kind

/-- The parts that a node is read of: its id, its place and its data. -/
theorem parts_of_read {kind : Kind} {fields : Fields} {n : Node}
    (read : (fun id position payload => ({ id, position, payload } : Node)) <$>
        readId kind fields <*> Checked.field fields "position" Placement.read (.point {}) <*>
        Checked.field fields "data" (Payload.read kind) (.ofKind kind) = .ok n) :
    readId kind fields = .ok n.id ∧
      Checked.field fields "position" Placement.read (.point {}) = .ok n.position ∧
      Checked.field fields "data" (Payload.read kind) (.ofKind kind) = .ok n.payload := by
  obtain ⟨_, payload, place, data, rfl⟩ := Checked.seq_eq_ok.mp read
  obtain ⟨_, position, named, placed, rfl⟩ := Checked.seq_eq_ok.mp place
  obtain ⟨id, given, rfl⟩ := Checked.map_eq_ok.mp named
  exact ⟨given, placed, data⟩

/-- A node that is read has the id and the place that are read, and the kind that is asked for. -/
theorem parts_of_readFields {kind : Kind} {fields : Fields} {n : Node}
    (read : readFields kind fields = .ok n) :
    readId kind fields = .ok n.id ∧
      Checked.field fields "position" Placement.read (.point {}) = .ok n.position ∧
      n.kind = kind := by
  cases kind with
  | entry =>
      obtain ⟨_, deletable, flagged, -, rfl⟩ := Checked.seq_eq_ok.mp read
      obtain ⟨_, draggable, unflagged, -, rfl⟩ := Checked.seq_eq_ok.mp flagged
      obtain ⟨⟨id, position, payload⟩, made, rfl⟩ := Checked.map_eq_ok.mp unflagged
      obtain ⟨given, placed, data⟩ := parts_of_read made
      have same : payload.kind = .entry := kind_of_field data
      cases payload with
      | entry => exact ⟨given, placed, rfl⟩
      | _ => cases same
  | _ =>
      obtain ⟨given, placed, data⟩ := parts_of_read read
      exact ⟨given, placed, kind_of_field data⟩

/-- Whether a node has an id, where its kind needs one: that of an entry may be empty. -/
def Named (n : Node) : Prop := n.isEntry = true ∨ n.id ≠ ""

/-- A node is read of an object, by the fields of its kind. -/
theorem readFields_of_read {v : Json} {n : Node} (read : Node.read v = .ok n) :
    ∃ kind fields, v = .obj fields ∧ readFields kind fields = .ok n := by
  cases v with
  | obj fields =>
      rw [Node.read] at read
      split at read
      next => cases read
      next =>
        split at read
        next kind _ => exact ⟨kind, fields, rfl, Checked.under_eq_ok.mp read⟩
        next => cases read
  | _ => cases read

/-- A node that is read has a point, and an id where its kind needs one. -/
theorem sound_of_read {v : Json} {n : Node} (read : Node.read v = .ok n) :
    (∃ p, n.position = .point p) ∧ n.Named := by
  obtain ⟨kind, fields, rfl, parts⟩ := readFields_of_read read
  obtain ⟨given, placed, same⟩ := parts_of_readFields parts
  refine ⟨Placement.point_of_field placed, ?_⟩
  cases kind with
  | entry => exact .inl (by simp [isEntry, same])
  | _ =>
      obtain ⟨v, -, text⟩ := Checked.needed_eq_ok.mp given
      exact .inr (Checked.nonemptyText_eq_ok.mp text).2

end Node

namespace Graph

/-- Whether ids are distinct, the id of the entry is that of the only entry, and nodes have
points. -/
structure Entered (g : Graph) : Prop where
  distinct : g.ids.Nodup
  start : ∃ n, g.nodes.filter Node.isEntry = [n] ∧ n.id = g.entryId
  placed : ∀ n ∈ g.nodes, ∃ p, n.position = .point p

variable {new : Prop} {g g' : Graph} {n : Node} {id : String} {nodes before : List Node}
  {edges : List Edge}

theorem Sound.entered (h : g.Sound) : g.Entered where
  distinct := h.distinct
  start := ⟨Node.entry, h.start, h.entryId.symm⟩
  placed := h.placed

namespace Entered

theorem find?_isEntry (h : g.Entered) :
    ∃ n, g.nodes.find? Node.isEntry = some n ∧ n.id = g.entryId := by
  obtain ⟨n, start, named⟩ := h.start
  exact ⟨n, by rw [← List.head?_filter, start, List.head?_cons], named⟩

theorem put (h : g.Entered) (free : n.isEntry = false) (point : ∃ p, n.position = .point p)
    (same : ∀ m ∈ g.nodes, m.id = n.id → m.isEntry = false) : (g.put n).Entered where
  distinct := ids_put_nodup h.distinct n
  start := by simpa [filter_isEntry_put free same] using h.start
  placed m member := by
    rcases mem_put.mp member with rfl | ⟨member, -⟩
    · exact point
    · exact h.placed m member

/-- An elementary change leaves one entry if the ids that are drawn are new. -/
theorem change (holds : new) (h : g.Entered) (step : Change new g g') : g'.Entered := by
  cases step with
  | add n p free named placed absent =>
      exact h.put free ⟨p, placed⟩ fun m member same => absurd (same ▸ id_mem member) (absent holds)
  | set id m n there free same kind placed =>
      refine h.put (by simpa [Node.isEntry, kind] using free) ?_ fun x member named => ?_
      · exact placed.elim (fun kept => kept ▸ h.placed m (node?_mem there)) fun point => point
      · rw [eq_of_id_eq h.distinct member (node?_mem there) (named.trans same), free]
  | delete id n there free =>
      obtain ⟨m, start, named⟩ := h.start
      exact ⟨h.distinct.sublist (List.filter_sublist.map _),
        ⟨m, filter_isEntry_delete h.distinct start there free, named⟩,
        fun x member => h.placed x (List.mem_of_mem_filter member)⟩
  | reset n there isEntry =>
      refine ⟨List.nodup_singleton _, ⟨n, by simp [isEntry], node?_id there⟩, fun x member => ?_⟩
      exact List.mem_singleton.mp member ▸ h.placed n (node?_mem there)
  | link e fits unknown unused => exact ⟨h.distinct, h.start, h.placed⟩
  | unlink id => exact ⟨h.distinct, h.start, h.placed⟩

/-- An edit with new ids leaves one entry, whether or not it succeeds. -/
theorem step (h : g.Entered) (step : NewStep g g') : g'.Entered := by
  obtain ⟨s, e, typed, drawn, rfl⟩ := step
  exact preserved_by_changes (P := Entered) (change drawn) h (edit_changes typed)

/-- An edit that copies nothing leaves one entry, whatever is drawn and whether or not it
succeeds. -/
theorem edit {s : IdSupply} {e : Edit} (h : g.Entered) (typed : e.Typed) (single : ¬ e.Copies) :
    (g.edit s e).graph.Entered :=
  preserved_by_changes (P := Entered) (change trivial) h
    (edit_changes_of typed fun _ copies => absurd copies single)

end Entered

/-- Nodes are added as they are, if no two of them have one id. -/
theorem addAll_eq_ok {all : List Node} (added : addAll before nodes = .ok all)
    (distinct : (before.map (·.id)).Nodup) :
    all = before ++ nodes ∧ (all.map (·.id)).Nodup := by
  induction nodes generalizing before with
  | nil =>
      cases added
      exact ⟨(List.append_nil _).symm, distinct⟩
  | cons n rest ih =>
      rw [addAll] at added
      split at added
      next => cases added
      next free =>
        have absent : n.id ∉ before.map (·.id) := by simpa using free
        have distinct : ((before ++ [n]).map (·.id)).Nodup := by
          rw [List.map_append, List.map_singleton, ← List.concat_eq_append]
          exact distinct.concat absent
        obtain ⟨rfl, apart⟩ := ih added distinct
        exact ⟨by simp, apart⟩

/-- The nodes of a graph that is built are those that it is built of, and the entry of a new graph
if there is none among them. -/
theorem nodes_of_build (built : build nodes edges = .ok g) :
    ∀ n ∈ g.nodes, n = Node.entry ∨ n ∈ nodes := by
  rw [build] at built
  split at built
  next =>
    obtain ⟨all, added, rfl⟩ := map_eq_ok.mp built
    obtain ⟨rfl, -⟩ := addAll_eq_ok added (List.nodup_singleton _)
    exact fun n member => List.mem_cons.mp member
  next =>
    obtain ⟨all, added, rfl⟩ := map_eq_ok.mp built
    obtain ⟨rfl, -⟩ := addAll_eq_ok added List.nodup_nil
    exact fun n member => .inr member
  next => cases built

/-- A graph that is built of nodes with points has one entry, whatever its edges are. -/
theorem entered_of_build (placed : ∀ n ∈ nodes, ∃ p, n.position = .point p)
    (built : build nodes edges = .ok g) : g.Entered := by
  rw [build] at built
  split at built
  next none =>
    obtain ⟨all, added, rfl⟩ := map_eq_ok.mp built
    obtain ⟨rfl, distinct⟩ := addAll_eq_ok added (List.nodup_singleton _)
    have first : (Node.entry :: nodes).filter Node.isEntry = [Node.entry] := by
      rw [List.filter_cons_of_pos rfl, none]
    exact ⟨distinct, ⟨Node.entry, first, rfl⟩, List.forall_mem_cons.mpr ⟨⟨{}, rfl⟩, placed⟩⟩
  next entry one =>
    obtain ⟨all, added, rfl⟩ := map_eq_ok.mp built
    obtain ⟨rfl, distinct⟩ := addAll_eq_ok added List.nodup_nil
    exact ⟨distinct, ⟨entry, one, rfl⟩, placed⟩
  next => cases built

/-- A stored graph is read by building it of nodes that are read. -/
theorem build_of_ofJson {v : Json} (read : ofJson v = .ok g) :
    ∃ nodes edges, (∀ n ∈ nodes, ∃ w, Node.read w = .ok n) ∧ build nodes edges = .ok g := by
  cases v with
  | obj fields =>
      obtain ⟨_, -, read⟩ := bind_eq_ok.mp read
      obtain ⟨nodes, stored, read⟩ := bind_eq_ok.mp read
      obtain ⟨_, -, read⟩ := bind_eq_ok.mp read
      obtain ⟨edges, -, read⟩ := bind_eq_ok.mp read
      refine ⟨nodes, edges, fun n member => ?_, mapError_eq_ok.mp read⟩
      obtain ⟨w, -, made⟩ := exists_of_mem_mapM stored n member
      exact ⟨w, Checked.titled_eq_ok.mp (mapError_eq_ok.mp made)⟩
  | _ => cases read

/-- A graph that is read from a stored form has one entry. -/
theorem entered_of_ofJson {v : Json} (read : ofJson v = .ok g) : g.Entered := by
  obtain ⟨nodes, edges, read, built⟩ := build_of_ofJson read
  refine entered_of_build (fun n member => ?_) built
  obtain ⟨w, made⟩ := read n member
  exact (Node.sound_of_read made).1

/-- The nodes of a graph that is read have ids, where their kinds need them. -/
theorem named_of_ofJson {v : Json} (read : ofJson v = .ok g) : ∀ n ∈ g.nodes, n.Named := by
  obtain ⟨nodes, edges, read, built⟩ := build_of_ofJson read
  intro n member
  rcases nodes_of_build built n member with rfl | member
  · exact .inl rfl
  · obtain ⟨w, made⟩ := read n member
    exact (Node.sound_of_read made).2

end Graph

end Parley
