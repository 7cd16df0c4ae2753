import Parley.Proofs.Graph.Change

/-!
# Taking a new node back

A node that was made can be deleted again, and whatever was connected to it in the meantime goes
with it.  In a graph that was edited the edges end at nodes of the graph, so none of those that were
there before is at the new node, and all that were added since then are: connecting adds the edge
that it answers, behind all others, and changes nothing else.
-/

namespace Parley

/-- Whether an edit asks for a connection with a node at one of its ends. -/
def Edit.ConnectsAt (id : String) : Edit → Prop
  | .connect source _ target _ => source = id ∨ target = id
  | _ => False

instance (id : String) (e : Edit) : Decidable (e.ConnectsAt id) := by
  cases e <;> unfold Edit.ConnectsAt <;> infer_instance

/-- The edges that an edit adds: the one that is answered, if a change is reported. -/
def Edited.added (r : Edited) : List Edge :=
  match r.changed, r.answer with
  | true, .ok (.edge e) => [e]
  | _, _ => []

/-- A node is made under a text that is not empty. -/
theorem Node.build_of_text {id : String} (named : id ≠ "") (k : Kind) (p : Position) :
    build k (.str id) (.point p) = .ok ⟨id, .point p, .ofKind k⟩ := by
  have text : Checked.nonemptyText (.str id) = .ok id :=
    Checked.nonemptyText_eq_ok.mpr ⟨rfl, named⟩
  rw [build, text]
  rfl

namespace Graph

/-- The edges that the edits of a row add, in order. -/
def added (g : Graph) (s : IdSupply) : List Edit → List Edge
  | [] => []
  | e :: rest => (g.edit s e).added ++ (g.edit s e).graph.added (g.edit s e).supply rest

/-- Whether the edges of a graph end at nodes of it. -/
def Closed (g : Graph) : Prop := ∀ e ∈ g.edges, ∀ id, e.touches id = true → id ∈ g.ids

variable {new : Prop} {g g' : Graph} {s : IdSupply} {n : Node} {id : String}

open Relation (ReflTransGen)

/-- An edge that fits ends at nodes of the graph. -/
theorem Fits.mem_ids {e : Edge} (fits : g.Fits e) (ends : e.touches id = true) : id ∈ g.ids := by
  obtain ⟨source, target, hsource, htarget, -⟩ := fits.ends
  simp only [Edge.touches, Bool.or_eq_true, beq_iff_eq] at ends
  rcases ends with rfl | rfl
  · exact node?_id hsource ▸ id_mem (node?_mem hsource)
  · exact node?_id htarget ▸ id_mem (node?_mem htarget)

namespace Closed

theorem empty : Graph.empty.Closed := fun _ member => nomatch member

theorem put (h : g.Closed) (n : Node) : (g.put n).Closed := by
  intro e member id ends
  exact mem_ids_put.mpr (.inr (h e (by simpa using member) id ends))

/-- Every change leaves the edges at nodes of the graph. -/
theorem change (h : g.Closed) (step : Change new g g') : g'.Closed := by
  cases step with
  | add n p free named placed absent => exact h.put n
  | set id m n there free same kind placed => exact h.put n
  | delete id n there free =>
      intro e member other ends
      obtain ⟨member, apart⟩ := List.mem_filter.mp member
      obtain ⟨m, there, rfl⟩ := mem_ids.mp (h e member other ends)
      have different : m.id ≠ id := by
        rintro rfl
        simp [ends] at apart
      exact mem_ids.mpr ⟨m, List.mem_filter.mpr ⟨there, by simpa using different⟩, rfl⟩
  | reset n there isEntry => exact fun _ member => nomatch member
  | link e fits unknown unused =>
      intro x member id ends
      rcases List.mem_append.mp member with member | member
      · exact h x member id ends
      · obtain rfl := List.mem_singleton.mp member
        exact fits.mem_ids ends
  | unlink id => exact fun e member => h e (List.eraseP_subset member)

/-- Any run of edits leaves the edges at nodes of the graph. -/
theorem run (h : g.Closed) (steps : ReflTransGen Step g g') : g'.Closed :=
  preserved_by_steps (P := Closed) change h steps

end Closed

/-- A connection at a node adds an edge at the node, or none, and leaves all else as it is. -/
theorem edit_connectsAt {e : Edit} (connects : e.ConnectsAt id) :
    (g.edit s e).graph = { g with edges := g.edges ++ (g.edit s e).added } ∧
      ∀ x ∈ (g.edit s e).added, x.touches id = true := by
  cases e with
  | connect source sourceHandle target targetHandle =>
      rw [edit]
      rcases connected : g.connect source sourceHandle target targetHandle with
        failure | ⟨changed | g', x⟩
      · constructor <;> simp [Except.map, settled, Edited.added]
      · constructor <;> simp [Except.map, settled, Edited.added]
      · obtain ⟨rfl, -, -, -, rfl⟩ := connect_eq_ok connected
        refine ⟨rfl, fun x member => ?_⟩
        obtain rfl := List.mem_singleton.mp member
        simpa [Edit.ConnectsAt, Edge.touches, Edge.make] using connects
  | _ => exact connects.elim

/-- A row of connections at a node adds edges at the node, behind all others, and leaves all else as
it is. -/
theorem after_connectsAt {links : List Edit} (connect : ∀ e ∈ links, e.ConnectsAt id) :
    g.after s links = { g with edges := g.edges ++ g.added s links } ∧
      ∀ x ∈ g.added s links, x.touches id = true := by
  induction links generalizing g s with
  | nil => exact ⟨by simp [after, added], fun _ member => nomatch member⟩
  | cons e rest ih =>
      obtain ⟨first, others⟩ := List.forall_mem_cons.mp connect
      obtain ⟨step, touches⟩ := edit_connectsAt (g := g) (s := s) first
      obtain ⟨result, touch⟩ := ih (g := (g.edit s e).graph) (s := (g.edit s e).supply) others
      refine ⟨?_, List.forall_mem_append.mpr ⟨touches, touch⟩⟩
      rw [after, result, added]
      simp only [step, List.append_assoc]

/-- A node of any kind but that of the entry is made under a free id and put behind all others. -/
theorem edit_createNode {kind : Json} {k : Kind} {place : PlaceArgument} {p : Position}
    (known : Kind.ofJson? kind = some k) (free : k ≠ .entry)
    (placed : place.settle = .ok (.point p)) (named : id ≠ "") (absent : id ∉ g.ids) :
    g.edit s (.createNode kind place (.str id)) =
      ⟨{ g with nodes := g.nodes ++ [⟨id, .point p, .ofKind k⟩] }, s, true,
        .ok (.node ⟨id, .point p, .ofKind k⟩)⟩ := by
  have made : Node.create kind place (.str id) s = (.ok ⟨id, .point p, .ofKind k⟩, s) := by
    have given : (Json.str id).isVoid = false := by simpa [Json.isVoid] using named
    simp only [Node.create, known, placed, given, Node.build_of_text named]
    rfl
  have other : (Node.mk id (.point p) (.ofKind k)).isEntry = false := by
    cases k <;> first | rfl | exact absurd rfl free
  have added : g.addNode ⟨id, .point p, .ofKind k⟩ =
      .ok { g with nodes := g.nodes ++ [⟨id, .point p, .ofKind k⟩] } := by
    simp [addNode, hasNode_eq_false.mpr absent, other]
  have answered : g.createNode kind place (.str id) s =
      (.ok ({ g with nodes := g.nodes ++ [⟨id, .point p, .ofKind k⟩] },
        ⟨id, .point p, .ofKind k⟩), s) := by
    simp only [createNode, known, made, Except.bind, added, Except.map]
  rw [edit, answered]
  rfl

/-- A node behind all others is deleted with the edges at it, which are those behind all others. -/
theorem deleteNode_behind {edges : List Edge} (closed : g.Closed) (absent : n.id ∉ g.ids)
    (free : n.isEntry = false) (touch : ∀ e ∈ edges, e.touches n.id = true) :
    deleteNode { g with nodes := g.nodes ++ [n], edges := g.edges ++ edges } n.id =
      .ok (g, edges) := by
  have apart (e : Edge) (member : e ∈ g.edges) : e.touches n.id = false :=
    Bool.eq_false_iff.mpr fun ends => absent (closed e member n.id ends)
  have others (m : Node) (member : m ∈ g.nodes) : m.id ≠ n.id := fun same =>
    absent (same ▸ id_mem member)
  have found :
      node? { g with nodes := g.nodes ++ [n], edges := g.edges ++ edges } n.id = some n := by
    have missing : g.nodes.find? (·.id == n.id) = none := node?_eq_none.mpr absent
    simp [node?, List.find?_append, missing]
  have required : requireFree { g with nodes := g.nodes ++ [n], edges := g.edges ++ edges } n.id
      "delete_node" "delete" = .ok n := requireFree_eq_ok.mpr ⟨found, free⟩
  have kept : (g.nodes ++ [n]).filter (·.id != n.id) = g.nodes := by
    simpa [List.filter_append] using others
  have left : (g.edges ++ edges).filter (!·.touches n.id) = g.edges := by
    rw [List.filter_append, List.filter_eq_self.mpr fun e member => by simp [apart e member],
      List.filter_eq_nil_iff.mpr fun e member => by simp [touch e member], List.append_nil]
  have gone : (g.edges ++ edges).filter (·.touches n.id) = edges := by
    rw [List.filter_append, List.filter_eq_nil_iff.mpr fun e member => by simp [apart e member],
      List.filter_eq_self.mpr touch, List.nil_append]
  rw [deleteNode, required]
  simp only [kept, left, gone]
  rfl

/-- A new node that is deleted again leaves the graph as it was, whatever was connected to it in the
meantime.  Deleting answers the edges that were added since then, in the order in which they were
added; connections that failed or were there already add none. -/
theorem delete_created (steps : ReflTransGen Step Graph.empty g) {kind : Json} {k : Kind}
    {place : PlaceArgument} {p : Position} {links : List Edit}
    (known : Kind.ofJson? kind = some k) (free : k ≠ .entry)
    (placed : place.settle = .ok (.point p)) (named : id ≠ "") (absent : id ∉ g.ids)
    (connect : ∀ e ∈ links, e.ConnectsAt id) :
    let created := g.edit s (.createNode kind place (.str id))
    let linked := created.graph.after created.supply links
    let added := created.graph.added created.supply links
    let deleted := linked.edit created.supply (.deleteNode id)
    created.answer = .ok (.node ⟨id, .point p, .ofKind k⟩) ∧
      linked.edges = g.edges ++ added ∧
      deleted.answer = .ok (.edges added) ∧ deleted.graph = g := by
  intro created linked added deleted
  have made : created = _ := edit_createNode known free placed named absent
  obtain ⟨result, touch⟩ := after_connectsAt (g := created.graph) (s := created.supply) connect
  have linking : linked = { g with
      nodes := g.nodes ++ [⟨id, .point p, .ofKind k⟩], edges := g.edges ++ added } :=
    result.trans
      (congrArg (fun r : Edited => { r.graph with edges := r.graph.edges ++ added }) made)
  have other : (Node.mk id (.point p) (.ofKind k)).isEntry = false := by
    cases k <;> first | rfl | exact absurd rfl free
  have gone : linked.deleteNode id = .ok (g, added) :=
    linking ▸ deleteNode_behind (Closed.empty.run steps) absent other touch
  have final : deleted = ⟨g, created.supply, true, .ok (.edges added)⟩ := by
    simp only [deleted, edit, gone]
    rfl
  exact ⟨congrArg Edited.answer made, congrArg Graph.edges linking, congrArg Edited.answer final,
    congrArg Edited.graph final⟩

/-- Here an action is made next to a result and connected with it in both directions.  The first
connection is made once more, and one from the entry is refused. -/
theorem delete_created_of_links :
    let edits : List Edit := [
      .createNode (.str "result") .omitted (.str "hello"),
      .connect Node.entryId "initial_target" "hello" "node_trigger"]
    let links : List Edit := [
      .connect "hello" "result_actions" "leave" "action_owner",
      .connect "leave" "action_result" "hello" "node_trigger",
      .connect "hello" "result_actions" "leave" "action_owner",
      .connect Node.entryId "initial_target" "leave" "node_trigger"]
    let g := Graph.empty.after (.countingFrom 0) edits
    let created := g.edit (.countingFrom 0)
      (.createNode (.str "action") (.coordinates [.float .zero, .float .zero]) (.str "leave"))
    let linked := created.graph.after created.supply links
    let deleted := linked.edit created.supply (.deleteNode "leave")
    ReflTransGen Step Graph.empty g ∧ "leave" ∉ g.ids ∧ (∀ e ∈ links, e.ConnectsAt "leave") ∧
      created.graph.added created.supply links = [
        .make "hello" "result_actions" "leave" "action_owner",
        .make "leave" "action_result" "hello" "node_trigger"] ∧
      created.answer = .ok (.node ⟨"leave", .point {}, .action {}⟩) ∧
      linked.edges = g.edges ++ created.graph.added created.supply links ∧
      deleted.answer = .ok (.edges (created.graph.added created.supply links)) ∧
      deleted.graph = g := by
  intro edits links g created linked deleted
  have new : Graph.empty.RunsNew (.countingFrom 0) edits := by
    refine ⟨trivial, ?_, trivial, ?_, trivial⟩ <;> decide
  have steps : ReflTransGen Step Graph.empty g := (Reached.after .refl new).steps
  have absent : "leave" ∉ g.ids := by decide
  have connect : ∀ e ∈ links, e.ConnectsAt "leave" := by decide
  exact ⟨steps, absent, connect, by decide,
    delete_created (k := .action) steps rfl (by decide) rfl (by decide) absent connect⟩

end Graph

end Parley
