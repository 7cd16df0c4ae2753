import Parley.Proofs.Document.Loaded

/-!
# The audit of what is loaded

References are loaded as they come, so an edge may lead to a node of the wrong kind: a result may
offer a result, and an action may lead to the entry.  Nothing else goes wrong, whatever the value is
that was loaded.  There is one entry, ids and edge ids are distinct, edges run between nodes of the
graph, and an output that holds one edge has at most one.  So the violations of a loaded graph are
its edges to nodes of the wrong kind, each of them once.
-/

namespace Parley

/-- A list without repetitions in which all items are the same has at most one. -/
theorem length_le_one {α : Type} {l : List α} (distinct : l.Nodup)
    (same : ∀ a ∈ l, ∀ b ∈ l, a = b) : l.length ≤ 1 := by
  match l with
  | [] => exact Nat.zero_le 1
  | [_] => exact Nat.le_refl 1
  | a :: b :: rest =>
      have equal : a = b := same a (by simp) b (by simp)
      simp [equal] at distinct

namespace Port

/-- Whether a node of a kind is the wrong one for an edge that leaves a row: a result offers
actions, and an action or a branch leads to a result or a conditional. -/
def misleads (handle : String) (kind : Kind) : Bool :=
  (handle == resultActions.name && kind != .action) ||
    ([actionResult, conditionTrue, conditionFalse].any (·.name == handle) &&
      kind != .result && kind != .conditional)

variable {source target : Kind} {output : Port}

/-- An output of a node fits at its input, wherever there is one. -/
theorem problem?_of_output (leaves : output ∈ outputs source) :
    problem? source output.name target output.input.name =
      if output.input ∈ inputs target then none else some (.noInput target output.input.name) := by
  have found : (outputs source).find? (·.name == output.name) = some output := by
    cases found : (outputs source).find? (·.name == output.name) with
    | none => simpa using List.find?_eq_none.mp found output leaves
    | some p => rw [name_injective (p := p) (by simpa using List.find?_some found)]
  have named : (inputs target).any (·.name == output.input.name) = true ↔
      output.input ∈ inputs target := by
    rw [List.any_eq_true]
    constructor
    · rintro ⟨p, member, same⟩
      exact name_injective (p := p) (by simpa using same) ▸ member
    · exact fun member => ⟨_, member, beq_self_eq_true _⟩
  by_cases member : output.input ∈ inputs target
  · simp [problem?, found, named.mpr member, targets_of_mem_outputs leaves, member]
  · have missing : (inputs target).any (·.name == output.input.name) = false :=
      Bool.eq_false_iff.mpr (mt named.mp member)
    simp [problem?, found, missing, member]

/-- Where a row is left, the wrong nodes are those without the input. -/
theorem misleads_iff (leaves : output ∈ outputs source) (row : source ≠ .entry) :
    misleads output.name target = true ↔ output.input ∉ inputs target := by
  cases source with
  | entry => exact absurd rfl row
  | _ =>
      simp only [outputs, List.mem_cons, List.not_mem_nil, or_false] at leaves
      rcases leaves with rfl | rfl <;> cases target <;> decide

end Port

namespace Graph

/-- What holds of a graph that is made of rows with distinct ids, wherever its edges lead. -/
structure Intact (g : Graph) : Prop where
  /-- There is one entry, under its id. -/
  start : g.nodes.filter Node.isEntry = [Node.entry]
  entryId : g.entryId = Node.entryId
  distinct : g.ids.Nodup
  ends : ∀ e ∈ g.edges, e.source ∈ g.ids ∧ e.target ∈ g.ids
  spelled : ∀ e ∈ g.edges, e.id = Edge.idOf e.source e.sourceHandle e.target e.targetHandle
  edgesDistinct : (g.edges.map (·.id)).Nodup
  /-- An output that holds one edge has at most one. -/
  single : ∀ id, ∀ port ∈ Port.singles, (g.edgesFrom id (some port.name)).length ≤ 1

/-- The kind of the node that an edge leads to, if that is the wrong one. -/
def wrongKind? (g : Graph) (e : Edge) : Option Kind :=
  ((g.node? e.target).map Node.kind).filter (Port.misleads e.sourceHandle)

/-- What is reported of an edge at a position that leads to a node of the wrong kind. -/
def misleading (position : Nat) (e : Edge) (kind : Kind) : String :=
  "Edge " ++ Text.ofNat position ++ " (" ++ e.id ++ "): " ++
    (Port.Problem.noInput kind e.targetHandle).message

end Graph

namespace Document.Links

variable {d : Document} {e x : Edge}

/-- An output that holds one edge belongs to one reference. -/
theorem eq_of_single (link : d.Links e) (other : d.Links x) (distinct : d.rowIds.Nodup)
    (single : Port.isSingle e.sourceHandle = true) (same : x.source = e.source)
    (leaves : x.sourceHandle = e.sourceHandle) : x = e := by
  have conditions : (d.conditions.map (·.id)).Nodup :=
    (List.nodup_append.mp (List.nodup_append.mp distinct).1).2.1
  have actions : (d.actions.map (·.id)).Nodup := (List.nodup_append.mp distinct).2.1
  cases link with
  | entry row => exact other.of_initialTarget leaves
  | offer r row id listed =>
      exact absurd single (show ¬ Port.isSingle Port.resultActions.name = true by decide)
  | branch r row port t branch =>
      obtain ⟨q, there, u, reached, rfl⟩ :=
        other.of_branch (ConditionRow.branch_output branch) leaves
      obtain rfl := List.inj_on_of_nodup_map conditions row there same.symm
      rw [ConditionRow.branch_unique reached branch]
  | target r row t given =>
      obtain ⟨q, there, u, reached, rfl⟩ := other.of_actionResult leaves
      obtain rfl := List.inj_on_of_nodup_map actions row there same.symm
      rw [Option.some.inj (reached.symm.trans given)]

/-- An edge leaves the node of its row, or the entry, from an output of that node. -/
theorem exists_source (link : d.Links e) : ∃ n ∈ Load.nodes d, ∃ output ∈ Port.outputs n.kind,
    e = .join n.id output e.target output.input := by
  cases link with
  | entry row =>
      exact ⟨.entry, Load.mem_nodes.mpr (.inl rfl), .initialTarget, by decide, rfl⟩
  | offer r row id listed =>
      exact ⟨Load.resultNode r, Load.mem_nodes.mpr (.inr (.inl ⟨r, row, rfl⟩)), .resultActions,
        List.mem_singleton_self _, rfl⟩
  | branch r row port t branch =>
      refine ⟨Load.conditionNode r, Load.mem_nodes.mpr (.inr (.inr (.inl ⟨r, row, rfl⟩))), port,
        ConditionRow.branch_output branch, ?_⟩
      rcases ConditionRow.mem_branches.mp branch with ⟨rfl, -⟩ | ⟨rfl, -⟩ <;> rfl
  | target r row t given =>
      exact ⟨Load.actionNode r, Load.mem_nodes.mpr (.inr (.inr (.inr ⟨r, row, rfl⟩))),
        .actionResult, List.mem_singleton_self _, rfl⟩

/-- The edge from the entry leads to a node with a trigger. -/
theorem exists_trigger (link : d.Links e) (leaves : e.sourceHandle = Port.initialTarget.name) :
    ∃ n ∈ Load.nodes d, n.id = e.target ∧ .nodeTrigger ∈ Port.inputs n.kind := by
  cases link with
  | entry row =>
      rcases List.mem_append.mp row with row | row
      · obtain ⟨r, there, same⟩ := List.mem_map.mp row
        exact ⟨Load.resultNode r, Load.mem_nodes.mpr (.inr (.inl ⟨r, there, rfl⟩)), same,
          List.mem_singleton_self _⟩
      · obtain ⟨r, there, same⟩ := List.mem_map.mp row
        exact ⟨Load.conditionNode r, Load.mem_nodes.mpr (.inr (.inr (.inl ⟨r, there, rfl⟩))),
          same, List.mem_singleton_self _⟩
  | branch r row port t branch =>
      exact absurd (Port.name_injective leaves)
        (ConditionRow.branch_ne branch (by decide) (by decide))
  | _ => exact absurd leaves (by simp [Port.name])

end Document.Links

namespace Load

variable {d : Document} {e : Edge} {version : Nat}

/-- The graph of a document. -/
def graph (d : Document) : Graph := ⟨nodes d, keptEdges d, Node.entryId⟩

theorem graph_ids (d : Document) : (graph d).ids = Node.entryId :: d.rowIds := nodes_ids d

/-- An edge that is kept is that of a reference, and both of its ends are nodes. -/
theorem mem_keptEdges (member : e ∈ keptEdges d) :
    d.Links e ∧ e.source ∈ (graph d).ids ∧ e.target ∈ (graph d).ids := by
  obtain ⟨stored, joined⟩ := List.mem_filter.mp ((distinct_sublist _ _).subset member)
  rw [joins, Bool.and_eq_true, List.contains_iff_mem, List.contains_iff_mem] at joined
  exact ⟨mem_edges.mp stored, joined⟩

section Audit

variable (unshared : (Node.entryId :: d.rowIds).Nodup)

include unshared

theorem graph_distinct : (graph d).ids.Nodup := graph_ids d ▸ unshared

/-- The violation of an edge that is kept is that its target is of the wrong kind. -/
theorem edgeViolations_graph (position : Nat) (member : e ∈ keptEdges d) :
    (graph d).edgeViolations position e =
      (((graph d).wrongKind? e).map (Graph.misleading position e)).toList := by
  obtain ⟨link, -, reached⟩ := mem_keptEdges member
  obtain ⟨source, there, output, leaves, joined⟩ := link.exists_source
  obtain ⟨target, known, named⟩ := Graph.mem_ids.mp reached
  have distinct := graph_distinct unshared
  have hsource : (graph d).node? e.source = some source :=
    (Graph.node?_eq_some distinct).mpr ⟨there, by rw [joined]; rfl⟩
  have htarget : (graph d).node? e.target = some target :=
    (Graph.node?_eq_some distinct).mpr ⟨known, named⟩
  have sourceHandle : e.sourceHandle = output.name := by rw [joined]; rfl
  have targetHandle : e.targetHandle = output.input.name := by rw [joined]; rfl
  have wrong : Port.misleads output.name target.kind = true ↔
      output.input ∉ Port.inputs target.kind := by
    by_cases row : source.kind = .entry
    · obtain rfl : output = .initialTarget := by simpa [Port.outputs, row] using leaves
      obtain ⟨n, start, same, trigger⟩ := link.exists_trigger sourceHandle
      obtain rfl := Graph.eq_of_id_eq distinct known start (named.trans same.symm)
      have fits : Port.misleads Port.initialTarget.name target.kind = false := by
        cases target.kind <;> decide
      simpa [fits, Port.input] using trigger
    · exact Port.misleads_iff leaves row
  have kind : (graph d).wrongKind? e =
      if output.input ∈ Port.inputs target.kind then none else some target.kind := by
    rw [Graph.wrongKind?, htarget, sourceHandle, Option.map_some, Option.filter_some]
    by_cases fits : output.input ∈ Port.inputs target.kind
    · rw [if_neg (mt wrong.mp (not_not_intro fits)), if_pos fits]
    · rw [if_pos (wrong.mpr fits), if_neg fits]
  simp only [Graph.edgeViolations, hsource, htarget, sourceHandle, targetHandle,
    Port.problem?_of_output leaves, kind]
  by_cases fits : output.input ∈ Port.inputs target.kind
  · simp only [if_pos fits, Option.map_none, Option.toList_none]
  · simp only [if_neg fits, Option.map_some, Option.toList_some, Graph.misleading, targetHandle]

/-- What is reported of the graph of a document are its edges to nodes of the wrong kind. -/
theorem violations_graph : (graph d).violations = (graph d).edges.zipIdx.filterMap fun e =>
    ((graph d).wrongKind? e.1).map (Graph.misleading e.2 e.1) := by
  rw [Graph.violations, List.filterMap_eq_flatMap_toList]
  apply List.flatMap_congr
  intro e member
  exact edgeViolations_graph unshared e.2 (List.fst_mem_of_mem_zipIdx member)

theorem graph_intact : (graph d).Intact where
  start := by
    have rows : (d.results.map resultNode ++ d.conditions.map conditionNode ++
        d.actions.map actionNode).filter Node.isEntry = [] := by
      simp [List.filter_eq_nil_iff, Node.isEntry, Node.kind, Payload.kind, resultNode,
        conditionNode, actionNode]
    exact congrArg (Node.entry :: ·) rows
  entryId := rfl
  distinct := graph_distinct unshared
  ends e member := (mem_keptEdges member).2
  spelled e member := by
    obtain ⟨n, -, output, -, joined⟩ := (mem_keptEdges member).1.exists_source
    rw [joined]
    rfl
  edgesDistinct := (distinct_ids [] _).1
  single id port holdsOne := by
    apply length_le_one (List.Nodup.filter _ (List.Nodup.of_map _ (distinct_ids [] _).1))
    intro x hx e he
    simp only [List.mem_filter, Bool.and_eq_true, beq_iff_eq, Option.isNone_some, Bool.false_or,
      Option.some.injEq] at hx he
    have link := (mem_keptEdges he.1).1
    refine link.eq_of_single (mem_keptEdges hx.1).1 (List.nodup_cons.mp unshared).2 ?_
      (hx.2.1.trans he.2.1.symm) (hx.2.2.symm.trans he.2.2)
    exact Port.isSingle_iff.mpr ⟨port, holdsOne, he.2.2⟩

end Audit

end Load

/-- Whatever value is loaded, the graph is intact, and its violations are its edges to nodes of the
wrong kind, each of them once and nothing else. -/
theorem load_audit {v : Json} {l : Loaded} {events : List Log.Event}
    (h : load v = (.ok (.ok l), events)) :
    l.graph.Intact ∧ l.graph.violations = l.graph.edges.zipIdx.filterMap fun e =>
      (l.graph.wrongKind? e.1).map (Graph.misleading e.2 e.1) := by
  obtain ⟨d, version, -, -, unshared, rfl, -⟩ := Load.load_eq_ok h
  exact ⟨Load.graph_intact unshared, Load.violations_graph unshared⟩

/-- Here a result offers itself and somebody who does not exist, and an action leads to the
entry. -/
theorem load_audit_of_misleading :
    let v := Json.obj [
      ("actions", .arr [.obj [("id", .str "leave"),
        ("target", .obj [("id", .str "initial"), ("type", .str "result")])]]),
      ("results", .arr [.obj [("id", .str "hello"),
        ("actions", .arr [.str "hello", .str "nobody", .str "leave"])]]),
      ("initial", .obj [("id", .str "hello"), ("type", .str "result")])]
    ∃ l events, load v = (.ok (.ok l), events) ∧
      (l.graph.Intact ∧ l.graph.violations = l.graph.edges.zipIdx.filterMap fun e =>
        (l.graph.wrongKind? e.1).map (Graph.misleading e.2 e.1)) ∧
      l.graph.violations = [
        "Edge 1 (xy-edge__helloresult_actions-helloaction_owner): " ++
          "result node has no input port 'action_owner'",
        "Edge 3 (xy-edge__leaveaction_result-initialnode_trigger): " ++
          "initial node has no input port 'node_trigger'"] := by
  intro v
  exact ⟨_, _, rfl, load_audit (v := v) rfl, by decide +kernel⟩

end Parley
