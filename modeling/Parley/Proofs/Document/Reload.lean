import Parley.Proofs.Document.Compiled
import Parley.Proofs.Graph.Sound

/-!
# Compiling and loading again

Loading the document of a graph gives the graph back but for what the compiler left out.  For a
sound graph that is no more than the dropped conditionals with the edges at them and the stored
orders of actions.  For any graph that can be edited, compiling what was loaded gives the same
document once more.
-/

namespace Parley

open Compile

open Relation (ReflTransGen)

/-- The data of a node without the order in which a result lists its actions. -/
def Payload.unordered : Payload → Payload
  | .result d => .result { d with order := [] }
  | payload => payload

theorem Payload.kind_unordered (payload : Payload) : payload.unordered.kind = payload.kind := by
  cases payload <;> rfl

section Regular

variable {g : Graph} (h : g.Regular) {npc : String} {interaction : Option Interaction}
  {d : Document} {ws : List Check}
  (compiled : compile g.nodes g.edges npc interaction = .compiled d ws)

include h compiled

theorem compiled_canonical : d.Canonical := by
  obtain ⟨initial, begins, rfl, -⟩ := compile_eq_compiled.mp compiled
  exact h.canonical begins

/-- The document of a regular graph is loaded as a whole. -/
theorem load_compiled :
    load d.toJson = (.ok (.ok ⟨⟨Load.nodes d, Load.edges d, Node.entryId⟩, npc, interaction,
      currentVersion⟩), [Load.loadedEvent d currentVersion (Load.edges d)]) := by
  have loaded := (compiled_canonical h compiled).load_toJson
  obtain ⟨initial, -, rfl, -⟩ := compile_eq_compiled.mp compiled
  exact loaded

/-- All nodes are loaded again but the conditionals that were dropped. -/
theorem mem_loaded_ids (id : String) : id ∈ (Load.nodes d).map (·.id) ↔
    id ∈ g.ids ∧ id ∉ droppedIds ws := by
  obtain ⟨initial, begins, rfl, rfl⟩ := compile_eq_compiled.mp compiled
  obtain ⟨entry, found, -⟩ := initial_eq_ok.mp begins
  have there : entry ∈ g.nodes := List.mem_of_find?_eq_some found
  have isEntry : entry.isEntry = true := List.find?_some found
  have named := h.entry entry there isEntry
  rw [Load.nodes_ids, List.mem_cons, mem_rowIds, mem_droppedIds, mem_conditionals]
  constructor
  · rintro (rfl | ⟨n, member, rfl, free, kept⟩)
    · refine ⟨named ▸ Graph.id_mem there, ?_⟩
      rintro ⟨⟨m, member, same, kind⟩, -⟩
      rw [Graph.eq_of_id_eq h.distinct there member (named.trans same.symm), Node.isEntry,
        kind] at isEntry
      cases isEntry
    · refine ⟨Graph.id_mem member, ?_⟩
      rintro ⟨⟨m, other, same, kind⟩, gone⟩
      rw [Graph.eq_of_id_eq h.distinct other member same] at kind
      exact gone (kept kind)
  · rintro ⟨listed, undropped⟩
    obtain ⟨n, member, rfl⟩ := Graph.mem_ids.mp listed
    by_cases start : n.isEntry = true
    · exact .inl (h.entry n member start)
    · refine .inr ⟨n, member, rfl, Bool.eq_false_iff.mpr start, fun kind => ?_⟩
      by_contra gone
      exact undropped ⟨⟨n, member, rfl, kind⟩, gone⟩

/-- The edges that are loaded again are edges of the graph, and none of them touches a conditional
that was dropped. -/
theorem mem_of_mem_loaded {e : Edge} (member : e ∈ Load.edges d) :
    e ∈ g.edges ∧ ∀ id ∈ droppedIds ws, e.touches id = false := by
  have canonical := compiled_canonical h compiled
  have link := Load.mem_edges.mp member
  obtain ⟨source, target⟩ := canonical.ends link
  have target := List.mem_cons_of_mem Node.entryId target
  rw [← List.mem_cons, ← Load.nodes_ids, mem_loaded_ids h compiled] at source
  rw [← Load.nodes_ids, mem_loaded_ids h compiled] at target
  constructor
  · obtain ⟨initial, begins, rfl, -⟩ := compile_eq_compiled.mp compiled
    exact h.mem_of_links begins link
  · intro id dropped
    have leaves : e.source ≠ id := fun same => source.2 (same ▸ dropped)
    have reaches : e.target ≠ id := fun same => target.2 (same ▸ dropped)
    simp [Edge.touches, leaves, reaches]

end Regular

section Sound

variable {g : Graph} (h : g.Sound) {npc : String} {interaction : Option Interaction}
  {d : Document} {ws : List Check}

include h

theorem point_pointOf {n : Node} (member : n ∈ g.nodes) : .point (pointOf n) = n.position := by
  obtain ⟨p, placed⟩ := h.placed n member
  simp [pointOf, placed, Placement.toPosition]

/-- An output that holds one edge is where that edge is found. -/
theorem first?_eq_of_single {e : Edge} {port : Port} (member : e ∈ g.edges)
    (leaves : e.sourceHandle = port.name) (single : port ∈ Port.singles) :
    first? g.edges e.source port = some e.target := by
  apply first?_eq_target member leaves
  intro x other same output
  have here : e ∈ g.edgesFrom e.source (some port.name) :=
    List.mem_filter.mpr ⟨member, by simp [leaves]⟩
  have there : x ∈ g.edgesFrom e.source (some port.name) :=
    List.mem_filter.mpr ⟨other, by simp [same, output]⟩
  have few := h.single e.source port single
  match edges : g.edgesFrom e.source (some port.name) with
  | [] => rw [edges] at here; cases here
  | [y] =>
      rw [edges, List.mem_singleton] at here there
      rw [here, there]
  | y :: z :: rest => simp [edges] at few

/-- Each node that is loaded again is as it was in the graph, but for the order of a result. -/
theorem loaded_node (compiled : compile g.nodes g.edges npc interaction = .compiled d ws) {n : Node}
    (member : n ∈ Load.nodes d) : ∃ m, g.node? n.id = some m ∧ n.kind = m.kind ∧
      n.position = m.position ∧ n.payload.unordered = m.payload.unordered := by
  obtain ⟨initial, begins, rfl, -⟩ := compile_eq_compiled.mp compiled
  -- A node of a row differs from the node that the row was made of in the order alone.
  have unchanged {m : Node} (there : m ∈ g.nodes) (named : n.id = m.id)
      (placed : n.position = .point (pointOf m))
      (data : n.payload.unordered = m.payload.unordered) : ∃ m, g.node? n.id = some m ∧
        n.kind = m.kind ∧ n.position = m.position ∧ n.payload.unordered = m.payload.unordered := by
    refine ⟨m, named ▸ Graph.node?_of_mem h.distinct there, ?_, ?_, data⟩
    · rw [Node.kind, Node.kind, ← Payload.kind_unordered, data, Payload.kind_unordered]
    · rw [placed, point_pointOf h there]
  rcases Load.mem_nodes.mp member with rfl | ⟨r, row, rfl⟩ | ⟨r, row, rfl⟩ | ⟨r, row, rfl⟩
  · have there : Node.entry ∈ g.nodes.filter Node.isEntry := by simp [h.start]
    exact unchanged (List.mem_filter.mp there).1 rfl rfl rfl
  · obtain ⟨m, there, data, payload, rfl⟩ := mem_resultRows.mp row
    exact unchanged there rfl rfl (payload ▸ rfl)
  · obtain ⟨m, there, data, payload, -, made⟩ := mem_conditionRows.mp row
    obtain ⟨onTrue, onFalse, -, -, rfl⟩ := conditionRow?_eq_some.mp made
    exact unchanged there rfl rfl (payload ▸ rfl)
  · obtain ⟨m, there, data, payload, rfl⟩ := mem_actionRows.mp row
    exact unchanged there rfl rfl (payload ▸ rfl)

/-- A reference can be made to a node with a trigger, unless it was dropped. -/
theorem ref?_of_undropped {n : Node} (member : n ∈ g.nodes)
    (trigger : .nodeTrigger ∈ Port.inputs n.kind)
    (undropped : n.id ∉ droppedIds (warnings g.nodes g.edges (Survey.ofGraph g.nodes g.edges))) :
    ∃ type, ref? g.nodes (Survey.ofGraph g.nodes g.edges).kept (some n.id) =
      some ⟨n.id, type⟩ := by
  refine ref?_of_trigger h.distinct member trigger fun kind => ?_
  by_contra gone
  exact undropped (mem_droppedIds.mpr ⟨mem_conditionals.mpr ⟨n, member, rfl, kind⟩, gone⟩)

/-- The edge from the entry leads to where the dialogue begins. -/
theorem links_initialTarget {start : Ref} {n : Node} {target : String}
    (begins : initial g.nodes g.edges (Survey.ofGraph g.nodes g.edges).kept = .ok start)
    (member : n ∈ g.nodes) (isEntry : n.isEntry = true)
    (led : first? g.edges n.id .initialTarget = some target) :
    (documentOf g.nodes g.edges npc interaction start).Links
      (.join n.id .initialTarget target .nodeTrigger) := by
  obtain ⟨entry, found, made⟩ := initial_eq_ok.mp begins
  have begun : entry.id = Node.entryId :=
    h.entry entry (List.mem_of_find?_eq_some found) (List.find?_some found)
  have first : n.id = Node.entryId := h.entry n member isEntry
  have same : target = start.id := by
    have reached := (ref?_eq_some.mp made).1
    rw [begun, ← first, led] at reached
    exact Option.some.inj reached
  rw [first, same]
  exact .entry ((h.toRegular.canonical begins).ref_mem Document.initial_mem_references)

/-- Each edge that touches no dropped conditional is loaded again.  On an output that holds one edge
it is the one that the compiler found, and a result offers all of its edges. -/
theorem mem_loaded_of_mem (compiled : compile g.nodes g.edges npc interaction = .compiled d ws)
    {e : Edge} (member : e ∈ g.edges) (apart : ∀ id ∈ droppedIds ws, e.touches id = false) :
    e ∈ Load.edges d := by
  obtain ⟨initial, begins, rfl, rfl⟩ := compile_eq_compiled.mp compiled
  obtain ⟨⟨source, target, hsource, htarget, legal⟩, -, -⟩ := h.fits e member
  obtain ⟨output, leaves, named, reaches, -⟩ := Port.problem?_eq_none.mp legal
  have hs := Graph.node?_mem hsource
  have ht := Graph.node?_mem htarget
  have joined := h.toRegular.eq_join member named.symm
  rw [← Graph.node?_id hsource, ← Graph.node?_id htarget] at joined
  subst joined
  have sourceUndropped : source.id ∉ droppedIds (warnings g.nodes g.edges _) := fun dropped => by
    simpa [Edge.touches] using apart source.id dropped
  have targetUndropped : target.id ∉ droppedIds (warnings g.nodes g.edges _) := fun dropped => by
    simpa [Edge.touches] using apart target.id dropped
  have led (single : output ∈ Port.singles) : first? g.edges source.id output = some target.id :=
    first?_eq_of_single h member rfl single
  rw [Load.mem_edges]
  cases data : source.payload with
  | entry draggable deletable =>
      have kind : source.kind = .entry := by rw [Node.kind, data]; rfl
      obtain rfl : output = .initialTarget := by simpa [Port.outputs, kind] using leaves
      exact links_initialTarget h begins hs (by simp [Node.isEntry, kind]) (led (by decide))
  | action a =>
      have kind : source.kind = .action := by rw [Node.kind, data]; rfl
      obtain rfl : output = .actionResult := by simpa [Port.outputs, kind] using leaves
      obtain ⟨type, made⟩ := ref?_of_undropped h ht reaches targetUndropped
      exact links_actionResult hs data (led (by decide)) made
  | result r =>
      have kind : source.kind = .result := by rw [Node.kind, data]; rfl
      obtain rfl : output = .resultActions := by simpa [Port.outputs, kind] using leaves
      have owner : target.kind = .action := by
        cases reached : target.kind <;> simp [Port.inputs, Port.input, reached] at reaches ⊢
      have offers : target.id ∈ all g.edges source.id .resultActions :=
        mem_all.mpr ⟨_, member, rfl, rfl, rfl⟩
      exact links_resultActions hs data offers
        ((kind?_eq_some h.distinct).mpr ⟨target, ht, rfl, owner⟩)
  | conditional c =>
      have kind : source.kind = .conditional := by rw [Node.kind, data]; rfl
      have kept : source.id ∈ (Survey.ofGraph g.nodes g.edges).kept := by
        by_contra gone
        exact sourceUndropped
          (mem_droppedIds.mpr ⟨mem_conditionals.mpr ⟨source, hs, rfl, kind⟩, gone⟩)
      obtain rfl | rfl : output = .conditionTrue ∨ output = .conditionFalse := by
        simpa [Port.outputs, kind] using leaves
      · exact links_branch hs data kept (by decide) (led (by decide))
      · exact links_branch hs data kept (by decide) (led (by decide))

end Sound

/-- Loading undoes compiling up to the conditionals that the compiler drops.  In any graph that is
reached the same nodes are found again, but for the dropped conditionals, with the same data but for
the order of a result, and the same edges, but for those that touch a dropped conditional. -/
theorem load_undoes_compile {g : Graph} {npc : String} {interaction : Option Interaction}
    {d : Document} {ws : List Check} (run : g.Reached)
    (compiled : compile g.nodes g.edges npc interaction = .compiled d ws) :
    ∃ l events, load d.toJson = (.ok (.ok l), events) ∧ l.graph.ids.Nodup ∧
      (∀ id, id ∈ l.graph.ids ↔ id ∈ g.ids ∧ id ∉ droppedIds ws) ∧
      (∀ n ∈ l.graph.nodes, ∃ m, g.node? n.id = some m ∧ n.kind = m.kind ∧
        n.position = m.position ∧ n.payload.unordered = m.payload.unordered) ∧
      ∀ e, e ∈ l.graph.edges ↔ e ∈ g.edges ∧ ∀ id ∈ droppedIds ws, e.touches id = false := by
  have h := run.sound
  refine ⟨_, _, load_compiled h.toRegular compiled,
    (compiled_canonical h.toRegular compiled).nodes_distinct,
    mem_loaded_ids h.toRegular compiled, fun n member => loaded_node h compiled member,
    fun e => ⟨?_, ?_⟩⟩
  · exact mem_of_mem_loaded h.toRegular compiled
  · rintro ⟨member, apart⟩
    exact mem_loaded_of_mem h compiled member apart

/-- Here an action leads to a conditional without branches, which is dropped. -/
theorem load_undoes_compile_of_dropped :
    let edits : List Edit := [
      .createNode (.str "result") .omitted (.str "hello"),
      .createNode (.str "action") .omitted (.str "leave"),
      .createNode (.str "conditional") .omitted (.str "rich"),
      .connect Node.entryId "initial_target" "hello" "node_trigger",
      .connect "hello" "result_actions" "leave" "action_owner",
      .connect "leave" "action_result" "rich" "node_trigger"]
    let g := Graph.empty.after (.countingFrom 0) edits
    let d : Document := {
      npc := "guide"
      actions := [{ id := "leave" }]
      results := [{ id := "hello", actions := ["leave"] }]
      initial := ⟨"hello", .result⟩ }
    let ws := [
      Check.warning "dangling_action" "Action 'leave' leads to unusable node 'rich'" "leave",
      Check.warning "dropped_condition"
        "Condition 'rich' was left out: 'condition_true' is not connected" "rich"]
    compile g.nodes g.edges "guide" none = .compiled d ws ∧
      ∃ l events, load d.toJson = (.ok (.ok l), events) ∧ l.graph.ids.Nodup ∧
        (∀ id, id ∈ l.graph.ids ↔ id ∈ g.ids ∧ id ∉ droppedIds ws) ∧
        (∀ n ∈ l.graph.nodes, ∃ m, g.node? n.id = some m ∧ n.kind = m.kind ∧
          n.position = m.position ∧ n.payload.unordered = m.payload.unordered) ∧
        ∀ e, e ∈ l.graph.edges ↔
          e ∈ g.edges ∧ ∀ id ∈ droppedIds ws, e.touches id = false := by
  intro edits g d ws
  have new : Graph.empty.RunsNew (.countingFrom 0) edits := by
    refine ⟨trivial, ?_, trivial, ?_, trivial, ?_, trivial, ?_, trivial, ?_, trivial, ?_,
      trivial⟩ <;> decide
  have compiled : compile g.nodes g.edges "guide" none = .compiled d ws := by decide +kernel
  exact ⟨compiled, load_undoes_compile (Graph.Reached.after .refl new) compiled⟩

/-- Where editing begins: the empty graph, or one that was loaded from some value. -/
inductive Graph.Start : Graph → Prop
  | empty : Start .empty
  | loaded {v : Json} {l : Loaded} {events : List Log.Event} (h : load v = (.ok (.ok l), events)) :
      Start l.graph

/-- Every graph that can be edited is regular. -/
theorem Graph.Start.regular {g : Graph} (start : g.Start) : g.Regular := by
  cases start with
  | empty => exact .empty
  | loaded h => exact Load.load_regular h

/-- Compiling what was loaded is exact.  A document that was compiled from any edited graph is
loaded in the present version, with its character and placement and without a warning, and compiling
the loaded graph gives the same document. -/
theorem recompile_exact {start g : Graph} {npc : String} {interaction : Option Interaction}
    {d : Document} {ws : List Check} (begun : start.Start) (run : ReflTransGen Graph.Step start g)
    (compiled : compile g.nodes g.edges npc interaction = .compiled d ws) :
    ∃ l events, load d.toJson = (.ok (.ok l), events) ∧ l.version = 2 ∧ l.npc = npc ∧
      l.interaction = interaction ∧ (∀ e ∈ events, e.level ≠ .warning) ∧
      ∃ ws', compile l.graph.nodes l.graph.edges npc interaction = .compiled d ws' := by
  have h := begun.regular.run run
  have again := (compiled_canonical h compiled).compile_nodes
  obtain ⟨initial, -, rfl, -⟩ := compile_eq_compiled.mp compiled
  refine ⟨_, _, load_compiled h compiled, rfl, rfl, rfl, fun e member => ?_, _, again⟩
  rw [List.mem_singleton.mp member]
  show Log.Level.debug ≠ .warning
  decide

/-- Here editing begins with a document whose action leads to itself, and a choice is set that is
not offered. -/
theorem recompile_exact_of_stale :
    let loaded : Document := {
      npc := "guide"
      actions := [{ id := "leave", target := some ⟨"leave", .result⟩ }]
      results := [{ id := "hello", actions := ["leave"] }]
      initial := ⟨"hello", .result⟩ }
    let start : Graph := ⟨Load.nodes loaded, Load.edges loaded, Node.entryId⟩
    let stale : Edit := .updateData "hello" [("preferred", .str "nobody")]
    let g := (start.edit (.countingFrom 0) stale).graph
    let d : Document := {
      npc := "guide"
      actions := [{ id := "leave" }]
      results := [{ id := "hello", preferred := some "nobody", actions := ["leave"] }]
      initial := ⟨"hello", .result⟩ }
    let ws := [
      Check.warning "dangling_action" "Action 'leave' leads to unusable node 'leave'" "leave"]
    compile g.nodes g.edges "guide" none = .compiled d ws ∧
      ∃ l events, load d.toJson = (.ok (.ok l), events) ∧ l.version = 2 ∧ l.npc = "guide" ∧
        l.interaction = none ∧ (∀ e ∈ events, e.level ≠ .warning) ∧
        ∃ ws', compile l.graph.nodes l.graph.edges "guide" none = .compiled d ws' := by
  intro loaded start stale g d ws
  have loadable : loaded.Loadable := ⟨by decide, by decide, by decide, by decide, by decide⟩
  have step : Graph.Step start g := ⟨.countingFrom 0, stale, trivial, rfl⟩
  have compiled : compile g.nodes g.edges "guide" none = .compiled d ws := by decide +kernel
  exact ⟨compiled, recompile_exact (.loaded loadable.load_toJson) (.single step) compiled⟩

end Parley
