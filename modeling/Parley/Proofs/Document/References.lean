import Parley.Proofs.Document.Audit
import Parley.Proofs.Graph.Connection
import Parley.Proofs.Graph.Rooted

/-!
# What becomes of a reference

Each reference of a document stands for an edge.  Loading keeps that edge unless its target is
missing, an edge before it has the same id, or the dialogue begins at a node without a trigger.
Only a missing target is reported.  Two edges with one id take an id that holds the name of a port
with a dash behind it, and a document that begins at an action, or at the entry itself, is loaded as
one that begins nowhere; in both cases a reference is lost, and nothing is said about it.
-/

namespace Parley

namespace Document

/-- Whether an edge is what a reference stands for: the one at which the dialogue begins, whatever
it names, the target of an action, the branch of a condition or an action that a result offers. -/
def Refers (d : Document) (e : Edge) : Prop := e = .start d.initial.id ∨ d.Links e

/-- The edge of a reference that leaves the entry leads to where the dialogue begins. -/
theorem Refers.eq_initial {d : Document} {e : Edge} (refers : d.Refers e)
    (start : e = .start e.target) : e.target = d.initial.id := by
  rcases refers with rfl | link
  · rfl
  · rw [link.of_initialTarget (by rw [start]; rfl), Edge.join_target]

/-- The edge of a reference leaves a node from one of its outputs. -/
theorem Refers.exists_source {d : Document} {e : Edge} (refers : d.Refers e) :
    ∃ id ∈ (Load.graph d).ids, ∃ output : Port, e = .join id output e.target output.input := by
  rcases refers with rfl | link
  · exact ⟨Node.entryId, List.mem_cons_self, .initialTarget, rfl⟩
  · obtain ⟨n, member, output, -, joined⟩ := link.exists_source
    exact ⟨n.id, Graph.id_mem (g := Load.graph d) member, output, joined⟩

end Document

/-- Whether an event is a warning that names the edge of a reference or, where the dialogue begins,
its target. -/
def Log.Event.Names (w : Log.Event) (e : Edge) : Prop :=
  w.level = .warning ∧
    (w.name = "edge_skipped" ∧ ("edge", .str e.id) ∈ w.fields ∨
      w.name = "entry_target_missing" ∧ e = .start e.target ∧ ("target", .str e.target) ∈ w.fields)

/-- Whether a node has a trigger, so that a dialogue can begin there. -/
def Node.Triggered (n : Node) : Prop := n.kind = .result ∨ n.kind = .conditional

theorem Node.triggered_iff {n : Node} : n.Triggered ↔ .nodeTrigger ∈ Port.inputs n.kind := by
  rw [Node.Triggered]
  cases n.kind <;> decide

namespace Load

variable {d : Document} {e : Edge} {version : Nat} {n : Node}

/-- The warning on an edge that is left out. -/
def skippedEvent (e : Edge) : Log.Event :=
  ⟨Log.Logger.loader, "edge_skipped", .warning,
    [("edge", .str e.id), ("reason", .str "endpoint missing from document")]⟩

/-- The warning on a dialogue that begins at a node which does not exist. -/
def missingEvent (d : Document) : Log.Event :=
  ⟨Log.Logger.loader, "entry_target_missing", .warning, [("target", .str d.initial.id)]⟩

theorem mem_warnings {ids : List String} {w : Log.Event} : w ∈ warnings d ids ↔
    (∃ e, d.Links e ∧ joins ids e = false ∧ skippedEvent e = w) ∨
      d.initial.id ∉ ids ∧ w = missingEvent d := by
  rw [warnings, List.mem_append]
  refine or_congr ?_ ?_
  · simp only [List.mem_map, List.mem_filter, mem_edges, Bool.not_eq_true', and_assoc,
      skippedEvent]
  · by_cases known : d.initial.id ∈ ids <;> simp [known, missingEvent]

theorem names_skippedEvent (e : Edge) : (skippedEvent e).Names e :=
  ⟨rfl, .inl ⟨rfl, List.mem_cons_self⟩⟩

theorem names_missingEvent (d : Document) : (missingEvent d).Names (.start d.initial.id) :=
  ⟨rfl, .inr ⟨rfl, rfl, List.mem_cons_self⟩⟩

/-- A reference whose target is missing is reported. -/
theorem exists_warning (refers : d.Refers e) (missing : e.target ∉ (graph d).ids) :
    ∃ w ∈ warnings d (graph d).ids, w.Names e := by
  rcases refers with rfl | link
  · exact ⟨_, mem_warnings.mpr (.inr ⟨missing, rfl⟩), names_missingEvent d⟩
  · have apart : joins (graph d).ids e = false := by simp [joins, missing]
    exact ⟨_, mem_warnings.mpr (.inl ⟨e, link, apart, rfl⟩), names_skippedEvent e⟩

/-- A node with a trigger is that of a result or of a condition. -/
theorem row_of_triggered (member : n ∈ nodes d) (trigger : n.Triggered) :
    n.id ∈ d.results.map (·.id) ++ d.conditions.map (·.id) := by
  rcases mem_nodes.mp member with rfl | ⟨r, row, rfl⟩ | ⟨r, row, rfl⟩ | ⟨r, row, rfl⟩
  · exact trigger.elim nofun nofun
  · exact List.mem_append_left _ (List.mem_map_of_mem row)
  · exact List.mem_append_right _ (List.mem_map_of_mem row)
  · exact trigger.elim nofun nofun

/-- The edge of a reference is kept if its target is a node, which has a trigger where the dialogue
begins, and no other edge that is kept has its id. -/
theorem mem_keptEdges_iff (unshared : (Node.entryId :: d.rowIds).Nodup) (refers : d.Refers e) :
    e ∈ keptEdges d ↔ e.target ∈ (graph d).ids ∧ (∀ x ∈ keptEdges d, x.id = e.id → x = e) ∧
      (e = .start e.target → ∀ n, (graph d).node? e.target = some n → n.Triggered) := by
  have distinct := graph_distinct unshared
  constructor
  · intro member
    obtain ⟨link, -, reached⟩ := mem_keptEdges member
    refine ⟨reached, fun x other same => ?_, fun start n found => ?_⟩
    · exact List.inj_on_of_nodup_map (distinct_ids [] _).1 other member same
    · obtain ⟨m, there, named, trigger⟩ := link.exists_trigger (by rw [start]; rfl)
      have found' : (graph d).node? e.target = some m :=
        (Graph.node?_eq_some distinct).mpr ⟨there, named⟩
      exact Option.some.inj (found'.symm.trans found) ▸ Node.triggered_iff.mpr trigger
  · rintro ⟨reached, only, begins⟩
    have link : d.Links e := by
      rcases refers with rfl | link
      · obtain ⟨n, member, named⟩ := Graph.mem_ids.mp reached
        have found := (Graph.node?_eq_some distinct).mpr ⟨member, named⟩
        have row := row_of_triggered member (begins rfl n found)
        rw [named] at row
        exact .entry row
      · exact link
    have leaves : e.source ∈ (graph d).ids := by
      obtain ⟨id, known, output, joined⟩ := refers.exists_source
      rwa [joined]
    have joins : joins ((nodes d).map (·.id)) e = true := by
      rw [Load.joins, Bool.and_eq_true, List.contains_iff_mem, List.contains_iff_mem]
      exact ⟨leaves, reached⟩
    have unseen : e.id ∉ ([] : List String) := List.not_mem_nil
    obtain ⟨x, kept, same⟩ := exists_mem_distinct
      (List.mem_filter.mpr ⟨mem_edges.mpr link, joins⟩) unseen
    exact only x kept same ▸ kept

/-- Where no id of a node holds the name of a port with a dash behind it, no two edges have one
id. -/
theorem eq_of_id_eq (plain : ∀ id ∈ (graph d).ids, ∀ port : Port, ¬ port.SpelledIn id) {x : Edge}
    (first : d.Refers x) (second : d.Refers e) (same : x.id = e.id) : x = e := by
  obtain ⟨s, there, p, joined⟩ := first.exists_source
  obtain ⟨t, here, q, joined'⟩ := second.exists_source
  rw [joined, joined'] at same ⊢
  rcases Edge.join_eq_of_id_eq same with equal | spelled | spelled
  · exact equal
  · exact absurd spelled (plain t here p)
  · exact absurd spelled (plain s there q)

end Load

open Load in
/-- The edge of a reference is kept exactly if its target is a node, which has a trigger where the
dialogue begins, and no other edge has its id.  It is reported if its target is missing.  So each
reference is kept or reported wherever no id of a node holds the name of a port with a dash behind
it and the dialogue does not begin at a node without a trigger. -/
theorem load_references {v : Json} {l : Loaded} {events : List Log.Event}
    (h : load v = (.ok (.ok l), events)) : ∃ d version, readDocument v = .ok (d, version) ∧
      (∀ e, d.Refers e →
        (e ∈ l.graph.edges ↔ e.target ∈ l.graph.ids ∧
          (∀ x ∈ l.graph.edges, x.id = e.id → x = e) ∧
          (e = .start e.target → ∀ n, l.graph.node? e.target = some n → n.Triggered)) ∧
        (e.target ∉ l.graph.ids → ∃ w ∈ events, w.Names e)) ∧
      ((∀ id ∈ l.graph.ids, ∀ port : Port, ¬ port.SpelledIn id) →
        (∀ n, l.graph.node? d.initial.id = some n → n.Triggered) →
        ∀ e, d.Refers e → e ∈ l.graph.edges ∨ ∃ w ∈ events, w.Names e) := by
  obtain ⟨d, version, read, -, unshared, rfl, rfl⟩ := load_eq_ok h
  have kept (e : Edge) (refers : d.Refers e) := mem_keptEdges_iff unshared refers
  have reported (e : Edge) (refers : d.Refers e) (missing : e.target ∉ (graph d).ids) :
      ∃ w ∈ events v ++ warnings d (graph d).ids ++
        [loadedEvent d version (keptEdges d)], w.Names e := by
    obtain ⟨w, there, names⟩ := exists_warning refers missing
    exact ⟨w, List.mem_append_left _ (List.mem_append_right _ there), names⟩
  refine ⟨d, version, read, fun e refers => ⟨kept e refers, reported e refers⟩, ?_⟩
  intro plain begins e refers
  by_cases known : e.target ∈ (graph d).ids
  · left
    refine (kept e refers).mpr ⟨known, fun x there same => ?_, fun start n found => ?_⟩
    · exact eq_of_id_eq plain (.inr (mem_keptEdges there).1) refers same
    · exact begins n (refers.eq_initial start ▸ found)
  · exact .inr (reported e refers known)

/-- Here a document begins at a result that offers an action and somebody who does not exist. -/
theorem load_references_of_missing :
    let v := Json.obj [
      ("actions", .arr [.obj [("id", .str "leave")]]),
      ("results", .arr [.obj [("id", .str "hello"),
        ("actions", .arr [.str "nobody", .str "leave"])]]),
      ("initial", .obj [("id", .str "hello"), ("type", .str "result")])]
    ∃ l events, load v = (.ok (.ok l), events) ∧
      ∃ d version, Load.readDocument v = .ok (d, version) ∧
        (∀ e, d.Refers e →
          (e ∈ l.graph.edges ↔ e.target ∈ l.graph.ids ∧
            (∀ x ∈ l.graph.edges, x.id = e.id → x = e) ∧
            (e = .start e.target → ∀ n, l.graph.node? e.target = some n → n.Triggered)) ∧
          (e.target ∉ l.graph.ids → ∃ w ∈ events, w.Names e)) ∧
        ((∀ id ∈ l.graph.ids, ∀ port : Port, ¬ port.SpelledIn id) →
          (∀ n, l.graph.node? d.initial.id = some n → n.Triggered) →
          ∀ e, d.Refers e → e ∈ l.graph.edges ∨ ∃ w ∈ events, w.Names e) := by
  intro v
  exact ⟨_, _, rfl, load_references (v := v) rfl⟩

/-- A document that begins at an action is loaded as one that begins nowhere, and of two actions
whose edges have one id the second one leads nowhere.  Nothing is said about either. -/
theorem load_silently :
    let v := Json.obj [
      ("actions", .arr [
        .obj [("id", .str "a"),
          ("target", .obj [("id", .str "action_result-b"), ("type", .str "result")])],
        .obj [("id", .str "aaction_result-"),
          ("target", .obj [("id", .str "b"), ("type", .str "result")])]]),
      ("results", .arr [.obj [("id", .str "action_result-b")], .obj [("id", .str "b")]]),
      ("initial", .obj [("id", .str "a"), ("type", .str "result")])]
    let start := Edge.start "a"
    let second := Edge.join "aaction_result-" .actionResult "b" .nodeTrigger
    ∃ l events d version, load v = (.ok (.ok l), events) ∧
      Load.readDocument v = .ok (d, version) ∧ d.Refers start ∧ d.Refers second ∧
      start ∉ l.graph.edges ∧ second ∉ l.graph.edges ∧ ∀ w ∈ events, w.level ≠ .warning := by
  intro v start second
  refine ⟨_, _, _, _, rfl, rfl, .inl rfl, .inr (Load.mem_edges.mp ?_), ?_, ?_, ?_⟩
  all_goals decide +kernel

end Parley
