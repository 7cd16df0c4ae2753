import Parley.Proofs.Document.Audit
import Parley.Proofs.Document.Foresight
import Parley.Proofs.Document.Outgoing
import Parley.Proofs.Document.Reload

/-!
# Exporting a graph without findings

If an inspection finds nothing, then all edges match and every conditional has both branches.  So
nothing is doomed, also where conditionals lead to each other in a circle or several edges leave an
output that should hold one, and the whole graph is exported.  This holds of every graph that there
can be: one that was loaded, one that was built or stored with any edges, and what editing makes of
them.
-/

namespace Parley

open Compile

namespace Graph

variable {g : Graph}

theorem Intact.entered (intact : g.Intact) (placed : ∀ n ∈ g.nodes, ∃ p, n.position = .point p) :
    g.Entered where
  distinct := intact.distinct
  start := ⟨Node.entry, intact.start, intact.entryId.symm⟩
  placed := placed

end Graph

theorem Load.nodes_placed {d : Document} {n : Node} (member : n ∈ nodes d) :
    ∃ p, n.position = .point p := by
  rcases mem_nodes.mp member with rfl | ⟨r, -, rfl⟩ | ⟨r, -, rfl⟩ | ⟨r, -, rfl⟩
  · exact ⟨{}, rfl⟩
  · exact ⟨r.position, rfl⟩
  · exact ⟨r.position, rfl⟩
  · exact ⟨r.position, rfl⟩

/-- A graph with which editing begins has one entry. -/
theorem Graph.Start.entered {g : Graph} (start : g.Start) : g.Entered := by
  cases start with
  | empty => exact Graph.Sound.empty.entered
  | loaded h =>
      obtain ⟨d, version, -, -, unshared, rfl, -⟩ := Load.load_eq_ok h
      exact (Load.graph_intact unshared).entered fun n member => Load.nodes_placed member

/-- Where a graph comes from: editing begins with it, it is built of nodes and edges, it is read
from a value, or it is edited. -/
inductive Graph.Made : Graph → Prop
  | start {g : Graph} (begun : g.Start) : Made g
  | built {nodes : List Node} {edges : List Edge} {g : Graph}
      (placed : ∀ n ∈ nodes, ∃ p, n.position = .point p) (h : build nodes edges = .ok g) : Made g
  | stored {v : Json} {g : Graph} (h : ofJson v = .ok g) : Made g
  | edited {g g' : Graph} (made : Made g) (step : NewStep g g') : Made g'

namespace Graph

variable {g : Graph}

/-- Wherever a graph comes from, it has one entry. -/
theorem Made.entered (made : g.Made) : g.Entered := by
  induction made with
  | start begun => exact begun.entered
  | built placed h => exact entered_of_build placed h
  | stored h => exact entered_of_ofJson h
  | edited _ step ih => exact ih.step step

section Quiet

variable (quiet : Check.anyWarning (Inspection.ofGraph g).checks = false)

include quiet

theorem not_doomed (id : String) : ¬ g.Doomed id := by
  rintro ⟨root, -, warned⟩
  exact Check.not_warns quiet warned

variable (h : g.Entered) (matched : ∀ e ∈ g.edges, g.Matched e)

include h matched

/-- Every conditional is kept. -/
theorem kept_of_quiet {n : Node} (member : n ∈ g.nodes) (kind : n.kind = .conditional) :
    n.id ∈ (Survey.ofGraph g.nodes g.edges).kept :=
  kept_of_not_doomed matched h.distinct (mem_conditionals.mpr ⟨n, member, rfl, kind⟩)
    (not_doomed quiet n.id)

/-- Every action leads to something that can be referred to. -/
theorem ref?_of_quiet {n : Node} (member : n ∈ g.nodes) (kind : n.kind = .action) :
    ref? g.nodes (Survey.ofGraph g.nodes g.edges).kept (first? g.edges n.id .actionResult) ≠
      none := by
  rw [Ne, ref?_actionResult_eq_none h matched]
  rintro (free | ⟨target, -, doomed⟩)
  · exact Check.not_warns quiet
      (Inspection.warns_dangling.mpr ⟨n, member, rfl, kind, first?_eq_none_iff.mp free⟩)
  · exact not_doomed quiet target doomed

/-- The compiler has no warnings. -/
theorem warnings_of_quiet : warnings g.nodes g.edges (Survey.ofGraph g.nodes g.edges) = [] := by
  rw [List.eq_nil_iff_forall_not_mem]
  intro c member
  obtain ⟨warning, named | named, id, pinned⟩ := of_mem_warnings h matched member
  · rcases (warns_danglingAction h matched).mp ⟨c, member, warning, named, pinned⟩ with
      warned | ⟨target, -, doomed⟩
    · exact Check.not_warns quiet warned
    · exact not_doomed quiet target doomed
  · exact not_doomed quiet id ((warns_dropped h matched).mp ⟨c, member, warning, named, pinned⟩)

end Quiet

end Graph

/-- A graph of which an inspection finds nothing is exported as a whole, whatever its edges are.
There is a document, and it can be stored, since every row has a point; the compiler warns about
nothing, every conditional has a row and every action leads somewhere. -/
theorem clean_export {g : Graph} (made : g.Made)
    (unfailed : Check.anyFailure (Inspection.ofGraph g).checks = false)
    (quiet : Check.anyWarning (Inspection.ofGraph g).checks = false) (npc : String)
    (interaction : Option Interaction) :
    ∃ d, compile g.nodes g.edges npc interaction = .compiled d [] ∧
      compileUnread g.nodes g.edges (.str npc) interaction = .ok (.compiled d []) ∧
      (∀ n ∈ g.nodes, n.kind = .conditional → ∃ r ∈ d.conditions, r.id = n.id) ∧
      ∀ r ∈ d.actions, r.target ≠ none := by
  have h := made.entered
  have sound := mt Inspection.anyFailure_checks.mpr (Bool.eq_false_iff.mp unfailed)
  obtain ⟨violations, connected⟩ := not_or.mp sound
  have matched := Graph.violations_eq_nil_iff.mp (not_not.mp violations)
  have warned := Graph.warnings_of_quiet quiet h matched
  cases outcome : compile g.nodes g.edges npc interaction with
  | empty reason =>
      rcases (Graph.compile_eq_empty_iff h matched).mp outcome with
        ⟨none, -⟩ | ⟨target, -, doomed, -⟩
      · exact absurd (Graph.first?_eq_none_iff.mp none) connected
      · exact absurd doomed (Graph.not_doomed quiet target)
  | compiled d ws =>
      have unread : compileUnread g.nodes g.edges (.str npc) interaction =
          .ok (compile g.nodes g.edges npc interaction) :=
        compileUnread_str h.placed npc interaction
      obtain ⟨r, -, rfl, rfl⟩ := compile_eq_compiled.mp outcome
      rw [warned] at outcome ⊢
      refine ⟨_, rfl, by rw [unread, outcome], fun n member kind => ?_, fun r row => ?_⟩
      · have there : n.id ∈ (conditionRows g.nodes g.edges
            (Survey.ofGraph g.nodes g.edges)).map (·.id) := by
          rw [conditionRows_ids, mem_filter_ids]
          have kept := Graph.kept_of_quiet quiet h matched member kind
          exact ⟨n, member, rfl, by simp [Node.isConditional, kind, kept]⟩
        obtain ⟨row, listed, named⟩ := List.mem_map.mp there
        exact ⟨row, listed, named⟩
      · obtain ⟨n, member, data, payload, rfl⟩ := mem_actionRows.mp row
        have kind : n.kind = .action := Node.kind_eq_action.mpr ⟨data, payload⟩
        exact Graph.ref?_of_quiet quiet h matched member kind

/-- Here two conditionals lead to each other, and one of them has a second edge on one output. -/
theorem clean_export_of_circle :
    let new (id : String) (kind : Kind) : Node := { id, payload := .ofKind kind }
    let g : Graph := {
      nodes := [Node.entry, new "hello" .result, new "ask" .action, new "rich" .conditional,
        new "known" .conditional]
      edges := [
        .join Node.entryId .initialTarget "hello" .nodeTrigger,
        .join "hello" .resultActions "ask" .actionOwner,
        .join "ask" .actionResult "rich" .nodeTrigger,
        .join "rich" .conditionTrue "known" .nodeTrigger,
        .join "rich" .conditionTrue "hello" .nodeTrigger,
        .join "rich" .conditionFalse "hello" .nodeTrigger,
        .join "known" .conditionTrue "rich" .nodeTrigger,
        .join "known" .conditionFalse "rich" .nodeTrigger]
      entryId := Node.entryId }
    let checks := (Inspection.ofGraph g).checks
    Graph.ofJson g.toJson = .ok g ∧
      (Check.anyFailure checks = false ∧ Check.anyWarning checks = false) ∧
      ∃ d, compile g.nodes g.edges "guide" none = .compiled d [] ∧
        compileUnread g.nodes g.edges (.str "guide") none = .ok (.compiled d []) ∧
        (∀ n ∈ g.nodes, n.kind = .conditional → ∃ r ∈ d.conditions, r.id = n.id) ∧
        ∀ r ∈ d.actions, r.target ≠ none := by
  intro new g checks
  have read : Graph.ofJson g.toJson = .ok g := rfl
  have reached : Inspection.reached g = ["initial", "hello", "ask", "rich", "known"] := by
    simp [Inspection.reached, Inspection.spread, Inspection.fresh, List.eraseDups_cons, g,
      Edge.join, Edge.make, Node.entryId]
  have reachable : Inspection.reachability g =
      [Check.passed "unreachable_node" "Every node is reachable from the entry"] := by
    rw [Inspection.reachability, reached]
    decide +kernel
  have clean : Check.anyFailure checks = false ∧ Check.anyWarning checks = false := by
    simp only [checks, Inspection.ofGraph, reachable]
    decide +kernel
  exact ⟨read, clean, clean_export (.stored read) clean.1 clean.2 "guide" none⟩

end Parley
