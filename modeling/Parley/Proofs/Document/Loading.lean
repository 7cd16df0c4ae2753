import Parley.Document.Load
import Parley.Proofs.Document.Closed
import Parley.Proofs.Document.Migration
import Parley.Proofs.Graph.Regular

/-!
# The graph of a document

Loading makes a node of each row and an edge of each reference.  A document whose row ids are
distinct and whose references name rows loses nothing on the way: its edges are exactly those that
its references stand for.  Whatever is loaded, the graph is regular.
-/

namespace Parley

namespace Edge

variable (source target : String) (output input : Port)

@[simp] theorem join_source : (join source output target input).source = source := rfl

@[simp] theorem join_sourceHandle :
    (join source output target input).sourceHandle = output.name := rfl

@[simp] theorem join_target : (join source output target input).target = target := rfl

/-- Edges that leave different outputs are different. -/
theorem join_ne {p q i j : Port} {s t s' t' : String} (different : p ≠ q) :
    join s p t i ≠ join s' q t' j := fun same =>
  different (Port.name_injective (congrArg sourceHandle same))

/-- The row that an edge is stored with: the one that it leaves, or, if it leaves the entry, the
one that it reaches. -/
def owner (e : Edge) : String :=
  if e.sourceHandle = Port.initialTarget.name then e.target else e.source

end Edge

namespace Document

/-- The ids of the rows: results, conditions and actions. -/
def rowIds (d : Document) : List String :=
  d.results.map (·.id) ++ d.conditions.map (·.id) ++ d.actions.map (·.id)

section RowIds

variable {d : Document}

theorem result_mem_rowIds {r : ResultRow} (row : r ∈ d.results) : r.id ∈ d.rowIds :=
  List.mem_append_left _ (List.mem_append_left _ (List.mem_map_of_mem row))

theorem condition_mem_rowIds {r : ConditionRow} (row : r ∈ d.conditions) : r.id ∈ d.rowIds :=
  List.mem_append_left _ (List.mem_append_right _ (List.mem_map_of_mem row))

theorem action_mem_rowIds {r : ActionRow} (row : r ∈ d.actions) : r.id ∈ d.rowIds :=
  List.mem_append_right _ (List.mem_map_of_mem row)

end RowIds

/-- The edges that the references of a document stand for. -/
inductive Links (d : Document) : Edge → Prop
  | entry (row : d.initial.id ∈ d.results.map (·.id) ++ d.conditions.map (·.id)) :
      Links d (.join Node.entryId .initialTarget d.initial.id .nodeTrigger)
  | offer (r : ResultRow) (row : r ∈ d.results) (id : String) (listed : id ∈ r.actions) :
      Links d (.join r.id .resultActions id .actionOwner)
  | branch (r : ConditionRow) (row : r ∈ d.conditions) (port : Port) (t : Ref)
      (branch : (port, t) ∈ r.branches) : Links d (.join r.id port t.id .nodeTrigger)
  | target (r : ActionRow) (row : r ∈ d.actions) (t : Ref) (given : r.target = some t) :
      Links d (.join r.id .actionResult t.id .nodeTrigger)

namespace Links

variable {d : Document} {e : Edge}

/-- Only the reference at which the dialogue begins leaves the entry. -/
theorem of_initialTarget (link : d.Links e) (leaves : e.sourceHandle = Port.initialTarget.name) :
    e = .join Node.entryId .initialTarget d.initial.id .nodeTrigger := by
  cases link with
  | entry row => rfl
  | branch r row port t branch =>
      exact absurd (Port.name_injective leaves)
        (ConditionRow.branch_ne branch (by decide) (by decide))
  | _ => exact absurd leaves (by simp [Port.name])

/-- Only the target of an action leaves its output. -/
theorem of_actionResult (link : d.Links e) (leaves : e.sourceHandle = Port.actionResult.name) :
    ∃ r ∈ d.actions, ∃ t, r.target = some t ∧
      e = .join r.id .actionResult t.id .nodeTrigger := by
  cases link with
  | target r row t given => exact ⟨r, row, t, given, rfl⟩
  | branch r row port t branch =>
      exact absurd (Port.name_injective leaves)
        (ConditionRow.branch_ne branch (by decide) (by decide))
  | _ => exact absurd leaves (by simp [Port.name])

/-- Only the branch of a condition leaves its output. -/
theorem of_branch {port : Port} (link : d.Links e) (output : port ∈ Port.outputs .conditional)
    (leaves : e.sourceHandle = port.name) : ∃ r ∈ d.conditions, ∃ t, (port, t) ∈ r.branches ∧
      e = .join r.id port t.id .nodeTrigger := by
  cases link with
  | branch r row p t branch =>
      obtain rfl := Port.name_injective leaves
      exact ⟨r, row, t, branch, rfl⟩
  | _ =>
      simp only [Port.outputs, List.mem_cons, List.not_mem_nil, or_false] at output
      rcases output with rfl | rfl <;> exact absurd leaves (by simp [Port.name])

end Links

end Document

namespace Load

variable {d : Document} {e : Edge} {id : String}

theorem mem_entryEdge : e ∈ entryEdge d id ↔
    id = d.initial.id ∧ e = .join Node.entryId .initialTarget d.initial.id .nodeTrigger := by
  rw [entryEdge]
  by_cases here : id = d.initial.id
  · simp [here]
  · simp [here]

theorem mem_resultEdges {r : ResultRow} : e ∈ resultEdges d r ↔ e ∈ entryEdge d r.id ∨
    ∃ id ∈ r.actions, e = .join r.id .resultActions id .actionOwner := by
  simp [resultEdges, eq_comm]

theorem mem_conditionEdges {r : ConditionRow} : e ∈ conditionEdges d r ↔ e ∈ entryEdge d r.id ∨
    ∃ port t, (port, t) ∈ r.branches ∧ e = .join r.id port t.id .nodeTrigger := by
  have branches : conditionEdges d r = entryEdge d r.id ++
      r.branches.map fun b => .join r.id b.1 b.2.id .nodeTrigger := rfl
  simp [branches, eq_comm]

theorem mem_actionEdges {r : ActionRow} : e ∈ actionEdges r ↔
    ∃ t, r.target = some t ∧ e = .join r.id .actionResult t.id .nodeTrigger := by
  rw [actionEdges]
  cases r.target <;> simp

/-- The edges of a document are those that its references stand for. -/
theorem mem_edges : e ∈ edges d ↔ d.Links e := by
  simp only [edges, List.mem_append, List.mem_flatMap, mem_resultEdges, mem_conditionEdges,
    mem_actionEdges, mem_entryEdge]
  constructor
  · rintro ((⟨r, row, ⟨begins, rfl⟩ | ⟨id, listed, rfl⟩⟩ |
      ⟨r, row, ⟨begins, rfl⟩ | ⟨port, t, branch, rfl⟩⟩) | ⟨r, row, t, given, rfl⟩)
    · exact .entry (List.mem_append_left _ (List.mem_map.mpr ⟨r, row, begins⟩))
    · exact .offer r row id listed
    · exact .entry (List.mem_append_right _ (List.mem_map.mpr ⟨r, row, begins⟩))
    · exact .branch r row port t branch
    · exact .target r row t given
  · intro link
    cases link with
    | entry row =>
        rcases List.mem_append.mp row with row | row
        · obtain ⟨r, row, begins⟩ := List.mem_map.mp row
          exact .inl (.inl ⟨r, row, .inl ⟨begins, rfl⟩⟩)
        · obtain ⟨r, row, begins⟩ := List.mem_map.mp row
          exact .inl (.inr ⟨r, row, .inl ⟨begins, rfl⟩⟩)
    | offer r row id listed => exact .inl (.inl ⟨r, row, .inr ⟨id, listed, rfl⟩⟩)
    | branch r row port t branch => exact .inl (.inr ⟨r, row, .inr ⟨port, t, branch, rfl⟩⟩)
    | target r row t given => exact .inr ⟨r, row, t, given, rfl⟩

theorem nodes_ids (d : Document) : (nodes d).map (·.id) = Node.entryId :: d.rowIds := by
  simp [nodes, Document.rowIds, Node.entry, Function.comp_def, resultNode, conditionNode,
    actionNode]

theorem mem_nodes {n : Node} : n ∈ nodes d ↔ n = Node.entry ∨ (∃ r ∈ d.results, resultNode r = n) ∨
    (∃ r ∈ d.conditions, conditionNode r = n) ∨ ∃ r ∈ d.actions, actionNode r = n := by
  simp [nodes]

section Rows

/-- The rows with their edges. -/
def rowEdges (d : Document) : List (String × List Edge) :=
  d.results.map (fun r => (r.id, resultEdges d r)) ++
    d.conditions.map (fun r => (r.id, conditionEdges d r)) ++
    d.actions.map fun r => (r.id, actionEdges r)

theorem edges_eq (d : Document) : edges d = (rowEdges d).flatMap (·.2) := by
  simp [edges, rowEdges, List.flatMap_append, List.flatMap_map]

theorem rowEdges_ids (d : Document) : (rowEdges d).map (·.1) = d.rowIds := by
  simp [rowEdges, Document.rowIds, Function.comp_def]

theorem owner_eq {row : String × List Edge} (member : row ∈ rowEdges d) (edge : e ∈ row.2) :
    e.owner = row.1 := by
  simp only [rowEdges, List.mem_append, List.mem_map] at member
  rcases member with (⟨r, -, rfl⟩ | ⟨r, -, rfl⟩) | ⟨r, -, rfl⟩
  · rcases mem_resultEdges.mp edge with first | ⟨id, -, rfl⟩
    · obtain ⟨begins, rfl⟩ := mem_entryEdge.mp first
      exact begins.symm
    · rfl
  · rcases mem_conditionEdges.mp edge with first | ⟨port, t, branch, rfl⟩
    · obtain ⟨begins, rfl⟩ := mem_entryEdge.mp first
      exact begins.symm
    · rcases ConditionRow.mem_branches.mp branch with ⟨rfl, rfl⟩ | ⟨rfl, rfl⟩ <;> rfl
  · obtain ⟨t, -, rfl⟩ := mem_actionEdges.mp edge
    rfl

theorem nodup_entryEdge (d : Document) (id : String) : (entryEdge d id).Nodup := by
  rw [entryEdge]
  split
  next => exact List.nodup_singleton _
  next => exact List.nodup_nil

theorem nodup_resultEdges {r : ResultRow} (distinct : r.actions.Nodup) :
    (resultEdges d r).Nodup := by
  refine List.nodup_append.mpr ⟨nodup_entryEdge d r.id, ?_, fun first hfirst e he => ?_⟩
  · exact distinct.map fun a b same => congrArg Edge.target same
  · obtain ⟨-, rfl⟩ := mem_entryEdge.mp hfirst
    obtain ⟨id, -, rfl⟩ := List.mem_map.mp he
    exact Edge.join_ne (by decide)

theorem nodup_conditionEdges (d : Document) (r : ConditionRow) : (conditionEdges d r).Nodup := by
  refine List.nodup_append.mpr ⟨nodup_entryEdge d r.id, ?_, fun first hfirst e he => ?_⟩
  · refine List.nodup_cons.mpr ⟨fun again => ?_, List.nodup_singleton _⟩
    exact Edge.join_ne (by decide) (List.mem_singleton.mp again)
  · obtain ⟨-, rfl⟩ := mem_entryEdge.mp hfirst
    simp only [List.mem_cons, List.not_mem_nil, or_false] at he
    rcases he with rfl | rfl
    · exact Edge.join_ne (by decide)
    · exact Edge.join_ne (by decide)

theorem nodup_actionEdges (r : ActionRow) : (actionEdges r).Nodup := by
  rw [actionEdges]
  split
  next => exact List.nodup_singleton _
  next => exact List.nodup_nil

/-- Rows with different ids have different edges, as an edge tells the row that it belongs to. -/
theorem nodup_edges (distinct : d.rowIds.Nodup) (offers : ∀ r ∈ d.results, r.actions.Nodup) :
    (edges d).Nodup := by
  rw [edges_eq, List.nodup_flatMap]
  constructor
  · intro row member
    simp only [rowEdges, List.mem_append, List.mem_map] at member
    rcases member with (⟨r, there, rfl⟩ | ⟨r, there, rfl⟩) | ⟨r, there, rfl⟩
    · exact nodup_resultEdges (offers r there)
    · exact nodup_conditionEdges d r
    · exact nodup_actionEdges r
  · rw [← rowEdges_ids] at distinct
    refine (List.pairwise_map.mp distinct).imp_of_mem ?_
    intro p q hp hq different e ep eq
    exact different ((owner_eq hp ep).symm.trans (owner_eq hq eq))

end Rows

section Lookup

open Compile (first? all first?_eq_target first?_eq_none)

theorem first?_initial (row : d.initial.id ∈ d.results.map (·.id) ++ d.conditions.map (·.id)) :
    first? (edges d) Node.entryId .initialTarget = some d.initial.id := by
  apply first?_eq_target (mem_edges.mpr (.entry row)) rfl
  intro x member _ leaves
  exact congrArg Edge.target ((mem_edges.mp member).of_initialTarget leaves)

theorem first?_branch (distinct : (d.conditions.map (·.id)).Nodup) {r : ConditionRow} {port : Port}
    {t : Ref} (row : r ∈ d.conditions) (branch : (port, t) ∈ r.branches) :
    first? (edges d) r.id port = some t.id := by
  apply first?_eq_target (mem_edges.mpr (.branch r row port t branch)) rfl
  intro x member same leaves
  obtain ⟨q, other, u, reached, rfl⟩ :=
    (mem_edges.mp member).of_branch (ConditionRow.branch_output branch) leaves
  obtain rfl := List.inj_on_of_nodup_map distinct row other same.symm
  exact congrArg Ref.id (ConditionRow.branch_unique reached branch)

theorem first?_actionResult (distinct : (d.actions.map (·.id)).Nodup) {r : ActionRow}
    (row : r ∈ d.actions) : first? (edges d) r.id .actionResult = r.target.map (·.id) := by
  have only (x : Edge) (member : x ∈ edges d) (same : x.source = r.id)
      (leaves : x.sourceHandle = Port.actionResult.name) :
      ∃ t, r.target = some t ∧ x.target = t.id := by
    obtain ⟨q, other, t, given, rfl⟩ := (mem_edges.mp member).of_actionResult leaves
    obtain rfl := List.inj_on_of_nodup_map distinct row other same.symm
    exact ⟨t, given, rfl⟩
  cases given : r.target with
  | some t =>
      apply first?_eq_target (mem_edges.mpr (.target r row t given)) rfl
      intro x member same leaves
      obtain ⟨u, reached, target⟩ := only x member same leaves
      rw [target, Option.some.inj (given.symm.trans reached)]
      rfl
  | none =>
      apply first?_eq_none
      intro x member same leaves
      obtain ⟨u, reached, -⟩ := only x member same leaves
      rw [given] at reached
      cases reached

/-- What a loaded result offers are the actions of its row, in their order. -/
theorem all_resultActions (distinct : d.rowIds.Nodup) {r : ResultRow} (row : r ∈ d.results) :
    all (edges d) r.id .resultActions = r.actions := by
  let leaves (e : Edge) : Bool := e.source == r.id && e.sourceHandle == Port.resultActions.name
  have here : (r.id, resultEdges d r) ∈ rowEdges d :=
    List.mem_append_left _ (List.mem_append_left _ (List.mem_map.mpr ⟨r, row, rfl⟩))
  have only : (edges d).filter leaves = (resultEdges d r).filter leaves := by
    rw [edges_eq, List.filter_flatMap]
    have rows : (rowEdges d).Nodup := List.Nodup.of_map _ (rowEdges_ids d ▸ distinct)
    apply flatMap_eq_of_unique rows here
    intro p member other
    refine List.filter_eq_nil_iff.mpr fun e edge left => other ?_
    simp only [leaves, Bool.and_eq_true, beq_iff_eq] at left
    have owned : e.owner = r.id := by
      rw [Edge.owner, if_neg (by rw [left.2]; decide), left.1]
    refine List.inj_on_of_nodup_map (rowEdges_ids d ▸ distinct) member here ?_
    exact (owner_eq member edge).symm.trans owned
  have begins : (entryEdge d r.id).filter leaves = [] := by
    apply List.filter_eq_nil_iff.mpr
    intro e edge
    obtain ⟨-, rfl⟩ := mem_entryEdge.mp edge
    simp [leaves, Port.name]
  have offers : (r.actions.map fun id => Edge.join r.id .resultActions id .actionOwner).filter
      leaves = r.actions.map fun id => Edge.join r.id .resultActions id .actionOwner := by
    apply List.filter_eq_self.mpr
    intro e edge
    obtain ⟨id, -, rfl⟩ := List.mem_map.mp edge
    simp [leaves]
  show ((edges d).filter leaves).map (·.target) = r.actions
  rw [only, resultEdges, List.filter_append, begins, offers]
  simp [Function.comp_def]

end Lookup

end Load

end Parley
