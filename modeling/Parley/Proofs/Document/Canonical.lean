import Parley.Proofs.Document.Loaded

/-!
# Canonical documents

A document is canonical if it can be loaded as a whole, each of its references has the type of its
row, and each of its results lists distinct actions in an order that ordering does not change.
Compiling the graph of such a document gives the document back, row by row: what the compiler looks
up in the graph is what the loader put there, and all of its conditionals are kept.
-/

namespace Parley

open Compile

namespace Document

/-- What makes a document the one that its graph is compiled into. -/
structure Canonical (d : Document) : Prop extends Loadable d where
  typed : ∀ r ∈ d.references, d.refType? r.id = some r.type
  listedOnce : ∀ r ∈ d.results, r.actions.Nodup
  ordered : ∀ r ∈ d.results,
    orderActions r.actions r.preferred (r.actions.filter (some · != r.preferred)) = r.actions

variable {d : Document} {id : String}

theorem refType?_eq_some {type : RefType} (known : d.refType? id = some type) :
    type = .condition ∧ id ∈ d.conditions.map (·.id) ∨
      type = .result ∧ id ∈ d.results.map (·.id) := by
  unfold refType? at known
  split at known
  next row => cases known; exact .inl ⟨rfl, by simpa using row⟩
  next =>
    split at known
    next row => cases known; exact .inr ⟨rfl, by simpa using row⟩
    next => cases known

namespace Canonical

variable (h : d.Canonical)

include h

theorem nodes_distinct : ((Load.nodes d).map (·.id)).Nodup := by
  rw [Load.nodes_ids]
  exact h.distinct

/-- A reference leads to a result or to a condition. -/
theorem ref_mem {r : Ref} (member : r ∈ d.references) :
    r.id ∈ d.results.map (·.id) ++ d.conditions.map (·.id) := by
  rcases refType?_eq_some (h.typed r member) with ⟨-, row⟩ | ⟨-, row⟩
  · exact List.mem_append_right _ row
  · exact List.mem_append_left _ row

theorem rows_distinct : d.rowIds.Nodup := (List.nodup_cons.mp h.distinct).2

theorem kind?_row {n : Node} (member : n ∈ Load.nodes d) :
    kind? (Load.nodes d) n.id = some n.kind :=
  (kind?_eq_some h.nodes_distinct).mpr ⟨n, member, rfl, rfl⟩

theorem kind?_result (listed : id ∈ d.results.map (·.id)) :
    kind? (Load.nodes d) id = some .result := by
  obtain ⟨r, row, rfl⟩ := List.mem_map.mp listed
  exact h.kind?_row (Load.mem_nodes.mpr (.inr (.inl ⟨r, row, rfl⟩)))

theorem kind?_condition (listed : id ∈ d.conditions.map (·.id)) :
    kind? (Load.nodes d) id = some .conditional := by
  obtain ⟨r, row, rfl⟩ := List.mem_map.mp listed
  exact h.kind?_row (Load.mem_nodes.mpr (.inr (.inr (.inl ⟨r, row, rfl⟩))))

theorem kind?_action (listed : id ∈ d.actions.map (·.id)) :
    kind? (Load.nodes d) id = some .action := by
  obtain ⟨r, row, rfl⟩ := List.mem_map.mp listed
  exact h.kind?_row (Load.mem_nodes.mpr (.inr (.inr (.inr ⟨r, row, rfl⟩))))

/-- While all conditions are kept, each reference is found again. -/
theorem ref?_eq_self {kept : List String} (all : d.conditions.map (·.id) ⊆ kept) {r : Ref}
    (member : r ∈ d.references) : ref? (Load.nodes d) kept (some r.id) = some r := by
  refine ref?_eq_some.mpr ⟨rfl, ?_⟩
  rcases refType?_eq_some (h.typed r member) with ⟨type, row⟩ | ⟨type, row⟩
  · exact .inr ⟨type, h.kind?_condition row, all row⟩
  · exact .inl ⟨type, h.kind?_result row⟩

end Canonical

theorem conditionals_nodes (d : Document) :
    conditionals (Load.nodes d) = d.conditions.map (·.id) := by
  have entry : Node.entry.isConditional = false := rfl
  have results : (d.results.map Load.resultNode).filter Node.isConditional = [] := by
    apply List.filter_eq_nil_iff.mpr
    intro n member
    obtain ⟨r, -, rfl⟩ := List.mem_map.mp member
    simp [Load.resultNode, Node.isConditional, Node.kind, Payload.kind]
  have actions : (d.actions.map Load.actionNode).filter Node.isConditional = [] := by
    apply List.filter_eq_nil_iff.mpr
    intro n member
    obtain ⟨r, -, rfl⟩ := List.mem_map.mp member
    simp [Load.actionNode, Node.isConditional, Node.kind, Payload.kind]
  have conditions : (d.conditions.map Load.conditionNode).filter Node.isConditional =
      d.conditions.map Load.conditionNode := by
    apply List.filter_eq_self.mpr
    intro n member
    obtain ⟨r, -, rfl⟩ := List.mem_map.mp member
    rfl
  simp only [conditionals, Load.nodes, List.cons_append, List.filter_cons, entry,
    List.filter_append, results, actions, conditions]
  simp [Load.conditionNode, Function.comp_def]

namespace Canonical

variable (h : d.Canonical)

include h

theorem conditions_distinct : (d.conditions.map (·.id)).Nodup :=
  (List.nodup_append.mp (List.nodup_append.mp h.rows_distinct).1).2.1

theorem actions_distinct : (d.actions.map (·.id)).Nodup :=
  (List.nodup_append.mp h.rows_distinct).2.1

/-- While all conditions are kept, each branch of one leads where it did. -/
theorem ref?_branch {kept : List String} (all : d.conditions.map (·.id) ⊆ kept) {r : ConditionRow}
    {port : Port} {t : Ref} (row : r ∈ d.conditions) (branch : (port, t) ∈ r.branches) :
    ref? (Load.nodes d) kept (first? (Load.edges d) r.id port) = some t := by
  rw [Load.first?_branch h.conditions_distinct row branch,
    h.ref?_eq_self all (branch_mem_references row branch)]

/-- All conditions together are closed, so all of them are kept. -/
theorem kept : ∀ id, id ∈ (Survey.ofGraph (Load.nodes d) (Load.edges d)).kept ↔
    id ∈ d.conditions.map (·.id) := by
  have fair := Survey.ofGraph_fair (Load.nodes d) (Load.edges d)
  rw [conditionals_nodes] at fair
  have closed : Closed (Load.nodes d) (Load.edges d) (d.conditions.map (·.id)) := by
    refine closed_iff.mpr fun id listed port output => ?_
    obtain ⟨r, row, rfl⟩ := List.mem_map.mp listed
    obtain ⟨t, branch⟩ := ConditionRow.exists_branch output
    exact ⟨t, h.ref?_branch (List.Subset.refl _) row branch⟩
  exact fun id => ⟨fun there => fair.listed there,
    fun there => fair.greatest _ (List.Subset.refl _) closed there⟩

variable {kept : List String} (all : d.conditions.map (·.id) ⊆ kept)

include all

theorem actionRow_actionNode {r : ActionRow} (row : r ∈ d.actions) :
    actionRow (Load.nodes d) (Load.edges d) kept (Load.actionNode r)
      { label := r.label, handle := r.handle } = r := by
  have target : ref? (Load.nodes d) kept (r.target.map (·.id)) = r.target := by
    cases given : r.target with
    | none => rfl
    | some t => exact h.ref?_eq_self all (target_mem_references row given)
  have looked : ref? (Load.nodes d) kept (first? (Load.edges d) r.id .actionResult) =
      r.target := by
    rw [Load.first?_actionResult h.actions_distinct row, target]
  simp only [actionRow, Load.actionNode, looked]
  rfl

theorem conditionRow?_conditionNode {r : ConditionRow} (row : r ∈ d.conditions) :
    conditionRow? (Load.nodes d) (Load.edges d) kept (Load.conditionNode r)
      { value := r.value, condition := r.condition, objective := r.objective,
        handle := r.handle } = some r := by
  refine conditionRow?_eq_some.mpr ⟨r.onTrue, r.onFalse, ?_, ?_, rfl⟩
  · exact h.ref?_branch all row (ConditionRow.mem_branches.mpr (.inl ⟨rfl, rfl⟩))
  · exact h.ref?_branch all row (ConditionRow.mem_branches.mpr (.inr ⟨rfl, rfl⟩))

omit all

theorem resultRow_resultNode {r : ResultRow} (row : r ∈ d.results) :
    resultRow (Load.nodes d) (Load.edges d) (Load.resultNode r)
      { message := r.message, preferred := r.preferred
        order := r.actions.filter (some · != r.preferred), close := r.close
        executors := r.executors, handle := r.handle } = r := by
  have leads : r.actions.filter (leadsToAction (Load.nodes d)) = r.actions := by
    apply List.filter_eq_self.mpr
    intro id listed
    simp [leadsToAction, h.kind?_action (h.offers r row id listed)]
  have offers : offered (Load.nodes d) (Load.edges d) r.id = r.actions := by
    rw [offered, Load.all_resultActions h.rows_distinct row, leads,
      eraseDups_eq_self (h.listedOnce r row)]
  have ordered := h.ordered r row
  simp only [resultRow, Load.resultNode, offers, ordered]
  rfl

end Canonical

/-- What is made of the nodes of a document is made of its rows. -/
theorem filterMap_nodes {α : Type} (d : Document) (f : Node → Option α) :
    (Load.nodes d).filterMap f = (f Node.entry).toList ++
      d.results.filterMap (f ∘ Load.resultNode) ++
      d.conditions.filterMap (f ∘ Load.conditionNode) ++
      d.actions.filterMap (f ∘ Load.actionNode) := by
  have first (rest : List Node) :
      (Node.entry :: rest).filterMap f = (f Node.entry).toList ++ rest.filterMap f := by
    rw [List.filterMap_cons]
    cases f Node.entry <;> rfl
  simp only [Load.nodes, List.filterMap_append, first, List.filterMap_map]

namespace Canonical

variable (h : d.Canonical)

include h

theorem actionRows_nodes {kept : List String} (all : d.conditions.map (·.id) ⊆ kept) :
    actionRows (Load.nodes d) (Load.edges d) kept = d.actions := by
  have rows : d.actions.filterMap (fun r => some (actionRow (Load.nodes d) (Load.edges d) kept
      (Load.actionNode r) { label := r.label, handle := r.handle })) = d.actions := by
    rw [List.filterMap_congr fun r row => congrArg some (h.actionRow_actionNode all row),
      List.filterMap_some]
  rw [actionRows, filterMap_nodes]
  simpa [Node.entry, Payload.ofKind, Load.resultNode, Load.conditionNode, Load.actionNode,
    Function.comp_def] using rows

theorem resultRows_nodes : resultRows (Load.nodes d) (Load.edges d) = d.results := by
  have rows : d.results.filterMap (fun r => some (resultRow (Load.nodes d) (Load.edges d)
      (Load.resultNode r)
      { message := r.message, preferred := r.preferred
        order := r.actions.filter (some · != r.preferred), close := r.close
        executors := r.executors, handle := r.handle })) = d.results := by
    rw [List.filterMap_congr fun r row => congrArg some (h.resultRow_resultNode row),
      List.filterMap_some]
  rw [resultRows, filterMap_nodes]
  simpa [Node.entry, Payload.ofKind, Load.resultNode, Load.conditionNode, Load.actionNode,
    Function.comp_def] using rows

theorem conditionRows_nodes :
    conditionRows (Load.nodes d) (Load.edges d) (Survey.ofGraph (Load.nodes d) (Load.edges d)) =
      d.conditions := by
  let s := Survey.ofGraph (Load.nodes d) (Load.edges d)
  have all : d.conditions.map (·.id) ⊆ s.kept := fun id listed => (h.kept id).mpr listed
  have undropped (r : ConditionRow) (row : r ∈ d.conditions) :
      ¬ (s.dropped.lookup r.id).isSome = true := by
    rw [(Survey.ofGraph_fair _ _).dropped_iff]
    exact fun ⟨_, gone⟩ => gone (all (List.mem_map_of_mem row))
  have rows : d.conditions.filterMap (fun r =>
      if (s.dropped.lookup r.id).isSome then none
      else conditionRow? (Load.nodes d) (Load.edges d) s.kept (Load.conditionNode r)
        { value := r.value, condition := r.condition, objective := r.objective,
          handle := r.handle }) = d.conditions := by
    rw [List.filterMap_congr fun r row =>
      (if_neg (undropped r row)).trans (h.conditionRow?_conditionNode all row), List.filterMap_some]
  rw [conditionRows, filterMap_nodes]
  have others {α : Type} (l : List α) : l.filterMap (fun _ => (none : Option ConditionRow)) = [] :=
    List.filterMap_eq_nil_iff.mpr fun _ _ => rfl
  show [] ++ d.results.filterMap (fun _ => none) ++ _ ++ d.actions.filterMap (fun _ => none) = _
  rw [others, others, List.nil_append, List.nil_append, List.append_nil]
  exact rows

/-- Compiling the graph of a canonical document gives the document. -/
theorem compile_nodes : compile (Load.nodes d) (Load.edges d) d.npc d.interaction =
    .compiled d (warnings (Load.nodes d) (Load.edges d)
      (Survey.ofGraph (Load.nodes d) (Load.edges d))) := by
  have all : d.conditions.map (·.id) ⊆ (Survey.ofGraph (Load.nodes d) (Load.edges d)).kept :=
    fun id listed => (h.kept id).mpr listed
  have begins : Compile.initial (Load.nodes d) (Load.edges d)
      (Survey.ofGraph (Load.nodes d) (Load.edges d)).kept = .ok d.initial := by
    refine initial_eq_ok.mpr ⟨Node.entry, rfl, ?_⟩
    have led : first? (Load.edges d) Node.entry.id .initialTarget = some d.initial.id :=
      Load.first?_initial (h.ref_mem initial_mem_references)
    rw [led]
    exact h.ref?_eq_self all initial_mem_references
  refine compile_eq_compiled.mpr ⟨d.initial, begins, ?_, rfl⟩
  rw [documentOf, h.actionRows_nodes all, h.resultRows_nodes, h.conditionRows_nodes]

end Canonical

end Document

end Parley
