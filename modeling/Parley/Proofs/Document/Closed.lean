import Parley.Proofs.Document.Order
import Parley.Proofs.Document.Rows

/-!
# Compiled documents are closed

Nothing in a compiled document leads out of it.  The compiler makes a reference only after a look at
the kind of its target, and it keeps a conditional only if both of its branches can be made
references; so each reference names a row of its type, and each action that a result offers has a
row, whatever the edges are.
-/

namespace Parley

namespace Document

/-- The references of a document: where it begins, the targets of its actions and the branches of
its conditions. -/
def references (d : Document) : List Ref :=
  d.initial :: d.actions.filterMap (·.target) ++
    d.conditions.flatMap fun r => [r.onTrue, r.onFalse]

section References

variable {d : Document}

theorem initial_mem_references : d.initial ∈ d.references :=
  List.mem_append_left _ List.mem_cons_self

theorem target_mem_references {r : ActionRow} {t : Ref} (row : r ∈ d.actions)
    (given : r.target = some t) : t ∈ d.references :=
  List.mem_append_left _ (List.mem_cons_of_mem _ (List.mem_filterMap.mpr ⟨r, row, given⟩))

theorem branch_mem_references {r : ConditionRow} {port : Port} {t : Ref} (row : r ∈ d.conditions)
    (branch : (port, t) ∈ r.branches) : t ∈ d.references :=
  List.mem_append_right _ (List.mem_flatMap.mpr ⟨r, row, List.mem_map_of_mem (f := (·.2)) branch⟩)

end References

theorem lookup_filterMap {β : Type} (ids : List String) (f : String → Option β) (id : String) :
    (ids.filterMap fun x => (f x).map (x, ·)).lookup id = if id ∈ ids then f id else none := by
  induction ids with
  | nil => rfl
  | cons x rest ih =>
      rw [List.filterMap_cons]
      by_cases here : id = x
      · subst here
        cases value : f id with
        | none => simp [ih, value]
        | some v => simp
      · cases value : f x with
        | none => simp [ih, here]
        | some v =>
            have other : (id == x) = false := by simpa using here
            simp [List.lookup_cons, other, ih, here]

/-- The table of types says of an id what its row says. -/
theorem lookup_refTypes (d : Document) (id : String) : d.refTypes.lookup id = d.refType? id := by
  rw [refTypes, lookup_filterMap]
  split
  next => rfl
  next absent =>
    simp only [List.mem_eraseDups, List.mem_append, not_or] at absent
    have noResult : d.results.any (·.id == id) = false := by simpa using absent.1
    have noCondition : d.conditions.any (·.id == id) = false := by simpa using absent.2
    simp [refType?, noResult, noCondition]

end Document

namespace Compile

variable {nodes : List Node} {edges : List Edge} {npc : String}
  {interaction : Option Interaction} {initial : Ref} {id : String}

/-- With distinct ids an id is not that of nodes of two kinds. -/
theorem kind_unique (distinct : (nodes.map (·.id)).Nodup) {m n : Node} (hm : m ∈ nodes)
    (hn : n ∈ nodes) (same : m.id = n.id) : m.kind = n.kind := by
  rw [List.inj_on_of_nodup_map distinct hm hn same]

/-- A node that is no conditional was not dropped. -/
theorem not_mem_droppedIds (distinct : (nodes.map (·.id)).Nodup) {n : Node} (member : n ∈ nodes)
    (other : n.kind ≠ .conditional) :
    n.id ∉ droppedIds (warnings nodes edges (Survey.ofGraph nodes edges)) := by
  rw [mem_droppedIds, mem_conditionals]
  rintro ⟨⟨m, there, same, kind⟩, -⟩
  exact other ((kind_unique distinct member there same.symm).trans kind)

theorem any_results :
    (documentOf nodes edges npc interaction initial).results.any (·.id == id) = true ↔
      ∃ n ∈ nodes, n.id = id ∧ n.kind = .result := by
  have listed : id ∈ (resultRows nodes edges).map (·.id) ↔
      ∃ n ∈ nodes, n.id = id ∧ n.kind = .result := by
    simp only [resultRows_ids, mem_filter_ids, Node.isResult, beq_iff_eq]
  rw [← listed]
  simp [documentOf]

theorem any_conditions :
    (documentOf nodes edges npc interaction initial).conditions.any (·.id == id) = true ↔
      ∃ n ∈ nodes, n.id = id ∧ n.kind = .conditional ∧
        n.id ∈ (Survey.ofGraph nodes edges).kept := by
  have listed : id ∈ (conditionRows nodes edges (Survey.ofGraph nodes edges)).map (·.id) ↔
      ∃ n ∈ nodes, n.id = id ∧ n.kind = .conditional ∧
        n.id ∈ (Survey.ofGraph nodes edges).kept := by
    simp only [conditionRows_ids, mem_filter_ids, Node.isConditional, Bool.and_eq_true,
      beq_iff_eq, List.contains_iff_mem]
  rw [← listed]
  simp [documentOf]

/-- A reference that the compiler makes names a row of its type and no dropped conditional. -/
theorem ref?_resolved (distinct : (nodes.map (·.id)).Nodup) {place : Option String} {r : Ref}
    (made : ref? nodes (Survey.ofGraph nodes edges).kept place = some r) :
    (documentOf nodes edges npc interaction initial).refTypes.lookup r.id = some r.type ∧
      r.id ∉ droppedIds (warnings nodes edges (Survey.ofGraph nodes edges)) := by
  rw [Document.lookup_refTypes, Document.refType?]
  obtain ⟨-, ⟨type, known⟩ | ⟨type, known, kept⟩⟩ := ref?_eq_some.mp made
  · obtain ⟨n, member, named, kind⟩ := (kind?_eq_some distinct).mp known
    have noRow : ¬ ∃ m ∈ nodes, m.id = r.id ∧ m.kind = .conditional ∧
        m.id ∈ (Survey.ofGraph nodes edges).kept := by
      rintro ⟨m, other, same, conditional, -⟩
      have both := kind_unique distinct member other (named.trans same.symm)
      rw [kind, conditional] at both
      cases both
    rw [if_neg (mt any_conditions.mp noRow),
      if_pos (any_results.mpr ⟨n, member, named, kind⟩), type, ← named]
    exact ⟨rfl, not_mem_droppedIds distinct member (by simp [kind])⟩
  · obtain ⟨n, member, named, kind⟩ := (kind?_eq_some distinct).mp known
    rw [if_pos (any_conditions.mpr ⟨n, member, named, kind, named ▸ kept⟩), type, mem_droppedIds]
    exact ⟨rfl, fun h => h.2 kept⟩

theorem ref?_of_mem_references (begins : Compile.initial nodes edges
      (Survey.ofGraph nodes edges).kept = .ok initial) {r : Ref}
    (member : r ∈ (documentOf nodes edges npc interaction initial).references) :
    ∃ place, ref? nodes (Survey.ofGraph nodes edges).kept place = some r := by
  simp only [Document.references, documentOf, List.mem_cons, List.mem_append, List.mem_filterMap,
    List.mem_flatMap, List.not_mem_nil, or_false, mem_actionRows, mem_conditionRows] at member
  rcases member with (rfl | ⟨_, ⟨n, -, d, -, rfl⟩, target⟩) |
    ⟨_, ⟨n, -, d, -, -, made⟩, branch⟩
  · obtain ⟨entry, -, made⟩ := initial_eq_ok.mp begins
    exact ⟨_, made⟩
  · exact ⟨_, target⟩
  · rcases branch with rfl | rfl
    · exact ⟨_, conditionRow?_branch made (ConditionRow.mem_branches.mpr (.inl ⟨rfl, rfl⟩))⟩
    · exact ⟨_, conditionRow?_branch made (ConditionRow.mem_branches.mpr (.inr ⟨rfl, rfl⟩))⟩

/-- What a result offers are distinct actions. -/
theorem mem_offered (distinct : (nodes.map (·.id)).Nodup) {source : String}
    (member : id ∈ offered nodes edges source) : ∃ n ∈ nodes, n.id = id ∧ n.kind = .action := by
  have leads : leadsToAction nodes id = true :=
    (List.mem_filter.mp (List.mem_eraseDups.mp member)).2
  exact (kind?_eq_some distinct).mp (by simpa [leadsToAction] using leads)

theorem nodup_offered (nodes : List Node) (edges : List Edge) (source : String) :
    (offered nodes edges source).Nodup := nodup_eraseDups _

/-- The actions of a result row are distinct, and each of them has a row and is no conditional. -/
theorem listed_resolved (distinct : (nodes.map (·.id)).Nodup) {row : ResultRow}
    (member : row ∈ (documentOf nodes edges npc interaction initial).results) :
    row.actions.Nodup ∧ ∀ id ∈ row.actions,
      id ∈ (documentOf nodes edges npc interaction initial).actions.map (·.id) ∧
        id ∉ droppedIds (warnings nodes edges (Survey.ofGraph nodes edges)) := by
  obtain ⟨n, -, data, -, rfl⟩ := mem_resultRows.mp member
  have ordered := orderActions_perm data.preferred data.order (nodup_offered nodes edges n.id)
  refine ⟨ordered.nodup_iff.mpr (nodup_offered nodes edges n.id), fun id listed => ?_⟩
  obtain ⟨action, there, named, kind⟩ := mem_offered distinct (ordered.mem_iff.mp listed)
  constructor
  · show id ∈ (actionRows nodes edges (Survey.ofGraph nodes edges).kept).map (·.id)
    rw [actionRows_ids, mem_filter_ids]
    exact ⟨action, there, named, by simp [Node.isAction, kind]⟩
  · rw [← named]
    exact not_mem_droppedIds distinct there (by simp [kind])

end Compile

open Compile in
/-- A compiled document is closed under references, whatever the edges are: each reference names a
row of its type, each action of a result row has a row and is listed once, and neither names a
conditional that was dropped. -/
theorem compile_closed {nodes : List Node} {edges : List Edge} {npc : String}
    {interaction : Option Interaction} {d : Document} {ws : List Check}
    (distinct : (nodes.map (·.id)).Nodup)
    (compiled : compile nodes edges npc interaction = .compiled d ws) :
    (∀ r ∈ d.references, d.refTypes.lookup r.id = some r.type ∧ r.id ∉ droppedIds ws) ∧
      ∀ row ∈ d.results, ∀ id ∈ row.actions,
        (∃ a ∈ d.actions, a.id = id) ∧ row.actions.count id = 1 ∧ id ∉ droppedIds ws := by
  obtain ⟨initial, begins, rfl, rfl⟩ := compile_eq_compiled.mp compiled
  constructor
  · intro r member
    obtain ⟨place, made⟩ := ref?_of_mem_references begins member
    exact ref?_resolved distinct made
  · intro row member id listed
    obtain ⟨once, resolved⟩ := listed_resolved distinct member
    obtain ⟨action, undropped⟩ := resolved id listed
    exact ⟨List.mem_map.mp action, List.count_eq_one_of_mem once listed, undropped⟩

open Compile in
/-- An action that leads to a conditional without a branch for "false", and edges to nodes that do
not exist or are given twice: the conditional is dropped, and no reference to it is left. -/
theorem compile_closed_of_stray_edges :
    let nodes : List Node := [.entry, { id := "hello", payload := .ofKind .result },
      { id := "leave", payload := .ofKind .action },
      { id := "rich", payload := .ofKind .conditional }]
    let edges : List Edge := [.join Node.entryId .initialTarget "hello" .nodeTrigger,
      .join "hello" .resultActions "leave" .actionOwner,
      .join "hello" .resultActions "nobody" .actionOwner,
      .join "hello" .resultActions "leave" .nodeTrigger,
      .join "leave" .actionResult "rich" .nodeTrigger,
      .join "rich" .conditionTrue "rich" .nodeTrigger]
    let d : Document := {
      npc := "guide"
      actions := [{ id := "leave" }]
      results := [{ id := "hello", actions := ["leave"] }]
      initial := ⟨"hello", .result⟩ }
    let ws := [
      Check.warning "dangling_action" "Action 'leave' leads to unusable node 'rich'" "leave",
      Check.warning "non_action_target" "Result 'hello' offers 'nobody', which is not an action"
        "hello",
      Check.warning "dropped_condition"
        "Condition 'rich' was left out: 'condition_false' is not connected" "rich"]
    compile nodes edges "guide" none = .compiled d ws ∧
      (∀ r ∈ d.references, d.refTypes.lookup r.id = some r.type ∧ r.id ∉ droppedIds ws) ∧
      ∀ row ∈ d.results, ∀ id ∈ row.actions,
        (∃ a ∈ d.actions, a.id = id) ∧ row.actions.count id = 1 ∧ id ∉ droppedIds ws := by
  intro nodes edges d ws
  have distinct : (nodes.map (·.id)).Nodup := by decide
  have compiled : compile nodes edges "guide" none = .compiled d ws := by decide +kernel
  exact ⟨compiled, compile_closed distinct compiled⟩

end Parley
