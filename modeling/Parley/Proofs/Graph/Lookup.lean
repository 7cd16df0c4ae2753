import Parley.Graph.Edit
import Mathlib.Data.List.Nodup

/-!
# Looking nodes up

A graph keeps its nodes in a list and finds them by id.  In a graph whose ids are distinct a node
is found under its own id, so that the list and the lookup say the same.  `Graph.put` is a write to
that lookup: `node?_put` and `mem_put` say what it changes, and neither needs distinct ids.
-/

namespace Parley.Graph

variable {g : Graph} {m n : Node} {id : String}

@[simp] theorem put_edges (g : Graph) (n : Node) : (g.put n).edges = g.edges := by
  rw [put]
  split <;> rfl

@[simp] theorem put_entryId (g : Graph) (n : Node) : (g.put n).entryId = g.entryId := by
  rw [put]
  split <;> rfl

theorem mem_ids : id ∈ g.ids ↔ ∃ n ∈ g.nodes, n.id = id := List.mem_map

theorem id_mem (member : n ∈ g.nodes) : n.id ∈ g.ids := List.mem_map_of_mem member

theorem node?_mem (found : g.node? id = some n) : n ∈ g.nodes := List.mem_of_find?_eq_some found

theorem node?_id (found : g.node? id = some n) : n.id = id := by
  simpa using List.find?_some found

theorem node?_eq_none : g.node? id = none ↔ id ∉ g.ids := by
  simp [node?, mem_ids]

theorem hasNode_eq_false : g.hasNode id = false ↔ id ∉ g.ids := by
  rw [← node?_eq_none, hasNode, Option.isSome_eq_false_iff, Option.isNone_iff_eq_none]

theorem hasNode_iff : g.hasNode id = true ↔ id ∈ g.ids := by
  rw [← not_iff_not, Bool.not_eq_true, hasNode_eq_false]

/-- Two nodes of a graph with distinct ids that have one id are the same. -/
theorem eq_of_id_eq (distinct : g.ids.Nodup) (hm : m ∈ g.nodes) (hn : n ∈ g.nodes)
    (same : m.id = n.id) : m = n :=
  List.inj_on_of_nodup_map distinct hm hn same

/-- With distinct ids every node is stored under its own id. -/
theorem node?_of_mem (distinct : g.ids.Nodup) (member : n ∈ g.nodes) :
    g.node? n.id = some n := by
  cases found : g.node? n.id with
  | none => exact absurd (id_mem member) (node?_eq_none.mp found)
  | some m => rw [eq_of_id_eq distinct (node?_mem found) member (node?_id found)]

theorem node?_eq_some (distinct : g.ids.Nodup) :
    g.node? id = some n ↔ n ∈ g.nodes ∧ n.id = id :=
  ⟨fun found => ⟨node?_mem found, node?_id found⟩,
    fun ⟨member, named⟩ => named ▸ node?_of_mem distinct member⟩

/-- Putting a node in writes its id and no other. -/
theorem node?_put (g : Graph) (n : Node) (id : String) :
    (g.put n).node? id = if id = n.id then some n else g.node? id := by
  by_cases there : g.hasNode n.id
  · have ids (m : Node) : (if m.id == n.id then n else m).id = m.id := by
      split
      next same => exact (beq_iff_eq.mp same).symm
      next => rfl
    have kept : (g.put n).node? id =
        (g.node? id).map fun m => if m.id == n.id then n else m := by
      simp only [put, there, if_true, node?, List.find?_map, Function.comp_def, ids]
    rw [kept]
    by_cases same : id = n.id
    · obtain ⟨m, found⟩ := Option.isSome_iff_exists.mp there
      simp [same, found, node?_id found]
    · rw [if_neg same]
      cases found : g.node? id with
      | none => rfl
      | some m =>
          have other : m.id ≠ n.id := node?_id found ▸ same
          simp [other]
  · have absent : g.node? n.id = none := by simpa [hasNode] using there
    have behind : (g.put n).node? id = (g.node? id).or ([n].find? (·.id == id)) := by
      simp only [put, there, if_false, node?, List.find?_append, Bool.false_eq_true]
    rw [behind]
    by_cases same : id = n.id
    · simp [same, absent]
    · have other : ¬ n.id = id := fun h => same h.symm
      simp [same, other]

/-- Putting back a node that is there changes nothing. -/
theorem put_eq_self (distinct : g.ids.Nodup) (member : n ∈ g.nodes) : g.put n = g := by
  have same : (g.nodes.map fun m => if m.id == n.id then n else m) = g.nodes := by
    refine (List.map_congr_left fun m there => ?_).trans (List.map_id g.nodes)
    split
    next same => exact eq_of_id_eq distinct member there (beq_iff_eq.mp same).symm
    next => rfl
  rw [put, if_pos (hasNode_iff.mpr (id_mem member)), same]

/-- A node is put in the place of the one that has its id. -/
theorem put_of_node? (found : g.node? id = some n) (same : m.id = id) :
    g.put m = { g with nodes := g.nodes.map fun k => if k.id = id then m else k } := by
  have there : g.hasNode id = true := hasNode_iff.mpr (node?_id found ▸ id_mem (node?_mem found))
  simp only [put, same, there, if_true, beq_iff_eq]

theorem mem_put : m ∈ (g.put n).nodes ↔ m = n ∨ m ∈ g.nodes ∧ m.id ≠ n.id := by
  by_cases there : g.hasNode n.id
  · obtain ⟨x, hx, named⟩ := mem_ids.mp (hasNode_iff.mp there)
    simp only [put, there, if_true, List.mem_map, beq_iff_eq]
    constructor
    · rintro ⟨y, hy, rfl⟩
      by_cases same : y.id = n.id
      · exact .inl (if_pos same)
      · exact .inr (by simpa [same] using hy)
    · rintro (rfl | ⟨hm, other⟩)
      · exact ⟨x, hx, if_pos named⟩
      · exact ⟨m, hm, if_neg other⟩
  · have other (y : Node) (hy : y ∈ g.nodes) : y.id ≠ n.id := fun same =>
      there (hasNode_iff.mpr (same ▸ id_mem hy))
    simp only [put, there, if_false, Bool.false_eq_true, List.mem_append, List.mem_singleton]
    constructor
    · rintro (hm | rfl)
      · exact .inr ⟨hm, other m hm⟩
      · exact .inl rfl
    · rintro (rfl | ⟨hm, -⟩)
      · exact .inr rfl
      · exact .inl hm

theorem ids_put (g : Graph) (n : Node) :
    (g.put n).ids = if g.hasNode n.id then g.ids else g.ids ++ [n.id] := by
  by_cases there : g.hasNode n.id
  · simp only [put, there, if_true, ids, List.map_map]
    apply List.map_congr_left
    intro m _
    by_cases same : m.id = n.id <;> simp [same]
  · simp [put, there, ids]

theorem mem_ids_put : id ∈ (g.put n).ids ↔ id = n.id ∨ id ∈ g.ids := by
  by_cases there : g.hasNode n.id
  · rw [ids_put, if_pos there, iff_or_self]
    rintro rfl
    exact hasNode_iff.mp there
  · rw [ids_put, if_neg there, List.mem_append, List.mem_singleton, or_comm]

theorem ids_put_nodup (distinct : g.ids.Nodup) (n : Node) : (g.put n).ids.Nodup := by
  rw [ids_put]
  split
  next => exact distinct
  next there =>
    have absent : n.id ∉ g.ids := fun h => there (hasNode_iff.mpr h)
    rw [List.nodup_append_comm]
    exact List.nodup_cons.mpr ⟨absent, distinct⟩

end Parley.Graph
