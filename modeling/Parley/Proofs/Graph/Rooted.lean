import Parley.Proofs.Graph.Regular

/-!
# Where the entry stands

Editing leaves the entry in front of the other nodes, and at most one edge leaves it.  Nothing keeps
a copy from being put on the id of the entry, though, if that id is drawn; then there is no entry
any more, and no edit brings it back.  `Arranged` says this of any run of edits, whatever the ids
that are drawn, together with what holds of all nodes and edges: a node has a point, and an edge
leads to another node of the graph.
-/

namespace Parley

/-- The edge from the entry to a node. -/
def Edge.start (target : String) : Edge := .join Node.entryId .initialTarget target .nodeTrigger

namespace Graph

/-- Whether the entry stands in front of nodes that are no entries, and at most one edge leaves
it. -/
structure Rooted (g : Graph) : Prop where
  front : ∃ others, g.nodes = Node.entry :: others ∧ ∀ n ∈ others, n.isEntry = false
  leaving : ∃ target : Option String,
    g.edges.filter (·.source == Node.entryId) = target.toList.map Edge.start

/-- What is known of the nodes and edges after any edits. -/
structure Arranged (g : Graph) : Prop where
  placed : ∀ n ∈ g.nodes, ∃ p, n.position = .point p
  known : ∀ e ∈ g.edges, e.target ∈ g.ids
  loopless : ∀ e ∈ g.edges, e.source ≠ e.target
  entry : (∀ n ∈ g.nodes, n.isEntry = false) ∨ g.Rooted

variable {new : Prop} {g g' : Graph} {n : Node} {e : Edge} {id : String}

open Relation (ReflTransGen)

namespace Rooted

/-- The entry is found under its id. -/
theorem node?_entryId (h : g.Rooted) : g.node? Node.entryId = some Node.entry := by
  obtain ⟨others, front, -⟩ := h.front
  simp [node?, front, Node.entry]

theorem eq_entry (h : g.Rooted) (member : n ∈ g.nodes) (isEntry : n.isEntry = true) :
    n = Node.entry := by
  obtain ⟨others, front, free⟩ := h.front
  rw [front] at member
  rcases List.mem_cons.mp member with same | member
  · exact same
  · exact absurd isEntry (by simp [free n member])

/-- Of at most one edge from the entry, at most one is left. -/
theorem leaving_of_sublist {edges : List Edge} {target : Option String}
    (fewer : edges.Sublist (target.toList.map Edge.start)) :
    ∃ left : Option String, edges = left.toList.map Edge.start := by
  cases target with
  | none => exact ⟨none, List.sublist_nil.mp fewer⟩
  | some t =>
      rcases List.sublist_singleton.mp fewer with rfl | rfl
      · exact ⟨none, rfl⟩
      · exact ⟨some t, rfl⟩

/-- A node that is put in stands behind the entry, unless it takes the place of the entry. -/
theorem put (h : g.Rooted) (free : n.isEntry = false) :
    (∀ m ∈ (g.put n).nodes, m.isEntry = false) ∨ (g.put n).Rooted := by
  by_cases taken : n.id = Node.entryId
  · left
    intro m member
    rcases mem_put.mp member with rfl | ⟨member, other⟩
    · exact free
    · cases isEntry : m.isEntry with
      | false => rfl
      | true =>
          rw [h.eq_entry member isEntry] at other
          exact absurd taken.symm other
  · right
    obtain ⟨others, front, otherwise⟩ := h.front
    refine ⟨?_, by simpa using h.leaving⟩
    have stays : ¬ Node.entry.id = n.id := fun same => taken same.symm
    rw [Graph.put]
    split
    next =>
      refine ⟨others.map fun m => if m.id == n.id then n else m, ?_, fun m member => ?_⟩
      · simp [front, stays]
      · obtain ⟨x, there, rfl⟩ := List.mem_map.mp member
        split
        next => exact free
        next => exact otherwise x there
    next =>
      refine ⟨others ++ [n], by simp [front], fun m member => ?_⟩
      rcases List.mem_append.mp member with member | member
      · exact otherwise m member
      · exact List.mem_singleton.mp member ▸ free

/-- Nodes other than the entry may be deleted with the edges at them. -/
theorem delete (h : g.Rooted) (there : g.node? id = some n) (free : n.isEntry = false) :
    Rooted { g with
      nodes := g.nodes.filter (·.id != id)
      edges := g.edges.filter (!·.touches id) } where
  front := by
    obtain ⟨others, front, otherwise⟩ := h.front
    have other : Node.entry.id ≠ id := by
      rintro rfl
      cases h.node?_entryId.symm.trans there
      cases free
    refine ⟨others.filter (·.id != id), ?_, fun m member => ?_⟩
    · simp [front, other]
    · exact otherwise m (List.mem_of_mem_filter member)
  leaving := by
    obtain ⟨target, leaving⟩ := h.leaving
    apply leaving_of_sublist
    rw [List.filter_comm, leaving]
    exact List.filter_sublist

/-- Clearing a graph leaves its entry. -/
theorem reset (h : g.Rooted) (there : g.node? g.entryId = some n) (isEntry : n.isEntry = true) :
    Rooted { g with nodes := [n], edges := [] } where
  front := ⟨[], by rw [h.eq_entry (node?_mem there) isEntry], fun _ member => nomatch member⟩
  leaving := ⟨none, rfl⟩

/-- An edge that fits and leaves the entry leaves it from its only port. -/
theorem eq_start (h : g.Rooted) (fits : g.Fits e) (start : e.source = Node.entryId) :
    e = Edge.start e.target := by
  obtain ⟨⟨source, target, found, -, legal⟩, -, named⟩ := fits
  rw [start, h.node?_entryId, Option.some.injEq] at found
  subst found
  obtain ⟨output, leaves, sourceHandle, -, targetHandle⟩ := Port.problem?_eq_none.mp legal
  obtain rfl : output = .initialTarget := List.mem_singleton.mp leaves
  have targetHandle : Port.nodeTrigger.name = e.targetHandle := targetHandle
  rw [Edge.start, Edge.join, Edge.make, sourceHandle, targetHandle, ← start, ← named]

/-- An edge from the entry is added only where there is none. -/
theorem link (h : g.Rooted) (fits : g.Fits e)
    (unused : Port.isSingle e.sourceHandle = true →
      g.edgesFrom e.source (some e.sourceHandle) = []) :
    Rooted { g with edges := g.edges ++ [e] } where
  front := h.front
  leaving := by
    obtain ⟨target, leaving⟩ := h.leaving
    by_cases start : e.source = Node.entryId
    -- The only port of the entry holds one edge, so there was none before.
    · obtain ⟨other, rfl⟩ : ∃ other, e = Edge.start other := ⟨e.target, h.eq_start fits start⟩
      have unused : g.edgesFrom Node.entryId (some Port.initialTarget.name) = [] :=
        unused (show Port.isSingle Port.initialTarget.name = true by decide)
      cases target with
      | none => exact ⟨some other, by simp [List.filter_append, leaving, start]⟩
      | some t =>
          have first : Edge.start t ∈ g.edges.filter (·.source == Node.entryId) := by
            simp [leaving]
          have there : Edge.start t ∈ g.edgesFrom Node.entryId (some Port.initialTarget.name) :=
            List.mem_filter.mpr ⟨List.mem_of_mem_filter first, by
              simp [Edge.start, Edge.join, Edge.make]⟩
          rw [unused] at there
          cases there
    · exact ⟨target, by simp [List.filter_append, leaving, start]⟩

theorem unlink (h : g.Rooted) (id : String) :
    Rooted { g with edges := g.edges.eraseP (·.id == id) } where
  front := h.front
  leaving := by
    obtain ⟨target, leaving⟩ := h.leaving
    exact leaving_of_sublist (leaving ▸ List.eraseP_sublist.filter _)

end Rooted

namespace Arranged

theorem empty : Graph.empty.Arranged where
  placed n member := ⟨{}, by rw [List.mem_singleton.mp member]; rfl⟩
  known e member := nomatch member
  loopless e member := nomatch member
  entry := .inr ⟨⟨[], rfl, fun _ member => nomatch member⟩, none, rfl⟩

theorem put (h : g.Arranged) (free : n.isEntry = false) (placed : ∃ p, n.position = .point p) :
    (g.put n).Arranged where
  placed m member := by
    rcases mem_put.mp member with rfl | ⟨member, -⟩
    · exact placed
    · exact h.placed m member
  known e member := mem_ids_put.mpr (.inr (h.known e (by simpa using member)))
  loopless e member := h.loopless e (by simpa using member)
  entry := by
    rcases h.entry with none | rooted
    · left
      intro m member
      rcases mem_put.mp member with rfl | ⟨member, -⟩
      · exact free
      · exact none m member
    · exact rooted.put free

/-- An elementary change keeps a graph arranged. -/
theorem change (h : g.Arranged) (step : Change new g g') : g'.Arranged := by
  cases step with
  | add n p free named placed absent => exact h.put free ⟨p, placed⟩
  | set id m n there free same kind placed =>
      refine h.put (by simpa [Node.isEntry, kind] using free) ?_
      rcases placed with kept | placed
      · exact kept ▸ h.placed m (node?_mem there)
      · exact placed
  | delete id n there free =>
      constructor
      case placed => exact fun m member => h.placed m (List.mem_of_mem_filter member)
      case known =>
        intro e member
        obtain ⟨member, apart⟩ := List.mem_filter.mp member
        obtain ⟨m, there, named⟩ := mem_ids.mp (h.known e member)
        simp only [Edge.touches, Bool.not_eq_true', Bool.or_eq_false_iff,
          beq_eq_false_iff_ne] at apart
        exact mem_ids.mpr ⟨m, List.mem_filter.mpr ⟨there, by simpa [named] using apart.2⟩, named⟩
      case loopless => exact fun e member => h.loopless e (List.mem_of_mem_filter member)
      case entry =>
        rcases h.entry with none | rooted
        · exact .inl fun m member => none m (List.mem_of_mem_filter member)
        · exact .inr (rooted.delete there free)
  | reset n there isEntry =>
      constructor
      case placed =>
        intro m member
        rw [List.mem_singleton.mp member]
        exact h.placed n (node?_mem there)
      case known => exact fun e member => absurd member List.not_mem_nil
      case loopless => exact fun e member => absurd member List.not_mem_nil
      case entry =>
        rcases h.entry with none | rooted
        · exact absurd isEntry (by simp [none n (node?_mem there)])
        · exact .inr (rooted.reset there isEntry)
  | link e fits unknown unused =>
      obtain ⟨source, target, -, found, -⟩ := fits.ends
      constructor
      case placed => exact h.placed
      case known =>
        intro x member
        rcases List.mem_append.mp member with member | member
        · exact h.known x member
        · rw [List.mem_singleton.mp member]
          exact node?_id found ▸ id_mem (node?_mem found)
      case loopless =>
        intro x member
        rcases List.mem_append.mp member with member | member
        · exact h.loopless x member
        · exact List.mem_singleton.mp member ▸ fits.loopless
      case entry => exact h.entry.imp_right fun rooted => rooted.link fits unused
  | unlink id =>
      exact ⟨h.placed, fun e member => h.known e (List.eraseP_subset member),
        fun e member => h.loopless e (List.eraseP_subset member),
        h.entry.imp_right fun rooted => rooted.unlink id⟩

/-- Any run of edits keeps a graph arranged, whether or not they succeed. -/
theorem run (h : g.Arranged) (steps : ReflTransGen Step g g') : g'.Arranged :=
  preserved_by_steps (P := Arranged) change h steps

end Arranged

end Graph

end Parley
