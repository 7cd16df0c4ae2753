import Parley.Proofs.Graph.Regular

/-!
# Sound graphs

The rules that an author can rely on while editing: one entry, which stays what it is and where it
is, edges that join existing nodes on matching ports, and at most one edge on an output that holds
one.  Every change keeps them as long as the ids that are drawn are new, so they hold in every graph
that is reached from the empty one.
-/

namespace Parley

namespace Graph

/-- The rules of editing. -/
structure Sound (g : Graph) : Prop extends Regular g where
  /-- There is one entry, at the origin and under its id. -/
  start : g.nodes.filter Node.isEntry = [Node.entry]
  entryId : g.entryId = Node.entryId
  placed : ∀ n ∈ g.nodes, ∃ p, n.position = .point p
  fits : ∀ e ∈ g.edges, g.Fits e
  /-- An output that holds one edge has at most one. -/
  single : ∀ id, ∀ port ∈ Port.singles, (g.edgesFrom id (some port.name)).length ≤ 1

variable {g g' : Graph} {n : Node} {e : Edge} {id : String}

open Relation (ReflTransGen)

/-- An edge still fits after a node is put in, unless that changes the kind of a node. -/
theorem Fits.put (fits : g.Fits e) (same : ∀ m, g.node? n.id = some m → n.kind = m.kind) :
    (g.put n).Fits e := by
  have end' (m : Node) (id : String) (found : g.node? id = some m) :
      ∃ m', (g.put n).node? id = some m' ∧ m'.kind = m.kind := by
    rw [node?_put]
    by_cases here : id = n.id
    · exact ⟨n, if_pos here, same m (here ▸ found)⟩
    · exact ⟨m, by rw [if_neg here, found], rfl⟩
  obtain ⟨⟨source, target, hsource, htarget, legal⟩, loopless, named⟩ := fits
  obtain ⟨source', hsource', sourceKind⟩ := end' source e.source hsource
  obtain ⟨target', htarget', targetKind⟩ := end' target e.target htarget
  exact ⟨⟨source', target', hsource', htarget', by rw [sourceKind, targetKind, legal]⟩, loopless,
    named⟩

theorem node?_filter {nodes : List Node} (edges : List Edge) (entryId : String) {other : String}
    (different : other ≠ id) :
    node? ⟨nodes.filter (·.id != id), edges, entryId⟩ other =
      node? ⟨nodes, edges, entryId⟩ other := by
  simp only [node?, List.find?_filter]
  congr 1
  funext n
  by_cases same : n.id = other
  · simp [same, different]
  · simp [same]

/-- An edge still fits after a node at which it does not end is deleted. -/
theorem Fits.delete (fits : g.Fits e) (apart : e.touches id = false) :
    Fits { g with
      nodes := g.nodes.filter (·.id != id)
      edges := g.edges.filter (!·.touches id) } e := by
  obtain ⟨⟨source, target, hsource, htarget, legal⟩, loopless, named⟩ := fits
  simp only [Edge.touches, Bool.or_eq_false_iff, beq_eq_false_iff_ne] at apart
  exact ⟨⟨source, target, (node?_filter _ _ apart.1).trans hsource,
    (node?_filter _ _ apart.2).trans htarget, legal⟩, loopless, named⟩

/-- Putting in a node that is no entry leaves the entries as they are, unless it takes the place of
one. -/
theorem filter_isEntry_put (free : n.isEntry = false)
    (same : ∀ m ∈ g.nodes, m.id = n.id → m.isEntry = false) :
    (g.put n).nodes.filter Node.isEntry = g.nodes.filter Node.isEntry := by
  rw [put]
  split
  next =>
    have kept (m : Node) (member : m ∈ g.nodes) :
        (if m.id == n.id then n else m).isEntry = m.isEntry := by
      split
      next named => rw [free, same m member (beq_iff_eq.mp named)]
      next => rfl
    rw [List.filter_map]
    have left : g.nodes.filter (Node.isEntry ∘ fun m => if m.id == n.id then n else m) =
        g.nodes.filter Node.isEntry := List.filter_congr kept
    rw [left]
    conv_rhs => rw [← List.map_id (g.nodes.filter Node.isEntry)]
    apply List.map_congr_left
    intro m member
    obtain ⟨member, isEntry⟩ := List.mem_filter.mp member
    have other : ¬ m.id = n.id := fun named => by simp [same m member named] at isEntry
    simp [other]
  next => simp [List.filter_append, free]

theorem eq_of_isEntry {m : Node} (start : g.nodes.filter Node.isEntry = [m]) (member : n ∈ g.nodes)
    (isEntry : n.isEntry = true) : n = m := by
  have there : n ∈ g.nodes.filter Node.isEntry := List.mem_filter.mpr ⟨member, isEntry⟩
  rwa [start, List.mem_singleton] at there

/-- Deleting a node that is no entry leaves the entry. -/
theorem filter_isEntry_delete {m : Node} (distinct : g.ids.Nodup)
    (start : g.nodes.filter Node.isEntry = [m]) (found : g.node? id = some n)
    (free : n.isEntry = false) :
    (g.nodes.filter (·.id != id)).filter Node.isEntry = [m] := by
  have other : m.id ≠ id := by
    have member : m ∈ g.nodes.filter Node.isEntry := by simp [start]
    obtain ⟨member, isEntry⟩ := List.mem_filter.mp member
    rintro rfl
    have whole : m = n := Option.some.inj ((node?_of_mem distinct member).symm.trans found)
    exact absurd (whole ▸ isEntry) (by simp [free])
  rw [List.filter_comm, start]
  simpa using other

theorem edgesFrom_append (g : Graph) (e : Edge) (id : String) (handle : Option String) :
    edgesFrom { g with edges := g.edges ++ [e] } id handle =
      g.edgesFrom id handle ++
        if e.source = id ∧ (handle = none ∨ handle = some e.sourceHandle) then [e] else [] := by
  simp only [edgesFrom, List.filter_append, List.filter_singleton]
  congr 1
  simp [Option.isNone_iff_eq_none]

namespace Sound

theorem empty : Graph.empty.Sound where
  toRegular := .empty
  start := rfl
  entryId := rfl
  placed n member := by
    obtain rfl := List.mem_singleton.mp member
    exact ⟨{}, rfl⟩
  fits e member := nomatch member
  single id port member := Nat.zero_le 1

/-- A node may be put in that is placed and takes at most the place of one of its kind. -/
theorem put (h : g.Sound) (named : n.id ≠ "") (free : n.isEntry = false)
    (placed : ∃ p, n.position = .point p)
    (same : ∀ m, g.node? n.id = some m → n.kind = m.kind) : (g.put n).Sound where
  toRegular := h.toRegular.put named fun isEntry => absurd isEntry (by simp [free])
  start := by
    refine (filter_isEntry_put free fun m member named => ?_).trans h.start
    have found : g.node? n.id = some m := named ▸ node?_of_mem h.distinct member
    simpa [Node.isEntry, same m found] using free
  entryId := by simpa using h.entryId
  placed m member := by
    rcases mem_put.mp member with rfl | ⟨member, -⟩
    · exact placed
    · exact h.placed m member
  fits e member := (h.fits e (by simpa using member)).put same
  single id port member := by simpa [edgesFrom] using h.single id port member

theorem delete (h : g.Sound) (found : g.node? id = some n) (free : n.isEntry = false) :
    Sound { g with
      nodes := g.nodes.filter (·.id != id)
      edges := g.edges.filter (!·.touches id) } where
  toRegular := h.toRegular.sublist List.filter_sublist List.filter_sublist
  start := filter_isEntry_delete h.distinct h.start found free
  entryId := h.entryId
  placed m member := h.placed m (List.mem_of_mem_filter member)
  fits e member := by
    obtain ⟨member, apart⟩ := List.mem_filter.mp member
    exact (h.fits e member).delete (by simpa using apart)
  single id port member :=
    Nat.le_trans (List.filter_sublist.filter _).length_le (h.single id port member)

theorem reset (h : g.Sound) (found : g.node? g.entryId = some n) (isEntry : n.isEntry = true) :
    Sound { g with nodes := [n], edges := [] } where
  toRegular := h.toRegular.sublist (List.singleton_sublist.mpr (node?_mem found))
    (List.nil_sublist _)
  start := by
    rw [eq_of_isEntry h.start (node?_mem found) isEntry]
    rfl
  entryId := h.entryId
  placed m member := by
    obtain rfl := List.mem_singleton.mp member
    exact h.placed m (node?_mem found)
  fits e member := nomatch member
  single id port member := Nat.zero_le 1

theorem link (h : g.Sound) (fits : g.Fits e) (unknown : ∀ x ∈ g.edges, x.id ≠ e.id)
    (unused : Port.isSingle e.sourceHandle = true →
      g.edgesFrom e.source (some e.sourceHandle) = []) :
    Sound { g with edges := g.edges ++ [e] } where
  toRegular := h.toRegular.change (Change.link e fits unknown unused : Change True g _)
  start := h.start
  entryId := h.entryId
  placed := h.placed
  fits x member := by
    rcases List.mem_append.mp member with member | member
    · exact ⟨(h.fits x member).ends, (h.fits x member).loopless, (h.fits x member).named⟩
    · rw [List.mem_singleton.mp member]
      exact ⟨fits.ends, fits.loopless, fits.named⟩
  single id port member := by
    rw [edgesFrom_append]
    split
    next here =>
      obtain ⟨rfl, same⟩ := here
      have same : port.name = e.sourceHandle := by simpa using same
      have holdsOne : Port.isSingle e.sourceHandle = true :=
        Port.isSingle_iff.mpr ⟨port, member, same⟩
      simp [same, unused holdsOne]
    next => simpa using h.single id port member

theorem unlink (h : g.Sound) (id : String) :
    Sound { g with edges := g.edges.eraseP (·.id == id) } where
  toRegular := h.toRegular.sublist (List.Sublist.refl _) List.eraseP_sublist
  start := h.start
  entryId := h.entryId
  placed := h.placed
  fits e member := by
    have fits := h.fits e (List.eraseP_subset member)
    exact ⟨fits.ends, fits.loopless, fits.named⟩
  single id port member :=
    Nat.le_trans (List.eraseP_sublist.filter _).length_le (h.single id port member)

/-- An elementary change keeps a graph sound if the ids that are drawn are new. -/
theorem change {new : Prop} (holds : new) (h : g.Sound) (step : Change new g g') : g'.Sound := by
  cases step with
  | add n p free named placed absent =>
      have missing : g.node? n.id = none := node?_eq_none.mpr (absent holds)
      exact h.put named free ⟨p, placed⟩ fun m found => by simp [missing] at found
  | set id m n there free same kind placed =>
      have member := node?_mem there
      refine h.put (same ▸ h.named m member) (by simpa [Node.isEntry, kind] using free) ?_ ?_
      · rcases placed with kept | placed
        · exact kept ▸ h.placed m member
        · exact placed
      · intro x found
        have found : g.node? m.id = some x := same ▸ found
        rw [node?_of_mem h.distinct member] at found
        exact Option.some.inj found ▸ kind
  | delete id n there free => exact h.delete there free
  | reset n there isEntry => exact h.reset there isEntry
  | link e fits unknown unused => exact h.link fits unknown unused
  | unlink id => exact h.unlink id

theorem changes {new : Prop} (holds : new) (h : g.Sound)
    (run : ReflTransGen (Change new) g g') : g'.Sound :=
  preserved_by_changes (P := Sound) (change holds) h run

/-- A sound graph has no violations. -/
theorem violations_eq_nil (h : g.Sound) : g.violations = [] :=
  violations_eq_nil_iff.mpr fun e member => (h.fits e member).ends

end Sound

/-- Every graph that is reached is sound. -/
theorem Reached.sound (run : Reached g) : g.Sound := by
  induction run with
  | refl => exact .empty
  | tail _ step ih =>
      obtain ⟨s, e, typed, drawn, rfl⟩ := step
      exact ih.changes drawn (edit_changes typed)

/-- The rules of editing hold in every graph that is reached: it is sound, each of its nodes is
found under its own id, and nothing is reported about it. -/
theorem reached_rules (run : Reached g) :
    g.Sound ∧ (∀ n ∈ g.nodes, g.node? n.id = some n) ∧ g.violations = [] :=
  ⟨run.sound, fun _ member => node?_of_mem run.sound.distinct member,
    run.sound.violations_eq_nil⟩

/-- The id of a copy is drawn: here the entry leads to a result, which is copied. -/
theorem reached_rules_of_copy :
    let edits : List Edit := [
      .createNode (.str "result") .omitted (.str "hello"),
      .connect Node.entryId "initial_target" "hello" "node_trigger",
      .duplicate ["hello"] (.float .zero)]
    let g := Graph.empty.after (.countingFrom 0) edits
    g.nodes.length = 3 ∧ g.edges.length = 1 ∧ g.Sound ∧
      (∀ n ∈ g.nodes, g.node? n.id = some n) ∧ g.violations = [] := by
  intro edits g
  have new : Graph.empty.RunsNew (.countingFrom 0) edits := by
    refine ⟨trivial, ?_, trivial, ?_, trivial, ?_, trivial⟩ <;> decide
  exact ⟨by decide, by decide, reached_rules (Reached.after .refl new)⟩

end Graph

end Parley
