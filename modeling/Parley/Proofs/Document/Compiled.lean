import Parley.Proofs.Document.Canonical

/-!
# Compiled documents are canonical

The document that a regular graph is compiled into is canonical, although the graph may hold edges
that do not fit and results with outdated orders: a row is made for each node that has one, each
reference was resolved on the way, and each edge of the document is an edge of the graph.
-/

namespace Parley

open Compile

namespace Graph.Regular

variable {g : Graph} (h : g.Regular) {source target : String} {port : Port}

include h

/-- An edge that leaves a port leads to the input of that port. -/
theorem eq_join {e : Edge} (member : e ∈ g.edges) (leaves : e.sourceHandle = port.name) :
    e = .join e.source port e.target port.input := by
  obtain ⟨output, joined⟩ := h.ported e member
  have same : output = port := by
    rw [joined] at leaves
    exact Port.name_injective leaves
  exact same ▸ joined

theorem join_mem_of_first? (found : first? g.edges source port = some target) :
    .join source port target port.input ∈ g.edges := by
  obtain ⟨e, member, rfl, leaves, rfl⟩ := first?_eq_some found
  exact h.eq_join member leaves ▸ member

theorem join_mem_of_all (found : target ∈ all g.edges source port) :
    .join source port target port.input ∈ g.edges := by
  obtain ⟨e, member, rfl, leaves, rfl⟩ := mem_all.mp found
  exact h.eq_join member leaves ▸ member

end Graph.Regular

namespace Compile

variable {nodes : List Node} {edges : List Edge} {npc : String}
  {interaction : Option Interaction} {initial : Ref} {id : String}

theorem nodup_filter_ids (distinct : (nodes.map (·.id)).Nodup) (p : Node → Bool) :
    ((nodes.filter p).map (·.id)).Nodup :=
  distinct.sublist (List.filter_sublist.map _)

/-- Nodes with distinct ids that differ in some respect differ in their ids. -/
theorem ne_of_filter_ids (distinct : (nodes.map (·.id)).Nodup) {p q : Node → Bool} {x y : String}
    (apart : ∀ n, p n = true → q n = false) (hx : x ∈ (nodes.filter p).map (·.id))
    (hy : y ∈ (nodes.filter q).map (·.id)) : x ≠ y := by
  obtain ⟨m, hm, rfl, first⟩ := mem_filter_ids.mp hx
  obtain ⟨n, hn, rfl, second⟩ := mem_filter_ids.mp hy
  intro same
  have whole : m = n := List.inj_on_of_nodup_map distinct hm hn same
  rw [whole] at first
  rw [apart n first] at second
  cases second

/-- The nodes that have a row: all but the entry and the conditionals that are dropped. -/
theorem mem_rowIds : id ∈ (documentOf nodes edges npc interaction initial).rowIds ↔
    ∃ n ∈ nodes, n.id = id ∧ n.isEntry = false ∧
      (n.kind = .conditional → id ∈ (Survey.ofGraph nodes edges).kept) := by
  simp only [Document.rowIds, documentOf, resultRows_ids, conditionRows_ids, actionRows_ids,
    List.mem_append, mem_filter_ids]
  constructor
  · rintro ((⟨n, member, rfl, kind⟩ | ⟨n, member, rfl, kind⟩) | ⟨n, member, rfl, kind⟩)
    · have kind : n.kind = .result := by simpa [Node.isResult] using kind
      exact ⟨n, member, rfl, by simp [Node.isEntry, kind], by simp [kind]⟩
    · obtain ⟨kind, kept⟩ : n.kind = .conditional ∧ _ := by simpa [Node.isConditional] using kind
      exact ⟨n, member, rfl, by simp [Node.isEntry, kind], fun _ => kept⟩
    · have kind : n.kind = .action := by simpa [Node.isAction] using kind
      exact ⟨n, member, rfl, by simp [Node.isEntry, kind], by simp [kind]⟩
  · rintro ⟨n, member, rfl, free, kept⟩
    cases kind : n.kind with
    | entry => simp [Node.isEntry, kind] at free
    | action => exact .inr ⟨n, member, rfl, by simp [Node.isAction, kind]⟩
    | result => exact .inl (.inl ⟨n, member, rfl, by simp [Node.isResult, kind]⟩)
    | conditional =>
        exact .inl (.inr ⟨n, member, rfl, by simp [Node.isConditional, kind, kept kind]⟩)

section Links

variable {n : Node} (member : n ∈ nodes) {target : String}

include member

/-- What an action leads to is stored, if a reference to it can be made. -/
theorem links_actionResult {data : ActionData} (payload : n.payload = .action data)
    (led : first? edges n.id .actionResult = some target) {type : RefType}
    (made : ref? nodes (Survey.ofGraph nodes edges).kept (some target) = some ⟨target, type⟩) :
    (documentOf nodes edges npc interaction initial).Links
      (.join n.id .actionResult target .nodeTrigger) := by
  let r := actionRow nodes edges (Survey.ofGraph nodes edges).kept n data
  have row : r ∈ (documentOf nodes edges npc interaction initial).actions :=
    mem_actionRows.mpr ⟨n, member, data, payload, rfl⟩
  have given : r.target = some ⟨target, type⟩ := by
    rw [← made, ← led]
    rfl
  have link := Document.Links.target r row ⟨target, type⟩ given
  exact link

/-- What a result offers is stored, if it is an action. -/
theorem links_resultActions {data : ResultData} (payload : n.payload = .result data)
    (offers : target ∈ all edges n.id .resultActions) (kind : kind? nodes target = some .action) :
    (documentOf nodes edges npc interaction initial).Links
      (.join n.id .resultActions target .actionOwner) := by
  let r := resultRow nodes edges n data
  have row : r ∈ (documentOf nodes edges npc interaction initial).results :=
    mem_resultRows.mpr ⟨n, member, data, payload, rfl⟩
  have leads : leadsToAction nodes target = true := by simp [leadsToAction, kind]
  have offered : target ∈ offered nodes edges n.id :=
    List.mem_eraseDups.mpr (List.mem_filter.mpr ⟨offers, leads⟩)
  have listed : target ∈ r.actions :=
    (mem_orderActions (nodup_offered nodes edges n.id)).mpr offered
  have link := Document.Links.offer r row target listed
  exact link

/-- The branches of a conditional that is kept are stored. -/
theorem links_branch {data : ConditionalData} (payload : n.payload = .conditional data)
    (kept : n.id ∈ (Survey.ofGraph nodes edges).kept) {port : Port}
    (output : port ∈ Port.outputs .conditional) (led : first? edges n.id port = some target) :
    (documentOf nodes edges npc interaction initial).Links
      (.join n.id port target .nodeTrigger) := by
  obtain ⟨r, made⟩ := Option.isSome_iff_exists.mp
    (conditionRow?_isSome (Survey.ofGraph_closed nodes edges) kept data)
  have row : r ∈ (documentOf nodes edges npc interaction initial).conditions :=
    mem_conditionRows.mpr ⟨n, member, data, payload, kept, made⟩
  obtain ⟨t, branch⟩ : ∃ t, (port, t) ∈ r.branches := by
    simp only [Port.outputs, List.mem_cons, List.not_mem_nil, or_false] at output
    rcases output with rfl | rfl
    · exact ⟨r.onTrue, ConditionRow.mem_branches.mpr (.inl ⟨rfl, rfl⟩)⟩
    · exact ⟨r.onFalse, ConditionRow.mem_branches.mpr (.inr ⟨rfl, rfl⟩)⟩
  have same : t.id = target :=
    Option.some.inj ((ref?_eq_some.mp (conditionRow?_branch made branch)).1.symm.trans led)
  have link := Document.Links.branch r row port t branch
  rw [conditionRow?_id made, same] at link
  exact link

end Links

end Compile

namespace Graph.Regular

variable {g : Graph} (h : g.Regular) {npc : String} {interaction : Option Interaction}
  {initial : Ref} (begins : Compile.initial g.nodes g.edges
    (Survey.ofGraph g.nodes g.edges).kept = .ok initial)

include h begins

/-- Each edge of the document is an edge of the graph. -/
theorem mem_of_links {e : Edge}
    (link : (documentOf g.nodes g.edges npc interaction initial).Links e) : e ∈ g.edges := by
  cases link with
  | entry row =>
      obtain ⟨entry, found, made⟩ := initial_eq_ok.mp begins
      have named : entry.id = Node.entryId :=
        h.entry entry (List.mem_of_find?_eq_some found) (List.find?_some found)
      exact h.join_mem_of_first? (named ▸ (ref?_eq_some.mp made).1)
  | offer r row id listed =>
      obtain ⟨n, -, data, -, rfl⟩ := mem_resultRows.mp row
      have offers := (mem_orderActions (nodup_offered g.nodes g.edges n.id)).mp listed
      exact h.join_mem_of_all (List.mem_filter.mp (List.mem_eraseDups.mp offers)).1
  | branch r row port t branch =>
      obtain ⟨n, -, data, -, -, made⟩ := mem_conditionRows.mp row
      have found := h.join_mem_of_first? (ref?_eq_some.mp (conditionRow?_branch made branch)).1
      rw [conditionRow?_id made]
      rcases ConditionRow.mem_branches.mp branch with ⟨rfl, -⟩ | ⟨rfl, -⟩ <;> exact found
  | target r row t given =>
      obtain ⟨n, -, data, -, rfl⟩ := mem_actionRows.mp row
      exact h.join_mem_of_first? (ref?_eq_some.mp given).1

/-- The ids of rows are distinct, since those of nodes are, and none is that of the entry. -/
theorem rowIds_distinct :
    (Node.entryId :: (documentOf g.nodes g.edges npc interaction initial).rowIds).Nodup := by
  obtain ⟨entry, found, -⟩ := initial_eq_ok.mp begins
  have there : entry ∈ g.nodes := List.mem_of_find?_eq_some found
  have isEntry : entry.isEntry = true := List.find?_some found
  refine List.nodup_cons.mpr ⟨fun row => ?_, ?_⟩
  · obtain ⟨n, member, named, free, -⟩ := mem_rowIds.mp row
    have same := eq_of_id_eq h.distinct member there
      (named.trans (h.entry entry there isEntry).symm)
    rw [← same, free] at isEntry
    cases isEntry
  · simp only [Document.rowIds, documentOf, resultRows_ids, conditionRows_ids, actionRows_ids]
    refine List.nodup_append.mpr ⟨List.nodup_append.mpr ⟨nodup_filter_ids h.distinct _,
      nodup_filter_ids h.distinct _, fun x hx y hy => ?_⟩, nodup_filter_ids h.distinct _,
      fun x hx y hy => ?_⟩
    · refine ne_of_filter_ids h.distinct (fun n kind => ?_) hx hy
      have kind : n.kind = .result := by simpa [Node.isResult] using kind
      simp [Node.isConditional, kind]
    · rcases List.mem_append.mp hx with hx | hx
      · refine ne_of_filter_ids h.distinct (fun n kind => ?_) hx hy
        have kind : n.kind = .result := by simpa [Node.isResult] using kind
        simp [Node.isAction, kind]
      · refine ne_of_filter_ids h.distinct (fun n kind => ?_) hx hy
        obtain ⟨kind, -⟩ : n.kind = .conditional ∧ _ := by simpa [Node.isConditional] using kind
        simp [Node.isAction, kind]

/-- The document of a regular graph is canonical. -/
theorem canonical : (documentOf g.nodes g.edges npc interaction initial).Canonical := by
  have typed (r : Ref)
      (member : r ∈ (documentOf g.nodes g.edges npc interaction initial).references) :
      (documentOf g.nodes g.edges npc interaction initial).refType? r.id = some r.type := by
    obtain ⟨place, made⟩ := ref?_of_mem_references begins member
    rw [← Document.lookup_refTypes]
    exact (ref?_resolved h.distinct made).1
  refine ⟨⟨?_, h.rowIds_distinct begins, ?_, ?_, ?_⟩, typed, ?_, ?_⟩
  · intro row
    obtain ⟨n, member, empty, -⟩ := mem_rowIds.mp row
    exact h.named n member empty
  · intro r member
    rcases Document.refType?_eq_some (typed r member) with ⟨-, row⟩ | ⟨-, row⟩
    · exact List.mem_append_left _ (List.mem_append_right _ row)
    · exact List.mem_append_left _ (List.mem_append_left _ row)
  · intro row member id listed
    exact ((listed_resolved h.distinct member).2 id listed).1
  · refine List.Nodup.map_on (fun a ha b hb same => ?_)
      (Load.nodup_edges (List.nodup_cons.mp (h.rowIds_distinct begins)).2 fun row member =>
        (listed_resolved h.distinct member).1)
    have ha := h.mem_of_links begins (Load.mem_edges.mp ha)
    have hb := h.mem_of_links begins (Load.mem_edges.mp hb)
    exact List.inj_on_of_nodup_map h.edgesDistinct ha hb same
  · exact fun row member => (listed_resolved h.distinct member).1
  · intro row member
    obtain ⟨n, -, data, -, rfl⟩ := mem_resultRows.mp member
    exact orderActions_stable (nodup_offered g.nodes g.edges n.id)

end Graph.Regular

end Parley
