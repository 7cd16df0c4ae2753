import Parley.Proofs.Document.Loading

/-!
# What is loaded

A value is loaded if it can be read as a document whose rows have distinct ids, none of them empty
and none that of the entry.  The graph is then regular, whatever the value was.  A stored document
that is closed under references is loaded as a whole and without a warning.
-/

namespace Parley

namespace Load

variable {d : Document} {es : List Edge} {ids seen : List String} {kind : Kind} {id : String}

theorem checkId_eq_ok : checkId kind id = .ok () ↔ id ≠ "" := by
  by_cases empty : id = ""
  · simp [checkId, empty]
  · simp [checkId, String.isEmpty_iff, empty]

/-- The check of the rows asks for an id of each. -/
theorem checkRows_eq_ok (d : Document) : (do
    d.results.forM fun r => checkId .result r.id
    d.conditions.forM fun r => checkId .conditional r.id
    d.actions.forM fun r => checkId .action r.id : Except Invalid Unit) = .ok () ↔
      "" ∉ d.rowIds := by
  have given {α : Type} (rows : List α) (kind : Kind) (key : α → String) :
      (rows.forM fun r => checkId kind (key r)) = .ok () ↔ "" ∉ rows.map key := by
    simp only [forM_eq_ok, checkId_eq_ok, List.mem_map, not_exists, not_and, ne_eq]
  rw [Document.rowIds, List.mem_append, List.mem_append, not_or, not_or,
    ← given d.results .result, ← given d.conditions .conditional, ← given d.actions .action]
  constructor
  · intro h
    obtain ⟨_, results, h⟩ := bind_eq_ok.mp h
    obtain ⟨_, conditions, actions⟩ := bind_eq_ok.mp h
    exact ⟨⟨results, conditions⟩, actions⟩
  · rintro ⟨⟨results, conditions⟩, actions⟩
    exact bind_eq_ok.mpr ⟨(), results, bind_eq_ok.mpr ⟨(), conditions, actions⟩⟩

theorem shared_eq_false : shared ids = false ↔ ids.Nodup := by
  rw [← length_eraseDups_eq]
  simp [shared]

/-- Of the edges with an id that was not seen before one is left. -/
theorem exists_mem_distinct {e : Edge} (member : e ∈ es) (unseen : e.id ∉ seen) :
    ∃ x ∈ distinct seen es, x.id = e.id := by
  induction es generalizing seen with
  | nil => cases member
  | cons first rest ih =>
      rw [distinct]
      by_cases same : first.id = e.id
      · rw [if_neg (by simpa [same] using unseen)]
        exact ⟨first, List.mem_cons_self, same⟩
      · have member : e ∈ rest :=
          (List.mem_cons.mp member).resolve_left fun here => same (here ▸ rfl)
        split
        next => exact ih member unseen
        next =>
          have unseen : e.id ∉ first.id :: seen :=
            List.not_mem_cons_of_ne_of_not_mem (Ne.symm same) unseen
          obtain ⟨x, left, named⟩ := ih member unseen
          exact ⟨x, List.mem_cons_of_mem _ left, named⟩

theorem distinct_sublist (seen : List String) (es : List Edge) : (distinct seen es).Sublist es := by
  induction es generalizing seen with
  | nil => exact List.Sublist.refl _
  | cons e rest ih =>
      rw [distinct]
      split
      next => exact (ih seen).cons e
      next => exact (ih (e.id :: seen)).cons_cons e

/-- What is left has distinct ids, none of which was seen before. -/
theorem distinct_ids (seen : List String) (es : List Edge) :
    ((distinct seen es).map (·.id)).Nodup ∧ ∀ e ∈ distinct seen es, e.id ∉ seen := by
  induction es generalizing seen with
  | nil => exact ⟨List.nodup_nil, fun _ member => nomatch member⟩
  | cons e rest ih =>
      rw [distinct]
      split
      next => exact ih seen
      next unseen =>
        obtain ⟨apart, others⟩ := ih (e.id :: seen)
        refine ⟨List.nodup_cons.mpr ⟨fun again => ?_, apart⟩, fun x member => ?_⟩
        · obtain ⟨x, member, same⟩ := List.mem_map.mp again
          exact others x member (same ▸ List.mem_cons_self)
        · rcases List.mem_cons.mp member with rfl | member
          · simpa using unseen
          · exact fun there => others x member (List.mem_cons_of_mem _ there)

/-- Edges with distinct ids are all kept. -/
theorem distinct_eq_self (apart : (es.map (·.id)).Nodup) (unseen : ∀ e ∈ es, e.id ∉ seen) :
    distinct seen es = es := by
  induction es generalizing seen with
  | nil => rfl
  | cons e rest ih =>
      obtain ⟨other, apart⟩ := List.nodup_cons.mp apart
      have first : seen.contains e.id = false := by
        simpa using unseen e List.mem_cons_self
      simp only [distinct, first, Bool.false_eq_true, if_false]
      congr 1
      apply ih apart
      intro x member there
      rcases List.mem_cons.mp there with same | there
      · exact other (List.mem_map.mpr ⟨x, member, same⟩)
      · exact unseen x (List.mem_cons_of_mem _ member) there

/-- The event that ends a loading. -/
def loadedEvent (d : Document) (version : Nat) (kept : List Edge) : Log.Event :=
  ⟨Log.Logger.loader, "document_loaded", .debug,
    [("schema_version", .int version), ("nodes", .int (nodes d).length),
      ("edges", .int kept.length)]⟩

/-- The edges that are kept of a document: those between its nodes, each id once. -/
def keptEdges (d : Document) : List Edge :=
  distinct [] ((edges d).filter (joins ((nodes d).map (·.id))))

/-- What is known when a value is loaded. -/
theorem load_eq_ok {v : Json} {l : Loaded} {events : List Log.Event}
    (h : load v = (.ok (.ok l), events)) :
    ∃ d version, readDocument v = .ok (d, version) ∧ "" ∉ d.rowIds ∧
      (Node.entryId :: d.rowIds).Nodup ∧
      l = ⟨⟨nodes d, keptEdges d, Node.entryId⟩, d.npc, d.interaction, version⟩ ∧
      events = Load.events v ++ warnings d ((nodes d).map (·.id)) ++
        [loadedEvent d version (keptEdges d)] := by
  unfold load at h
  dsimp only at h
  split at h
  next => cases h
  next => cases h
  next d version read =>
    split at h
    next => cases h
    next checked =>
      split at h
      next => cases h
      next unshared =>
        cases h
        rw [Bool.not_eq_true, shared_eq_false, nodes_ids] at unshared
        exact ⟨d, version, read, (checkRows_eq_ok d).mp checked, unshared, rfl, rfl⟩

/-- Whatever is loaded, its graph is regular. -/
theorem load_regular {v : Json} {l : Loaded} {events : List Log.Event}
    (h : load v = (.ok (.ok l), events)) : l.graph.Regular := by
  obtain ⟨d, version, -, named, unshared, rfl, -⟩ := load_eq_ok h
  have free (n : Node) (member : n ∈ nodes d) : n = Node.entry ∨
      n.isEntry = false ∧ n.id ∈ d.rowIds := by
    rcases mem_nodes.mp member with rfl | ⟨r, row, rfl⟩ | ⟨r, row, rfl⟩ | ⟨r, row, rfl⟩
    · exact .inl rfl
    · exact .inr ⟨rfl, Document.result_mem_rowIds row⟩
    · exact .inr ⟨rfl, Document.condition_mem_rowIds row⟩
    · exact .inr ⟨rfl, Document.action_mem_rowIds row⟩
  have distinct : ((nodes d).map (·.id)).Nodup := by rwa [nodes_ids]
  refine ⟨distinct, fun n member => ?_, fun n member isEntry => ?_,
    fun e member => ?_, (distinct_ids [] _).1⟩
  · rcases free n member with rfl | ⟨-, row⟩
    · decide
    · exact fun empty => named (empty ▸ row)
  · rcases free n member with rfl | ⟨notEntry, -⟩
    · rfl
    · rw [notEntry] at isEntry
      cases isEntry
  · have stored : e ∈ edges d := (List.mem_filter.mp ((distinct_sublist _ _).subset member)).1
    cases mem_edges.mp stored with
    | entry row => exact ⟨.initialTarget, rfl⟩
    | offer r row id listed => exact ⟨.resultActions, rfl⟩
    | branch r row port t branch =>
        refine ⟨port, ?_⟩
        rcases ConditionRow.mem_branches.mp branch with ⟨rfl, -⟩ | ⟨rfl, -⟩ <;> rfl
    | target r row t given => exact ⟨.actionResult, rfl⟩

end Load

namespace Document

/-- What lets a stored document be loaded as a whole: its rows have distinct ids, none of them empty
and none that of the entry, its references name rows, and no two of its edges have one id. -/
structure Loadable (d : Document) : Prop where
  named : "" ∉ d.rowIds
  distinct : (Node.entryId :: d.rowIds).Nodup
  refers : ∀ r ∈ d.references, r.id ∈ d.rowIds
  offers : ∀ r ∈ d.results, ∀ id ∈ r.actions, id ∈ d.actions.map (·.id)
  edgesDistinct : ((Load.edges d).map (·.id)).Nodup

variable {d : Document}

/-- The edges of a document run from its nodes to its rows. -/
theorem Loadable.ends (h : d.Loadable) {e : Edge} (link : d.Links e) :
    (e.source = Node.entryId ∨ e.source ∈ d.rowIds) ∧ e.target ∈ d.rowIds := by
  cases link with
  | entry row => exact ⟨.inl rfl, h.refers _ initial_mem_references⟩
  | offer r row id listed =>
      exact ⟨.inr (result_mem_rowIds row), List.mem_append_right _ (h.offers r row id listed)⟩
  | branch r row port t branch =>
      exact ⟨.inr (condition_mem_rowIds row), h.refers _ (branch_mem_references row branch)⟩
  | target r row t given =>
      exact ⟨.inr (action_mem_rowIds row), h.refers _ (target_mem_references row given)⟩

theorem Loadable.filter_joins (h : d.Loadable) :
    (Load.edges d).filter (Load.joins ((Load.nodes d).map (·.id))) = Load.edges d := by
  apply List.filter_eq_self.mpr
  intro e member
  obtain ⟨source, target⟩ := h.ends (Load.mem_edges.mp member)
  rw [Load.nodes_ids, Load.joins, Bool.and_eq_true, List.contains_iff_mem, List.contains_iff_mem]
  exact ⟨List.mem_cons.mpr source, List.mem_cons_of_mem _ target⟩

theorem Loadable.keptEdges_eq (h : d.Loadable) : Load.keptEdges d = Load.edges d := by
  rw [Load.keptEdges, h.filter_joins]
  exact Load.distinct_eq_self h.edgesDistinct fun _ _ => List.not_mem_nil

/-- Nothing is missing from a document that can be loaded as a whole. -/
theorem Loadable.warnings_eq_nil (h : d.Loadable) :
    Load.warnings d ((Load.nodes d).map (·.id)) = [] := by
  have skipped : (Load.edges d).filter (!Load.joins ((Load.nodes d).map (·.id)) ·) = [] := by
    apply List.filter_eq_nil_iff.mpr
    intro e member
    simpa using List.filter_eq_self.mp h.filter_joins e member
  have begins : ((Load.nodes d).map (·.id)).contains d.initial.id = true := by
    rw [Load.nodes_ids, List.contains_iff_mem]
    exact List.mem_cons_of_mem _ (h.refers _ initial_mem_references)
  rw [Load.warnings, skipped, if_pos begins]
  rfl

theorem Loadable.begins (h : d.Loadable) : d.initial.id ≠ "" := fun empty =>
  h.named (empty ▸ h.refers _ initial_mem_references)

/-- A document is loaded as a whole, and nothing is reported but the loading. -/
theorem Loadable.load_toJson (h : d.Loadable) :
    load d.toJson = (.ok (.ok ⟨⟨Load.nodes d, Load.edges d, Node.entryId⟩, d.npc, d.interaction,
      currentVersion⟩), [Load.loadedEvent d currentVersion (Load.edges d)]) := by
  have migrated := d.migrate_toJson h.begins
  have events : Load.events d.toJson = [] := by
    rw [Load.events, migrated]
    rfl
  have whole : Document.read (.obj d.fields) = .ok d := d.read_toJson
  have read : Load.readDocument d.toJson = .ok (d, currentVersion) := by
    simp only [Load.readDocument, migrated, whole, Checked.titled_ok]
  have unshared : Load.shared ((Load.nodes d).map (·.id)) = false := by
    rw [Load.shared_eq_false, Load.nodes_ids]
    exact h.distinct
  have kept : Load.distinct [] ((Load.edges d).filter
      (Load.joins ((Load.nodes d).map (·.id)))) = Load.edges d := h.keptEdges_eq
  have checked := (Load.checkRows_eq_ok d).mpr h.named
  rw [load]
  simp only [read, checked, unshared, kept, h.warnings_eq_nil, events]
  rfl

end Document

end Parley
