import Parley.Proofs.Graph.Autosave
import Parley.Proofs.Graph.Proper

/-!
# Opening a draft again

A draft that is saved while a graph is edited is opened again as the same graph, as long as nodes
are moved to points.  A move takes any value on trust, though, and the value is saved as it is: it
is looked at when the draft is opened, and one that is no point keeps the whole draft from being
opened.

So there are two invariants here.  `Entered` and `Named`, as in `Graph.Proper`, say that a graph is
read back; `Identified` leaves the places out and holds after any moves.  Copies need their ids to
differ from that of the entry, which nothing checks.
-/

namespace Parley

namespace IdSupply

/-- Whether the id of the entry is never drawn. -/
def Spares (s : IdSupply) : Prop := ∀ i, s.name i ≠ Node.entryId

/-- The ids that hold numbers are spelled with dashes, which the id of the entry has not. -/
theorem spares_countingFrom (first : Nat) : (countingFrom first).Spares := by
  intro i same
  have dash : '-' ∈ ((countingFrom first).name i).toList := by
    simp [countingFrom, spell, String.intercalate_cons_cons]
  rw [same] at dash
  exact absurd dash (by decide)

end IdSupply

/-- Whether an edit can be asked for: a node that is added has been validated.  A node may be moved
to any value. -/
def Edit.Validated : Edit → Prop
  | .addNode n => n.Named ∧ ∃ p, n.position = .point p
  | _ => True

theorem Edit.Validated.typed_or_move {e : Edit} (valid : e.Validated) :
    e.Typed ∨ ∃ id place, e = .moveNode id place := by
  cases e with
  | addNode n => exact .inl valid
  | moveNode id place => exact .inr ⟨id, place, rfl⟩
  | _ => exact .inl trivial

/-- The node with its place as a point, if the place stands for one. -/
def Node.pointed (n : Node) : Node :=
  match n.position.toPosition with
  | .ok p => { n with position := .point p }
  | .faults _ => n

namespace Node

variable {n : Node} {p : Position}

theorem pointed_eq (place : n.position.toPosition = .ok p) :
    n.pointed = { n with position := .point p } := by
  rw [pointed, place]

@[simp] theorem pointed_id (n : Node) : n.pointed.id = n.id := by
  unfold pointed
  split <;> rfl

@[simp] theorem pointed_isEntry (n : Node) : n.pointed.isEntry = n.isEntry := by
  unfold pointed
  split <;> rfl

/-- The places of two nodes with one stored form have one stored form. -/
theorem place_of_toJson_eq {m : Node} (same : n.toJson = m.toJson) :
    n.position.toJson = m.position.toJson := by
  obtain ⟨id, place, payload⟩ := n
  obtain ⟨id', place', payload'⟩ := m
  cases payload <;> cases payload' <;> simp_all [toJson]

/-- A node with its place as a point is stored as before exactly if its place is stored as a point
is. -/
theorem toJson_pointed (place : n.position.toPosition = .ok p) :
    n.pointed.toJson = n.toJson ↔ ∃ p : Position, n.position.toJson = p.toJson := by
  rw [pointed_eq place]
  constructor
  · exact fun same => ⟨p, (place_of_toJson_eq same).symm⟩
  · rintro ⟨q, stored⟩
    have read : Position.read q.toJson = .ok p := by rw [← stored, Placement.read_toJson, place]
    obtain rfl : q = p := Checked.ok.inj ((Position.read_toJson q).symm.trans read)
    obtain ⟨id, position, payload⟩ := n
    cases payload <;> simp_all [toJson, Node.kind, Placement.toJson]

end Node

namespace Graph

variable {g : Graph} {s : IdSupply} {e : Edit} {id : String} {n : Node}

theorem settled_supply (g : Graph) (r : Except Failure (Option Graph × EditAnswer)) :
    (g.settled s r).supply = s := by
  unfold settled
  split <;> rfl

theorem copyAll_name (offset : Json) (ns : List Node) (s : IdSupply) :
    (copyAll offset s ns).2.1.name = s.name := by
  induction ns generalizing s with
  | nil => rfl
  | cons n rest ih =>
      rw [copyAll]
      split
      next => rfl
      next => exact ih s.advance

theorem create_name (kind : Json) (place : PlaceArgument) (id : Json) :
    (Node.create kind place id s).2.name = s.name := by
  unfold Node.create
  split
  next => rfl
  next => rfl
  next =>
    split
    next => rfl
    next => split <;> rfl

theorem createNode_name (kind : Json) (place : PlaceArgument) (id : Json) :
    (g.createNode kind place id s).2.name = s.name := by
  unfold createNode
  split
  next => rfl
  next => rfl
  next => exact create_name kind place id

theorem duplicate_name (ids : List String) (offset : Json) :
    (g.duplicate ids offset s).supply.name = s.name := by
  cases found : ids.mapM (g.require · "duplicate_nodes") with
  | error missing => rw [duplicate_missing offset s found]
  | ok sources =>
      rcases copied : copyAll offset s (sources.filter (!·.isEntry)) with ⟨copies, final, failure⟩
      have kept : final.name = s.name := by
        simpa [copied] using copyAll_name offset (sources.filter (!·.isEntry)) s
      rw [duplicate_found found copied]
      cases failure <;> exact kept

/-- Editing draws ids, and leaves those that are to come as they are. -/
theorem edit_name (g : Graph) (s : IdSupply) (e : Edit) : (g.edit s e).supply.name = s.name := by
  cases e with
  | createNode kind place id =>
      exact (congrArg IdSupply.name (settled_supply g _)).trans (createNode_name kind place id)
  | duplicate ids offset => exact duplicate_name ids offset
  | disconnect id =>
      unfold edit
      dsimp only
      split <;> rfl
  | _ => exact congrArg IdSupply.name (settled_supply g _)

/-- The graph with places as points, where they stand for points. -/
def pointed (g : Graph) : Graph := { g with nodes := g.nodes.map Node.pointed }

/-- Whether ids are distinct, are there where they are needed, and tell the only entry under its
usual id.  Nothing is said about places. -/
structure Identified (g : Graph) : Prop where
  distinct : g.ids.Nodup
  start : ∃ n, g.nodes.filter Node.isEntry = [n] ∧ n.id = g.entryId
  entryId : g.entryId = Node.entryId
  named : ∀ n ∈ g.nodes, n.Named

namespace Identified

theorem empty : Graph.empty.Identified where
  distinct := List.nodup_singleton _
  start := ⟨Node.entry, rfl, rfl⟩
  entryId := rfl
  named := List.forall_mem_singleton.mpr (.inl rfl)

/-- A node with the id of the entry is the entry. -/
theorem isEntry_of_id (h : g.Identified) (member : n ∈ g.nodes) (same : n.id = Node.entryId) :
    n.isEntry = true := by
  obtain ⟨entry, start, given⟩ := h.start
  have there : entry ∈ g.nodes.filter Node.isEntry := start ▸ List.mem_singleton_self entry
  obtain ⟨there, isEntry⟩ := List.mem_filter.mp there
  rwa [eq_of_id_eq h.distinct member there (same.trans (h.entryId.symm.trans given.symm))]

theorem id_of_isEntry (h : g.Identified) (member : n ∈ g.nodes) (isEntry : n.isEntry = true) :
    n.id = Node.entryId := by
  obtain ⟨entry, start, given⟩ := h.start
  rw [eq_of_isEntry start member isEntry, given, h.entryId]

/-- A node that is no entry may be put in under any id but that of the entry. -/
theorem put (h : g.Identified) (free : n.isEntry = false) (given : n.id ≠ "")
    (other : n.id ≠ Node.entryId) : (g.put n).Identified where
  distinct := ids_put_nodup h.distinct n
  start := by
    have apart : ∀ m ∈ g.nodes, m.id = n.id → m.isEntry = false := fun m member same =>
      Bool.eq_false_iff.mpr fun isEntry => other (same ▸ h.id_of_isEntry member isEntry)
    simpa [filter_isEntry_put free apart] using h.start
  entryId := (put_entryId g n).trans h.entryId
  named m member := by
    rcases mem_put.mp member with rfl | ⟨member, -⟩
    · exact .inr given
    · exact h.named m member

/-- A node that is no entry may be replaced by one of its kind. -/
theorem replace (h : g.Identified) {m : Node} (found : g.node? id = some m)
    (free : m.isEntry = false) (same : n.id = m.id) (kind : n.kind = m.kind) :
    (g.put n).Identified := by
  have member := node?_mem found
  refine h.put (by simpa [Node.isEntry, kind] using free) ?_ fun taken => ?_
  · exact same ▸ (h.named m member).resolve_left (by simp [free])
  · exact absurd (h.isEntry_of_id member (same ▸ taken)) (by simp [free])

/-- An elementary change keeps the ids in order if the ids that are drawn are new. -/
theorem change {new : Prop} {g' : Graph} (holds : new) (h : g.Identified)
    (step : Change new g g') : g'.Identified := by
  cases step with
  | add n p free named placed absent =>
      refine h.put free named fun taken => absent holds ?_
      obtain ⟨entry, start, given⟩ := h.start
      have there : entry ∈ g.nodes.filter Node.isEntry := start ▸ List.mem_singleton_self entry
      rw [taken, ← h.entryId, ← given]
      exact id_mem (List.mem_of_mem_filter there)
  | set id m n there free same kind placed => exact h.replace there free same kind
  | delete id n there free =>
      obtain ⟨m, start, given⟩ := h.start
      exact ⟨h.distinct.sublist (List.filter_sublist.map _),
        ⟨m, filter_isEntry_delete h.distinct start there free, given⟩, h.entryId,
        fun x member => h.named x (List.mem_of_mem_filter member)⟩
  | reset n there isEntry =>
      exact ⟨List.nodup_singleton _, ⟨n, by simp [isEntry], node?_id there⟩, h.entryId,
        List.forall_mem_singleton.mpr (.inl isEntry)⟩
  | link e fits unknown unused => exact ⟨h.distinct, h.start, h.entryId, h.named⟩
  | unlink id => exact ⟨h.distinct, h.start, h.entryId, h.named⟩

/-- Copies may be put in one after the other, under any ids but that of the entry. -/
theorem copies {copies : List Node} (h : g.Identified)
    (sound : ∀ c ∈ copies, c.isEntry = false ∧ c.id ≠ "" ∧ c.id ≠ Node.entryId) :
    (copies.foldl Graph.put g).Identified := by
  induction copies generalizing g with
  | nil => exact h
  | cons c rest ih =>
      obtain ⟨⟨free, given, other⟩, sound⟩ := List.forall_mem_cons.mp sound
      exact ih (h.put free given other) sound

/-- Every edit keeps the ids in order, whether or not it succeeds and wherever a node is moved. -/
theorem edit (h : g.Identified) (spares : s.Spares) (valid : e.Validated) :
    (g.edit s e).graph.Identified := by
  by_cases copying : e.Copies
  · cases e with
    | duplicate ids offset =>
        obtain ⟨copies, result, drawn, sound⟩ := duplicate_graph g ids offset s
        have final : (g.edit s (.duplicate ids offset)).graph = copies.foldl Graph.put g := result
        rw [final]
        refine h.copies fun c member => ?_
        obtain ⟨i, -, same⟩ := List.mem_map.mp (drawn.subset (List.mem_map_of_mem member))
        exact ⟨(sound c member).1, same ▸ s.name_ne i, same ▸ spares i⟩
    | _ => exact copying.elim
  · rcases valid.typed_or_move with typed | ⟨id, place, rfl⟩
    · exact preserved_by_changes (P := Identified) (change trivial) h
        (edit_changes_of typed fun _ copies => absurd copies copying)
    · cases moved : g.moveNode id place with
      | error f => simpa [Graph.edit, moved, settled, Except.map] using h
      | ok g' =>
          obtain ⟨n, position, found, free, -, rfl⟩ := moveNode_eq_ok moved
          have kept : (g.put { n with position }).Identified := h.replace found free rfl rfl
          simpa [Graph.edit, moved, settled, Except.map] using kept

/-- Where all places stand for points, the stored form is read, with these points. -/
theorem ofJson_toJson (h : g.Identified)
    (places : ∀ n ∈ g.nodes, ∃ p, n.position.toPosition = .ok p) :
    ofJson g.toJson = .ok g.pointed := by
  have reads : ∀ n ∈ g.nodes, Node.read n.toJson = .ok n.pointed := fun n member => by
    obtain ⟨p, place⟩ := places n member
    rw [Node.pointed_eq place]
    exact Node.read_toJson_of_place (h.named n member) place
  have ids : (g.nodes.map Node.pointed).map (·.id) = g.ids := by
    simp [Graph.ids, Function.comp_def]
  obtain ⟨entry, start, given⟩ := h.start
  have start' : (g.nodes.map Node.pointed).filter Node.isEntry = [entry.pointed] := by
    rw [List.filter_map]
    simp [Function.comp_def, start]
  rw [ofJson_toJson_eq reads, build_of_nodup (ids ▸ h.distinct) start', Node.pointed_id, given]
  rfl

/-- The stored form is read exactly if all places stand for points. -/
theorem reads_iff (h : g.Identified) :
    (∃ g', ofJson g.toJson = .ok g') ↔ ∀ n ∈ g.nodes, ∃ p, n.position.toPosition = .ok p := by
  constructor
  · rintro ⟨g', read⟩ n member
    obtain ⟨m, read⟩ := exists_of_ofJson_toJson read n member
    exact Node.place_of_read_toJson read
  · exact fun places => ⟨_, h.ofJson_toJson places⟩

/-- The stored form is read and stored again as it was exactly if all places are stored as points
are. -/
theorem reads_back_iff (h : g.Identified) :
    (∃ g', ofJson g.toJson = .ok g' ∧ g'.toJson = g.toJson) ↔
      ∀ n ∈ g.nodes, ∃ p : Position, n.position.toJson = p.toJson := by
  constructor
  · rintro ⟨g', read, same⟩ n member
    have places := h.reads_iff.mp ⟨g', read⟩
    obtain rfl : g.pointed = g' := Except.ok.inj ((h.ofJson_toJson places).symm.trans read)
    have nodes : g.nodes.map (fun n => n.pointed.toJson) = g.nodes.map Node.toJson := by
      simpa [toJson, pointed] using same
    obtain ⟨p, place⟩ := places n member
    exact (Node.toJson_pointed place).mp (List.map_inj_left.mp nodes n member)
  · intro stored
    have places : ∀ n ∈ g.nodes, ∃ p, n.position.toPosition = .ok p := fun n member => by
      obtain ⟨p, stored⟩ := stored n member
      exact ⟨p, by rw [← Placement.read_toJson, stored, Position.read_toJson]⟩
    have nodes : g.nodes.map (fun n => n.pointed.toJson) = g.nodes.map Node.toJson :=
      List.map_congr_left fun n member => by
        obtain ⟨p, place⟩ := places n member
        exact (Node.toJson_pointed place).mpr (stored n member)
    exact ⟨_, h.ofJson_toJson places, by simpa [toJson, pointed] using nodes⟩

end Identified

end Graph

namespace Session

variable {s : Session} {n : Nat} {e : Edit} {g : Graph}

/-- Whether what is kept is opened as a graph. -/
def Opens (s : Session) (g : Graph) : Prop := ∃ store, s.store = some store ∧ store.open? = .ok g

/-- What is kept in memory is opened by reading it. -/
theorem InStep.opens_iff (h : s.InStep n) : s.Opens g ↔ Graph.ofJson s.graph.toJson = .ok g := by
  have store : s.store = some (.memory (some s.graph.toJson) n) := h
  simp only [Opens, store, Option.some.injEq, exists_eq_left']
  rfl

/-- What holds of a session that saves in memory, wherever nodes are moved. -/
structure Drafted (s : Session) : Prop where
  memory : ∃ draft n, s.store = some (.memory draft n)
  identified : s.graph.Identified
  spares : s.supply.Spares

namespace Drafted

theorem autosaving {supply : IdSupply} (spares : supply.Spares) (draft : Option Json)
    (saves : Nat) :
    (Session.autosaving Graph.empty supply draft saves).Drafted :=
  ⟨⟨_, _, rfl⟩, .empty, spares⟩

theorem edit (h : s.Drafted) (valid : e.Validated) : (s.edit e).1.Drafted where
  memory := by
    obtain ⟨draft, n, store⟩ := h.memory
    cases changed : (s.graph.edit s.supply e).changed with
    | true => exact ⟨_, _, (inStep_of_changed store changed).1⟩
    | false => exact ⟨draft, n, by simpa [Session.edit, changed] using store⟩
  identified := edit_graph (s := s) ▸ h.identified.edit h.spares valid
  spares := by
    rw [edit_supply, IdSupply.Spares, Graph.edit_name]
    exact h.spares

theorem after (h : s.Drafted) {edits : List Edit} (valid : ∀ e ∈ edits, e.Validated) :
    (s.after edits).Drafted := by
  induction edits generalizing s with
  | nil => exact h
  | cons e rest ih =>
      obtain ⟨here, others⟩ := List.forall_mem_cons.mp valid
      exact ih (h.edit here) others

/-- An edit that is reported as a change leaves a draft in step with the graph. -/
theorem inStep (h : s.Drafted) (changed : (s.graph.edit s.supply e).changed = true) :
    ∃ n, (s.edit e).1.InStep n := by
  obtain ⟨draft, n, store⟩ := h.memory
  exact ⟨n + 1, (inStep_of_changed store changed).1⟩

end Drafted

end Session

open Session in
/-- A session on an empty graph saves it in memory and is then edited, however its edits succeed or
fail.  As long as nodes are moved to points only, the draft is opened as the graph that is edited.
If they are moved anywhere, a draft that was just saved is opened exactly if each place can be read
as a point, and stored again as it was exactly if each place is stored as a point is. -/
theorem draft_opens {supply : IdSupply} (spares : supply.Spares) (draft : Option Json) (saves : Nat)
    {edits : List Edit} (valid : ∀ e ∈ edits, e.Validated) :
    let s := (autosaving Graph.empty supply draft saves).after edits
    ((∀ e ∈ edits, e.Typed) → s.Opens s.graph) ∧
      ∀ e : Edit, e.Validated → (s.graph.edit s.supply e).changed = true →
        let t := (s.edit e).1
        ((∃ g, t.Opens g) ↔ ∀ n ∈ t.graph.nodes, ∃ p, n.position.toPosition = .ok p) ∧
          ((∃ g, t.Opens g ∧ g.toJson = t.graph.toJson) ↔
            ∀ n ∈ t.graph.nodes, ∃ p : Position, n.position.toJson = p.toJson) := by
  intro s
  have drafted : s.Drafted := (Drafted.autosaving spares draft saves).after valid
  refine ⟨fun typed => ?_, fun e valid changed => ?_⟩
  · have opened : (autosaving Graph.empty supply draft saves).InStep (saves + 1) := rfl
    obtain ⟨placed, n, -, -, h⟩ := opened.after Graph.Sound.empty.placed typed
    have entered : s.graph.Entered :=
      ⟨drafted.identified.distinct, drafted.identified.start, placed⟩
    exact h.opens_iff.mpr (entered.ofJson_toJson drafted.identified.named)
  · obtain ⟨n, h⟩ := drafted.inStep changed
    have identified := (drafted.edit valid).identified
    simp only [h.opens_iff]
    exact ⟨identified.reads_iff, identified.reads_back_iff⟩

open Session in
/-- A result is moved and copied.  Then it is moved to a value that is read as a point but not
stored like one: the draft is still opened, as a graph that is stored otherwise. -/
theorem draft_opens_of_partial_place :
    let place : Json := .obj [("y", .float .zero)]
    let edits : List Edit := [
      .createNode (.str "result") .omitted (.str "hello"),
      .moveNode "hello" (.coordinates [.float .zero, .float .zero]),
      .duplicate ["hello"] (.float .zero)]
    let s := (autosaving Graph.empty (.countingFrom 0) none 0).after edits
    let t := (s.edit (.moveNode "hello" (.value place))).1
    s.graph.nodes.length = 3 ∧ s.Opens s.graph ∧ (∃ g, t.Opens g) ∧
      ∀ g, t.Opens g → g.toJson ≠ t.graph.toJson := by
  intro place edits s t
  let hello : Node := ⟨"hello", .unread place, .result {}⟩
  let copy : Node := ⟨IdSupply.spell 0, .point ⟨.zero + .zero, .zero + .zero⟩, .result {}⟩
  have nodes : t.graph.nodes = [Node.entry, hello, copy] := rfl
  have typed : ∀ e ∈ edits, e.Typed := by simp [edits, Edit.Typed]
  have valid : ∀ e ∈ edits, e.Validated := by simp [edits, Edit.Validated]
  have changed : (s.graph.edit s.supply (.moveNode "hello" (.value place))).changed = true := by
    decide
  obtain ⟨opens, next⟩ := draft_opens (IdSupply.spares_countingFrom 0) none 0 valid
  have next := next (.moveNode "hello" (.value place)) trivial changed
  change ((∃ g, t.Opens g) ↔ ∀ n ∈ t.graph.nodes, _) ∧ (_ ↔ ∀ n ∈ t.graph.nodes, _) at next
  rw [nodes] at next
  obtain ⟨reads, same⟩ := next
  have places : ∀ n ∈ [Node.entry, hello, copy], ∃ p, n.position.toPosition = .ok p := by
    simp only [List.forall_mem_cons]
    refine ⟨⟨_, rfl⟩, ⟨_, rfl⟩, ⟨_, rfl⟩, by simp⟩
  refine ⟨by decide, opens typed, reads.mpr places, fun g opened stored => ?_⟩
  obtain ⟨p, written⟩ := same.mp ⟨g, opened, stored⟩ hello (by simp)
  simp [hello, place, Placement.toJson, Position.toJson] at written

open Session in
/-- No node is made at a place that is a text, but one that is there is moved to it, and then the
draft cannot be opened any more. -/
theorem draft_shut_by_text :
    let place : PlaceArgument := .value (.str "here")
    let s := (autosaving Graph.empty (.countingFrom 0) none 0).after
      [.createNode (.str "result") .omitted (.str "hello")]
    let made := s.edit (.createNode (.str "result") place (.str "other"))
    let moved := s.edit (.moveNode "hello" place)
    s.Opens s.graph ∧ (∃ f, made.2 = .error f) ∧ moved.2 = .ok (.done, []) ∧
      ∀ g, ¬ moved.1.Opens g := by
  intro place s made moved
  refine ⟨⟨_, rfl, rfl⟩, ⟨_, rfl⟩, rfl, ?_⟩
  rintro g ⟨store, kept, opened⟩
  cases kept
  cases opened

end Parley
