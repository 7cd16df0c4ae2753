import Parley.Proofs.Graph.Lookup
import Parley.Proofs.Record.Checked

/-!
# The edits one by one

What is known when an operation on a graph succeeds: the nodes that it looked up, the guards that
it passed and the graph that it answers, written with `Graph.put` where nodes change.  Later proofs
open an operation by its statement here.
-/

namespace Parley

/-- The ids that are drawn between two states of a supply, in order. -/
def IdSupply.drawnUntil (s t : IdSupply) : List String :=
  (List.range' s.drawn (t.drawn - s.drawn)).map s.name

namespace Payload

@[simp] theorem kind_ofKind (k : Kind) : (ofKind k).kind = k := by
  cases k <;> rfl

/-- Reading the data of a kind gives data of that kind. -/
theorem kind_of_read {k : Kind} {v : Json} {payload : Payload} (h : read k v = .ok payload) :
    payload.kind = k := by
  cases k with
  | entry =>
      cases v with
      | obj fields => cases h; rfl
      | _ => cases h
  | action =>
      obtain ⟨_, -, rfl⟩ := Checked.map_eq_ok.mp h
      rfl
  | result =>
      obtain ⟨_, -, rfl⟩ := Checked.map_eq_ok.mp h
      rfl
  | conditional =>
      obtain ⟨_, -, rfl⟩ := Checked.map_eq_ok.mp h
      rfl

end Payload

namespace Node

/-- A node that is made has the standard data of its kind, an id and a point. -/
theorem build_eq_ok {kind : Kind} {id : Json} {place : Placement} {n : Node}
    (h : build kind id place = .ok n) :
    n.payload = .ofKind kind ∧ n.id ≠ "" ∧ ∃ p, n.position = .point p := by
  obtain ⟨_, p, made, -, rfl⟩ :=
    Checked.seq_eq_ok.mp (Checked.titled_eq_ok.mp (mapError_eq_ok.mp h))
  obtain ⟨s, text, rfl⟩ := Checked.map_eq_ok.mp made
  have named := (Checked.nonemptyText_eq_ok.mp (Checked.under_eq_ok.mp text)).2
  exact ⟨rfl, named, p, rfl⟩

theorem create_eq_ok {value id : Json} {place : PlaceArgument} {s : IdSupply} {kind : Kind}
    {n : Node} (known : Kind.ofJson? value = some kind) (free : kind ≠ .entry)
    (h : (create value place id s).1 = .ok n) :
    n.payload = .ofKind kind ∧ n.id ≠ "" ∧ ∃ p, n.position = .point p := by
  unfold create at h
  rw [known] at h
  split at h
  next same => cases same
  next same =>
    cases same
    exact absurd rfl free
  next same =>
    cases same
    split at h
    next => cases h
    next =>
      split at h
      next => exact build_eq_ok h
      next => exact build_eq_ok h

end Node

namespace IdSupply

variable {s t : IdSupply} {id : String}

theorem drawnUntil_advance (later : s.drawn < t.drawn) :
    s.drawnUntil t = s.next :: s.advance.drawnUntil t := by
  obtain ⟨k, hk⟩ : ∃ k, t.drawn - s.drawn = k + 1 := ⟨t.drawn - s.drawn - 1, by omega⟩
  have rest : t.drawn - s.advance.drawn = k := by
    simp only [advance]
    omega
  simp only [drawnUntil, hk, rest, List.range'_succ, List.map_cons]
  rfl

theorem ne_of_mem_drawnUntil (drawn : id ∈ s.drawnUntil t) : id ≠ "" := by
  obtain ⟨i, -, rfl⟩ := List.mem_map.mp drawn
  exact s.name_ne i

end IdSupply

namespace Graph

/-- Whether an edge joins two different nodes of a graph on ports that match, under the id that is
spelled from its ends. -/
structure Fits (g : Graph) (e : Edge) : Prop where
  ends : ∃ source target, g.node? e.source = some source ∧ g.node? e.target = some target ∧
    Port.problem? source.kind e.sourceHandle target.kind e.targetHandle = none
  loopless : e.source ≠ e.target
  named : e.id = Edge.idOf e.source e.sourceHandle e.target e.targetHandle

variable {g g' : Graph} {n n' : Node} {id context operation : String} {s : IdSupply}

theorem require_eq_ok : g.require id context = .ok n ↔ g.node? id = some n := by
  rw [require]
  cases g.node? id <;> simp

theorem requireFree_eq_ok :
    g.requireFree id context operation = .ok n ↔ g.node? id = some n ∧ n.isEntry = false := by
  rw [requireFree, bind_eq_ok]
  constructor
  · rintro ⟨m, found, free⟩
    split at free
    next => cases free
    next notEntry =>
      cases free
      exact ⟨require_eq_ok.mp found, by simpa using notEntry⟩
  · rintro ⟨found, free⟩
    exact ⟨n, require_eq_ok.mpr found, by simp [free]; rfl⟩

theorem requireResult_eq_ok {d : ResultData} :
    g.requireResult id context = .ok d ↔ ∃ n, g.node? id = some n ∧ n.payload = .result d := by
  rw [requireResult, bind_eq_ok]
  constructor
  · rintro ⟨n, found, result⟩
    refine ⟨n, require_eq_ok.mp found, ?_⟩
    split at result
    next payload => cases result; exact payload
    next => cases result
  · rintro ⟨n, found, payload⟩
    exact ⟨n, require_eq_ok.mpr found, by simp only [payload]; rfl⟩

theorem entry_eq_ok : g.entry = .ok n ↔ g.node? g.entryId = some n ∧ n.isEntry = true := by
  rw [entry]
  cases g.node? g.entryId with
  | none => simp
  | some m =>
      by_cases isEntry : m.isEntry = true
      · simp only [isEntry, if_true, Except.ok.injEq, Option.some.injEq]
        exact ⟨fun same => ⟨same, same ▸ isEntry⟩, And.left⟩
      · simp only [isEntry, Option.some.injEq]
        exact ⟨fun h => (nomatch h), fun ⟨same, h⟩ => absurd h (same ▸ isEntry)⟩

/-- A node is added exactly where its id is free, and never a second entry. -/
theorem addNode_eq_ok :
    g.addNode n = .ok g' ↔ n.id ∉ g.ids ∧ n.isEntry = false ∧ g' = g.put n := by
  rw [addNode, put]
  by_cases there : g.hasNode n.id = true
  · simp [there, hasNode_iff.mp there]
  · have absent : n.id ∉ g.ids := fun h => there (hasNode_iff.mpr h)
    by_cases isEntry : n.isEntry = true
    · simp [there, isEntry]
    · simpa [there, isEntry, absent] using eq_comm

/-- A node that is made and added is no entry and has the standard data of its kind, an id and a
point. -/
theorem createNode_eq_ok {kind id : Json} {place : PlaceArgument}
    (h : (g.createNode kind place id s).1 = .ok (g', n)) :
    n.isEntry = false ∧ n.payload = .ofKind n.kind ∧ n.id ≠ "" ∧ (∃ p, n.position = .point p) ∧
      n.id ∉ g.ids ∧ g' = g.put n := by
  unfold createNode at h
  split at h
  next => cases h
  next => cases h
  next k free known =>
    obtain ⟨m, made, added⟩ := bind_eq_ok.mp h
    obtain ⟨_, added, same⟩ := map_eq_ok.mp added
    cases same
    obtain ⟨absent, notEntry, rfl⟩ := addNode_eq_ok.mp added
    obtain ⟨standard, named, placed⟩ := Node.create_eq_ok known free made
    have kind : n.kind = k := by simp [Node.kind, standard]
    exact ⟨notEntry, kind ▸ standard, named, placed, absent, rfl⟩

theorem updatePayload_kind {payload updated : Payload} {fields : Fields}
    (h : updatePayload payload fields = .ok updated) : updated.kind = payload.kind := by
  dsimp only [updatePayload] at h
  split at h
  next => cases h
  next => exact Payload.kind_of_read (Checked.titled_eq_ok.mp (mapError_eq_ok.mp h))

theorem updateData_eq_ok {fields : Fields} (h : g.updateData id fields = .ok (g', n')) :
    ∃ n payload, g.node? id = some n ∧ n.isEntry = false ∧
      updatePayload n.payload fields = .ok payload ∧ n' = { n with payload } ∧ g' = g.put n' := by
  unfold updateData at h
  split at h
  next => cases h
  next =>
    obtain ⟨n, required, h⟩ := bind_eq_ok.mp h
    obtain ⟨payload, updated, h⟩ := bind_eq_ok.mp h
    cases h
    obtain ⟨found, free⟩ := requireFree_eq_ok.mp required
    exact ⟨n, payload, found, free, updated, rfl, rfl⟩

theorem moveNode_eq_ok {place : PlaceArgument} (h : g.moveNode id place = .ok g') :
    ∃ n position, g.node? id = some n ∧ n.isEntry = false ∧
      (place ≠ .omitted → place.settle = .ok position) ∧ g' = g.put { n with position } := by
  obtain ⟨n, required, h⟩ := bind_eq_ok.mp h
  obtain ⟨found, free⟩ := requireFree_eq_ok.mp required
  cases place with
  | omitted =>
      cases h
      exact ⟨n, .unread .null, found, free, fun given => absurd rfl given, rfl⟩
  | _ =>
      obtain ⟨position, settled, h⟩ := bind_eq_ok.mp h
      cases h
      exact ⟨n, position, found, free, fun _ => settled, rfl⟩

theorem deleteNode_eq_ok {removed : List Edge} (h : g.deleteNode id = .ok (g', removed)) :
    ∃ n, g.node? id = some n ∧ n.isEntry = false ∧
      g' = { g with
        nodes := g.nodes.filter (·.id != id)
        edges := g.edges.filter (!·.touches id) } ∧
      removed = g.edges.filter (·.touches id) := by
  obtain ⟨n, required, h⟩ := bind_eq_ok.mp h
  cases h
  obtain ⟨found, free⟩ := requireFree_eq_ok.mp required
  exact ⟨n, found, free, rfl, rfl⟩

theorem reset_eq_ok (h : g.reset = .ok g') :
    ∃ n, g.node? g.entryId = some n ∧ n.isEntry = true ∧
      g' = { g with nodes := [n], edges := [] } := by
  obtain ⟨n, isEntry, h⟩ := bind_eq_ok.mp h
  cases h
  obtain ⟨found, isEntry⟩ := entry_eq_ok.mp isEntry
  exact ⟨n, found, isEntry, rfl⟩

theorem setExecutors_eq_ok {executors : List Executor} (h : g.setExecutors id executors = .ok g') :
    ∃ n', g.updateData id [("executors", .arr (executors.map Executor.toJson))] =
      .ok (g', n') := by
  obtain ⟨⟨_, n'⟩, updated, rfl⟩ := map_eq_ok.mp h
  exact ⟨n', updated⟩

/-- Making the preferred action one that is offered is an update of data, if it changes a thing. -/
theorem syncPreferred_eq_ok {choice : Option String}
    (h : g.syncPreferred id = .ok (some g', choice)) :
    ∃ first n', g.updateData id [("preferred", .str first)] = .ok (g', n') := by
  obtain ⟨d, -, h⟩ := bind_eq_ok.mp h
  split at h
  next => cases h
  next first others _ =>
    split at h
    next => cases h
    next =>
      obtain ⟨⟨_, n'⟩, updated, h⟩ := bind_eq_ok.mp h
      cases h
      exact ⟨first, n', updated⟩

theorem addExecutor_eq_ok {type value : Json} {e : Executor}
    (h : g.addExecutor id type value = .ok (g', e)) :
    ∃ d, g.requireResult id "add_executor" = .ok d ∧ makeExecutor type value = .ok e ∧
      g.setExecutors id (d.executors ++ [e]) = .ok g' := by
  obtain ⟨d, required, h⟩ := bind_eq_ok.mp h
  obtain ⟨e', made, h⟩ := bind_eq_ok.mp h
  obtain ⟨_, set, h⟩ := bind_eq_ok.mp h
  cases h
  exact ⟨d, required, made, set⟩

theorem removeExecutor_eq_ok {index : Int} (h : g.removeExecutor id index = .ok g') :
    ∃ d i, g.requireResult id "remove_executor" = .ok d ∧
      position? d.executors.length index = some i ∧
      g.setExecutors id (d.executors.eraseIdx i) = .ok g' := by
  obtain ⟨d, required, h⟩ := bind_eq_ok.mp h
  split at h
  next => cases h
  next =>
    split at h
    next => cases h
    next i at_index => exact ⟨d, i, required, at_index, h⟩

theorem fits_make {source sourceHandle target targetHandle : String}
    (ends : g.missingEnd? source target = none)
    (legal : g.connectionProblem? source sourceHandle target targetHandle = none) :
    g.Fits (Edge.make source sourceHandle target targetHandle) := by
  unfold connectionProblem? at legal
  split at legal
  next => cases legal
  next loopless =>
    split at legal
    next a b hsource htarget =>
      have different : source ≠ target := by simpa using loopless
      exact ⟨⟨a, b, hsource, htarget, Option.map_eq_none_iff.mp legal⟩, different, rfl⟩
    next missing =>
      unfold missingEnd? hasNode at ends
      cases hsource : g.node? source <;> cases htarget : g.node? target <;>
        simp_all

section Connecting

variable {source sourceHandle target targetHandle : String} {e : Edge}

/-- Connecting answers the edge that has the id of the connection, or adds the connection where
neither its id nor, if that holds one edge, its output is in use. -/
theorem connect_answers {changed : Option Graph}
    (h : g.connect source sourceHandle target targetHandle = .ok (changed, e)) :
    let asked := Edge.make source sourceHandle target targetHandle
    g.Fits asked ∧
      (g.edges.find? (·.id == asked.id) = some e ∧ changed = none ∨
        e = asked ∧ (∀ x ∈ g.edges, x.id ≠ asked.id) ∧
          (Port.isSingle sourceHandle = true → g.edgesFrom source (some sourceHandle) = []) ∧
          changed = some { g with edges := g.edges ++ [asked] }) := by
  intro asked
  dsimp only [connect] at h
  split at h
  next => cases h
  next ends =>
    split at h
    next => cases h
    next legal =>
      refine ⟨fits_make ends legal, ?_⟩
      split at h
      next found =>
        cases h
        exact .inl ⟨found, rfl⟩
      next unknown =>
        split at h
        next => cases h
        next unused =>
          cases h
          exact .inr ⟨rfl, by simpa using unknown, by simpa using unused, rfl⟩

/-- A connection that is made fits, and neither its id nor, where it holds one edge, its output
was in use. -/
theorem connect_eq_ok (h : g.connect source sourceHandle target targetHandle = .ok (some g', e)) :
    e = Edge.make source sourceHandle target targetHandle ∧ g.Fits e ∧
      (∀ x ∈ g.edges, x.id ≠ e.id) ∧
      (Port.isSingle sourceHandle = true → g.edgesFrom source (some sourceHandle) = []) ∧
      g' = { g with edges := g.edges ++ [e] } := by
  obtain ⟨fits, ⟨-, kept⟩ | ⟨rfl, unknown, unused, made⟩⟩ := connect_answers h
  · cases kept
  · cases made
    exact ⟨rfl, fits, unknown, unused, rfl⟩

/-- A connection that changes nothing answers the edge that has its id. -/
theorem connect_eq_there (h : g.connect source sourceHandle target targetHandle = .ok (none, e)) :
    g.Fits (.make source sourceHandle target targetHandle) ∧
      g.edges.find? (·.id == Edge.idOf source sourceHandle target targetHandle) = some e := by
  obtain ⟨fits, ⟨found, -⟩ | ⟨-, -, -, made⟩⟩ := connect_answers h
  · exact ⟨fits, found⟩
  · cases made

end Connecting

theorem disconnect_eq_some (h : g.disconnect id = some g') :
    g' = { g with edges := g.edges.eraseP (·.id == id) } := by
  unfold disconnect at h
  split at h
  next => cases h; rfl
  next => cases h

/-- A place that is shifted was and is a point. -/
theorem shiftPlace_eq_ok {offset : Json} {place shifted : Placement}
    (h : shiftPlace offset place = .ok shifted) : ∃ p q, place = .point p ∧ shifted = .point q := by
  cases place with
  | point p =>
      obtain ⟨x, -, h⟩ := bind_eq_ok.mp h
      obtain ⟨y, -, h⟩ := bind_eq_ok.mp h
      cases h
      exact ⟨p, ⟨x, y⟩, rfl, rfl⟩
  | unread v => cases h

section Copies

variable {offset : Json}

theorem drawn_le_copyAll (offset : Json) (ns : List Node) (s : IdSupply) :
    s.drawn ≤ (copyAll offset s ns).2.1.drawn := by
  induction ns generalizing s with
  | nil => exact Nat.le_refl _
  | cons n ns ih =>
      rw [copyAll]
      split
      next => exact Nat.le_succ _
      next => exact Nat.le_trans (Nat.le_succ _) (ih s.advance)

/-- Copies get drawn ids, in the order of the draws. -/
theorem copyAll_ids (offset : Json) (ns : List Node) (s : IdSupply) :
    ((copyAll offset s ns).1.map (·.id)).Sublist
      (s.drawnUntil (copyAll offset s ns).2.1) := by
  induction ns generalizing s with
  | nil => exact List.nil_sublist _
  | cons n ns ih =>
      rw [copyAll]
      split
      next => exact List.nil_sublist _
      next =>
        have later : s.drawn < (copyAll offset s.advance ns).2.1.drawn :=
          drawn_le_copyAll offset ns s.advance
        rw [IdSupply.drawnUntil_advance later]
        exact (ih s.advance).cons_cons s.next

/-- A copy has the data of one of the nodes and is placed at a point. -/
theorem copyAll_source {ns : List Node} {s : IdSupply} {c : Node}
    (copy : c ∈ (copyAll offset s ns).1) :
    ∃ n ∈ ns, c.payload = n.payload ∧ ∃ p, c.position = .point p := by
  induction ns generalizing s with
  | nil => cases copy
  | cons n ns ih =>
      unfold copyAll at copy
      split at copy
      next => cases copy
      next place shifted =>
        rcases List.mem_cons.mp copy with rfl | copy
        · obtain ⟨-, q, -, rfl⟩ := shiftPlace_eq_ok shifted
          exact ⟨n, List.mem_cons_self, rfl, q, rfl⟩
        · obtain ⟨m, member, same⟩ := ih copy
          exact ⟨m, List.mem_cons_of_mem _ member, same⟩

/-- Copying puts nodes in one after the other, also where it fails in the end. -/
theorem duplicate_graph (g : Graph) (ids : List String) (offset : Json) (s : IdSupply) :
    ∃ copies : List Node, (g.duplicate ids offset s).graph = copies.foldl put g ∧
      (copies.map (·.id)).Sublist (s.drawnUntil (g.duplicate ids offset s).supply) ∧
      ∀ c ∈ copies, c.isEntry = false ∧ ∃ p, c.position = .point p := by
  rw [duplicate]
  split
  next => exact ⟨[], rfl, List.nil_sublist _, fun _ member => nomatch member⟩
  next sources _ =>
    let free := sources.filter (!·.isEntry)
    have copied := copyAll_ids offset free s
    have sound (c : Node) (copy : c ∈ (copyAll offset s free).1) :
        c.isEntry = false ∧ ∃ p, c.position = .point p := by
      obtain ⟨n, member, data, placed⟩ := copyAll_source copy
      have notEntry : n.isEntry = false := by simpa using (List.mem_filter.mp member).2
      exact ⟨by simpa only [Node.isEntry, Node.kind, data] using notEntry, placed⟩
    refine ⟨(copyAll offset s free).1, ?_, ?_, sound⟩
    · dsimp only
      split <;> rfl
    · dsimp only
      split <;> exact copied

end Copies

end Graph

end Parley
