import Parley.Proofs.Graph.Entered

/-!
# How the reading of a stored graph fails

Nodes and edges that do not fit their records are faults, each with the place where it is found.
Three misfits are of another kind: nodes or edges that cannot be gone through, an id that comes
twice, and a second entry.  `misfit_iff` says that a stored graph fails with another failure than
faults exactly for one of them.
-/

namespace Parley

namespace Graph

variable {fields : Fields} {key : String} {nodes done : List Node} {edges : List Edge}
  {e : Failure} {f : GraphError}

/-- The nodes of a stored graph. -/
def storedNodes (fields : Fields) : Except Failure (List Node) :=
  elements fields "nodes" >>= fun vs => vs.mapM readNode

/-- The edges of a stored graph. -/
def storedEdges (fields : Fields) : Except Failure (List Edge) :=
  elements fields "edges" >>= fun vs => vs.mapM readEdge

theorem ofJson_obj : ofJson (.obj fields) = storedNodes fields >>= fun nodes =>
    storedEdges fields >>= fun edges => (build nodes edges).mapError .graph := by
  simp only [storedNodes, storedEdges, bind_assoc]
  rfl

/-- Whether the nodes or edges under a key cannot be gone through. -/
def Unlisted (fields : Fields) (key : String) (e : Failure) : Prop :=
  ∃ v, fields.get? key = some v ∧ v.elements? = none ∧ e = .notIterable v.typeName

/-- The nodes that a graph is built of, with the entry of a new graph in front if there is none
among them. -/
def withEntry (nodes : List Node) : List Node :=
  if (nodes.filter Node.isEntry).isEmpty then Node.entry :: nodes else nodes

/-- Whether the first id that comes again is that of a node. -/
def Repeats (nodes : List Node) (id : String) : Prop :=
  ∃ before n after, nodes = before ++ n :: after ∧ (before.map (·.id)).Nodup ∧
    n.id ∈ before.map (·.id) ∧ id = n.id

/-- The failures of a stored graph that are no faults of its nodes and edges. -/
inductive Misfit (fields : Fields) : Failure → Prop where
  | nodes {e : Failure} : Unlisted fields "nodes" e → Misfit fields e
  | edges {nodes : List Node} {e : Failure} : storedNodes fields = .ok nodes →
      Unlisted fields "edges" e → Misfit fields e
  | entries {nodes : List Node} {edges : List Edge} : storedNodes fields = .ok nodes →
      storedEdges fields = .ok edges → 1 < (nodes.filter Node.isEntry).length →
      Misfit fields (.graph (.entries (nodes.filter Node.isEntry).length))
  | taken {nodes : List Node} {edges : List Edge} {id : String} : storedNodes fields = .ok nodes →
      storedEdges fields = .ok edges → (nodes.filter Node.isEntry).length ≤ 1 →
      Repeats (withEntry nodes) id → Misfit fields (.graph (.taken id))

theorem elements_eq_error : elements fields key = .error e ↔ Unlisted fields key e := by
  unfold elements Unlisted
  cases fields.get? key with
  | none => simp
  | some v => cases items : v.elements? <;> simp [items, eq_comm]

theorem readNode_eq_error {v : Json} (failed : readNode v = .error e) : ∃ i, e = .invalid i := by
  obtain ⟨i, -, rfl⟩ := mapError_eq_error.mp failed
  exact ⟨i, rfl⟩

theorem readEdge_eq_error {v : Json} (failed : readEdge v = .error e) : ∃ i, e = .invalid i := by
  obtain ⟨i, -, rfl⟩ := mapError_eq_error.mp failed
  exact ⟨i, rfl⟩

/-- Nodes are added up to the first one whose id comes again. -/
theorem addAll_eq_error (distinct : (done.map (·.id)).Nodup) :
    addAll done nodes = .error f ↔
      ∃ before n after, nodes = before ++ n :: after ∧ ((done ++ before).map (·.id)).Nodup ∧
        n.id ∈ (done ++ before).map (·.id) ∧ f = .taken n.id := by
  induction nodes generalizing done with
  | nil => simp [addAll]
  | cons m rest ih =>
      rw [addAll]
      split
      next known =>
        have known : m.id ∈ done.map (·.id) := by simpa using known
        constructor
        · intro failed
          cases failed
          exact ⟨[], m, rest, rfl, by simpa using distinct, by simpa using known, rfl⟩
        · rintro ⟨before, n, after, same, apart, -, rfl⟩
          cases before with
          | nil =>
              cases same
              rfl
          | cons first before =>
              cases same
              rw [List.map_append, List.nodup_append] at apart
              exact absurd rfl (apart.2.2 _ known _ (by simp))
      next free =>
        have absent : m.id ∉ done.map (·.id) := by simpa using free
        have more : ((done ++ [m]).map (·.id)).Nodup := by
          rw [List.map_append, List.map_singleton, ← List.concat_eq_append]
          exact distinct.concat absent
        rw [ih more]
        constructor
        · rintro ⟨before, n, after, rfl, apart, again, rfl⟩
          exact ⟨m :: before, n, after, rfl, by simpa using apart, by simpa using again, rfl⟩
        · rintro ⟨before, n, after, same, apart, again, rfl⟩
          cases before with
          | nil =>
              cases same
              exact absurd (by simpa using again) absent
          | cons first before =>
              cases same
              exact ⟨before, n, after, rfl, by simpa using apart, by simpa using again, rfl⟩

/-- Behind nodes with distinct ids the first id that comes again is that of a later node. -/
theorem repeats_append (distinct : (done.map (·.id)).Nodup) {id : String} :
    Repeats (done ++ nodes) id ↔
      ∃ before n after, nodes = before ++ n :: after ∧ ((done ++ before).map (·.id)).Nodup ∧
        n.id ∈ (done ++ before).map (·.id) ∧ id = n.id := by
  constructor
  · rintro ⟨before, n, after, same, apart, again, rfl⟩
    obtain ⟨more, rfl, rest⟩ | ⟨more, rfl, rest⟩ := List.append_eq_append_iff.mp same
    · exact ⟨more, n, after, rest, apart, again, rfl⟩
    · cases more with
      | nil => 
          refine ⟨[], n, after, by simpa using rest.symm, ?_, ?_, rfl⟩
          · simpa using apart
          · simpa using again
      | cons first more =>
          cases rest
          rw [List.map_append, List.nodup_append] at distinct
          exact absurd rfl (distinct.2.2 _ again _ (by simp))
  · rintro ⟨before, n, after, rfl, apart, again, rfl⟩
    exact ⟨done ++ before, n, after, by simp, apart, again, rfl⟩

theorem addAll_eq_taken (distinct : (done.map (·.id)).Nodup) :
    addAll done nodes = .error f ↔ ∃ id, Repeats (done ++ nodes) id ∧ f = .taken id := by
  rw [addAll_eq_error distinct]
  simp only [repeats_append distinct]
  constructor
  · rintro ⟨before, n, after, rest⟩
    exact ⟨n.id, ⟨before, n, after, rest.1, rest.2.1, rest.2.2.1, rfl⟩, rest.2.2.2⟩
  · rintro ⟨_, ⟨before, n, after, same, apart, again, rfl⟩, rfl⟩
    exact ⟨before, n, after, same, apart, again, rfl⟩

theorem build_eq_error : build nodes edges = .error f ↔
    (1 < (nodes.filter Node.isEntry).length ∧ f = .entries (nodes.filter Node.isEntry).length) ∨
      (nodes.filter Node.isEntry).length ≤ 1 ∧
        ∃ id, Repeats (withEntry nodes) id ∧ f = .taken id := by
  rw [build, withEntry]
  split
  next none =>
    have distinct : ([Node.entry].map (·.id)).Nodup := List.nodup_singleton _
    simp [none, map_eq_error, addAll_eq_taken distinct]
  next one =>
    have distinct : (([] : List Node).map (·.id)).Nodup := List.nodup_nil
    simp [one, map_eq_error, addAll_eq_taken distinct]
  next many single =>
    have several : 1 < (nodes.filter Node.isEntry).length := by
      rcases entries : nodes.filter Node.isEntry with _ | ⟨first, _ | ⟨second, others⟩⟩
      · exact absurd entries many
      · exact absurd entries (single first)
      · simp
    constructor
    · intro failed
      cases failed
      exact .inl ⟨several, rfl⟩
    · rintro (⟨-, rfl⟩ | ⟨few, -⟩)
      · rfl
      · exact absurd several (Nat.not_lt.mpr few)

/-- A stored graph fails with a misfit, or with faults. -/
theorem misfit_iff : Misfit fields e ↔ ofJson (.obj fields) = .error e ∧ ∀ i, e ≠ .invalid i := by
  rw [ofJson_obj]
  constructor
  · intro misfit
    cases misfit with
    | nodes unlisted =>
        have failed : storedNodes fields = .error e :=
          bind_eq_error.mpr (.inl (elements_eq_error.mpr unlisted))
        obtain ⟨v, -, -, rfl⟩ := unlisted
        exact ⟨bind_eq_error.mpr (.inl failed), by simp⟩
    | edges stored unlisted =>
        have failed : storedEdges fields = .error e :=
          bind_eq_error.mpr (.inl (elements_eq_error.mpr unlisted))
        obtain ⟨v, -, -, rfl⟩ := unlisted
        exact ⟨bind_eq_error.mpr (.inr ⟨_, stored, bind_eq_error.mpr (.inl failed)⟩), by simp⟩
    | entries stored listed several =>
        refine ⟨bind_eq_error.mpr (.inr ⟨_, stored, bind_eq_error.mpr (.inr ⟨_, listed, ?_⟩)⟩),
          by simp⟩
        exact mapError_eq_error.mpr ⟨_, build_eq_error.mpr (.inl ⟨several, rfl⟩), rfl⟩
    | taken stored listed few again =>
        refine ⟨bind_eq_error.mpr (.inr ⟨_, stored, bind_eq_error.mpr (.inr ⟨_, listed, ?_⟩)⟩),
          by simp⟩
        exact mapError_eq_error.mpr ⟨_, build_eq_error.mpr (.inr ⟨few, _, again, rfl⟩), rfl⟩
  · rintro ⟨failed, other⟩
    obtain failed | ⟨nodes, stored, failed⟩ := bind_eq_error.mp failed
    · obtain unlisted | ⟨vs, -, failed⟩ := bind_eq_error.mp failed
      · exact .nodes (elements_eq_error.mp unlisted)
      · obtain ⟨_, v, _, -, -, failed⟩ := mapM_eq_error.mp failed
        obtain ⟨i, rfl⟩ := readNode_eq_error failed
        exact absurd rfl (other i)
    · obtain failed | ⟨edges, listed, failed⟩ := bind_eq_error.mp failed
      · obtain unlisted | ⟨vs, -, failed⟩ := bind_eq_error.mp failed
        · exact .edges stored (elements_eq_error.mp unlisted)
        · obtain ⟨_, v, _, -, -, failed⟩ := mapM_eq_error.mp failed
          obtain ⟨i, rfl⟩ := readEdge_eq_error failed
          exact absurd rfl (other i)
      · obtain ⟨f, unbuilt, rfl⟩ := mapError_eq_error.mp failed
        obtain ⟨several, rfl⟩ | ⟨few, id, again, rfl⟩ := build_eq_error.mp unbuilt
        · exact .entries stored listed several
        · exact .taken stored listed few again

end Graph

end Parley
