import Parley.Command.Edit
import Parley.Proofs.Graph.Text
import Parley.Proofs.Record.Stored

/-!
# Edits that cannot fail

Some edits come behind another one that makes sure of them: the text of a node that was just made
is set, the preferred action of a result that was just connected is chosen, edges that were just
listed are removed.  None of them fails, and a graph that could be written can be written behind
them.
-/

namespace Parley

theorem Node.isEntry_of_result {n : Node} {d : ResultData} (result : n.payload = .result d) :
    n.isEntry = false := by
  simp [isEntry, kind, result, Payload.kind]

namespace Graph

variable {g g' : Graph} {n : Node} {s : IdSupply} {id : String} {fields : Fields}
  {payload updated : Payload}

/-- Data are updated if the fields are known and make up data of the same kind. -/
theorem updatePayload_of (known : ∀ f ∈ fields, f.1 ∈ payload.fields.map (·.1))
    (merged : fields.foldl (fun all f => Fields.put f.1 f.2 all) payload.fields = updated.fields)
    (same : updated.kind = payload.kind) (free : payload.kind ≠ .entry) :
    updatePayload payload fields = .ok updated := by
  have none : (fields.map (·.1)).filter (!(payload.fields.map (·.1)).contains ·) = [] := by
    simpa [List.filter_eq_nil_iff] using known
  have read := Payload.read_fields (same ▸ free)
  rw [same] at read
  simp only [updatePayload, none, merged, read]
  rfl

theorem updateData_of (found : g.node? id = some n) (free : n.isEntry = false)
    (plain : argumentNames.find? fields.has = none)
    (updates : updatePayload n.payload fields = .ok payload) :
    g.updateData id fields = .ok (g.put { n with payload }, { n with payload }) := by
  have required : g.requireFree id "update_node_data" "change" = .ok n :=
    requireFree_eq_ok.mpr ⟨found, free⟩
  rw [updateData, plain]
  simp only [required, updates, bind, Except.bind]
  rfl

/-- Whether an edit succeeds and leaves a graph that can be written. -/
def Assures (g : Graph) (s : IdSupply) (e : Edit) : Prop :=
  (∃ answer, (g.edit s e).answer = .ok answer) ∧ (g.edit s e).graph.Short

/-- Setting fields is assured if they make up data that can be written. -/
theorem assures_updateData (short : g.Short) (found : g.node? id = some n)
    (free : n.isEntry = false) (plain : argumentNames.find? fields.has = none)
    (updates : updatePayload n.payload fields = .ok payload) (fits : payload.Short) :
    g.Assures s (.updateData id fields) := by
  have updated := updateData_of found free plain updates
  rw [Assures, edit, updated]
  exact ⟨⟨_, rfl⟩, short.put fits⟩

open Command in
/-- A new node is given its text. -/
theorem assures_text (short : g.Short) (found : g.node? id = some n) (free : n.isEntry = false)
    (new : n.payload = .ofKind n.kind) (text : String) :
    g.Assures s (.updateData id [(textField n.kind, .str text)]) := by
  have updates : ∃ payload, updatePayload (.ofKind n.kind) [(textField n.kind, .str text)] =
      .ok payload ∧ payload.Short := by
    cases kind : n.kind with
    | entry => simp [Node.isEntry, kind] at free
    | action =>
        refine ⟨.action { label := text }, updatePayload_of ?_ rfl rfl (by decide), rfl⟩
        simp [textField, Payload.ofKind, Payload.fields, ActionData.fields]
    | result =>
        refine ⟨.result { message := text }, updatePayload_of ?_ rfl rfl (by decide),
          Payload.short_result.mpr (Payload.short_result.mp (Payload.short_ofKind .result))⟩
        simp [textField, Payload.ofKind, Payload.fields, ResultData.fields]
    | conditional =>
        refine ⟨.conditional { value := text }, updatePayload_of ?_ rfl rfl (by decide), rfl⟩
        simp [textField, Payload.ofKind, Payload.fields, ConditionalData.fields]
  obtain ⟨payload, updates, fits⟩ := updates
  refine assures_updateData short found free ?_ (new ▸ updates) fits
  cases n.kind <;> rfl

/-- Another preferred action makes up data of the same kind. -/
theorem updatePayload_preferred (d : ResultData) (choice : String) :
    updatePayload (.result d) [("preferred", .str choice)] =
      .ok (.result { d with preferred := some choice }) :=
  updatePayload_of (List.forall_mem_singleton.mpr (by simp [Payload.fields, ResultData.fields]))
    rfl rfl Kind.noConfusion

/-- Other executors make up data of the same kind. -/
theorem updatePayload_executors (d : ResultData) (executors : List Executor) :
    updatePayload (.result d) [("executors", .arr (executors.map Executor.toJson))] =
      .ok (.result { d with executors }) :=
  updatePayload_of (List.forall_mem_singleton.mpr (by simp [Payload.fields, ResultData.fields]))
    rfl rfl Kind.noConfusion

/-- The executors of a result are set. -/
theorem setExecutors_of {d : ResultData} (found : g.node? id = some n)
    (result : n.payload = .result d) (executors : List Executor) :
    g.setExecutors id executors = .ok
      (g.put { n with payload := .result { d with executors } }) := by
  have free := n.isEntry_of_result result
  rw [setExecutors, updateData_of found free rfl (result ▸ updatePayload_executors d executors)]
  rfl

/-- The preferred action of a result that offers some actions: the one that it has, if that is
offered, and else the first of them.  It stays as it is where nothing is offered. -/
def preferredAmong (offered : List String) (preferred : Option String) : Option String :=
  if preferred.any offered.contains then preferred else offered.head?.or preferred

section Preferred

variable {offered : List String} {preferred : Option String} {d : ResultData}

@[simp] theorem preferredAmong_nil : preferredAmong [] preferred = preferred := by
  simp [preferredAmong]

theorem preferredAmong_of_mem {p : String} (there : p ∈ offered) :
    preferredAmong offered (some p) = some p := by
  simp [preferredAmong, there]

theorem preferredAmong_of_not_mem (bad : ∀ p ∈ offered, preferred ≠ some p) :
    preferredAmong offered preferred = offered.head?.or preferred := by
  cases preferred with
  | none => rfl
  | some p =>
      have absent : p ∉ offered := fun there => bad p there rfl
      simp [preferredAmong, absent]

/-- Where something is offered, the preferred action is offered. -/
theorem exists_preferredAmong (offers : offered ≠ []) (preferred : Option String) :
    ∃ p ∈ offered, preferredAmong offered preferred = some p := by
  obtain ⟨first, others, rfl⟩ := List.exists_cons_of_ne_nil offers
  by_cases good : ∃ p ∈ first :: others, preferred = some p
  · obtain ⟨p, there, rfl⟩ := good
    exact ⟨p, there, preferredAmong_of_mem there⟩
  · have bad (p : String) (there : p ∈ first :: others) : preferred ≠ some p :=
      fun same => good ⟨p, there, same⟩
    exact ⟨first, List.mem_cons_self, preferredAmong_of_not_mem bad⟩

theorem preferredAmong_idem (offered : List String) (preferred : Option String) :
    preferredAmong offered (preferredAmong offered preferred) =
      preferredAmong offered preferred := by
  by_cases none : offered = []
  · simp [none]
  · obtain ⟨p, there, chosen⟩ := exists_preferredAmong none preferred
    rw [chosen, preferredAmong_of_mem there]

/-- A result is given a preferred action that it offers; nothing is written where it has one. -/
theorem syncPreferred_of (found : g.node? id = some n) (result : n.payload = .result d) :
    let choice := preferredAmong (g.connectedActions id) d.preferred
    g.syncPreferred id = .ok (if choice = d.preferred then none
      else some (g.put { n with payload := .result { d with preferred := choice } }), choice) := by
  intro choice
  have required : g.requireResult id "sync_preferred" = .ok d :=
    requireResult_eq_ok.mpr ⟨n, found, result⟩
  rw [syncPreferred]
  simp only [required, bind, Except.bind]
  cases offers : g.connectedActions id with
  | nil => simp [choice, offers, pure, Except.pure]
  | cons first others =>
      dsimp only
      split
      next good =>
        have stays : choice = d.preferred := by simp [choice, offers, preferredAmong, good]
        rw [stays, if_pos rfl]
        rfl
      next bad =>
        have chosen : choice = some first := by
          simp only [choice, offers, preferredAmong, bad]
          rfl
        have other : some first ≠ d.preferred := fun same => bad (by simp [← same])
        rw [updateData_of found (n.isEntry_of_result result) rfl
          (result ▸ updatePayload_preferred d first), chosen, if_neg other]
        rfl

theorem assures_syncPreferred (short : g.Short) (found : g.node? id = some n)
    (result : n.payload = .result d) : g.Assures s (.syncPreferred id) := by
  have fits : (Payload.result d).Short := result ▸ short n (node?_mem found)
  have parts := Payload.short_result.mp fits
  rw [Assures, edit, syncPreferred_of found result]
  split
  next => exact ⟨⟨_, rfl⟩, short⟩
  next => exact ⟨⟨_, rfl⟩, short.put (Payload.short_result.mpr parts)⟩

end Preferred

/-- Removing an edge does not fail, whether or not it is there. -/
theorem assures_disconnect (short : g.Short) : g.Assures s (.disconnect id) := by
  rw [Assures, edit]
  cases removed : g.disconnect id with
  | none => exact ⟨⟨_, rfl⟩, short⟩
  | some g' =>
      rw [disconnect_eq_some removed]
      exact ⟨⟨_, rfl⟩, short⟩

end Graph

end Parley
