import Parley.Command.Edit
import Parley.Proofs.Graph.Operation

/-!
# Failures that are reported

An edit command reports the failures of the operations that it calls.  Nearly all operations fail
with failures that it knows: edits that are refused, values that do not fit, numbers that are too
long.  `Misuse` lists the others.  They come of a command that sets a field: a part of data is asked
for that the kind of the node does not have, or the field has the name of an argument.
-/

namespace Parley

variable {α β : Type}

namespace Command

/-- Whether all failures of an operation are reported. -/
def Reports (x : Except Failure α) : Prop := ∀ f, x = .error f → isReported f = true

namespace Reports

variable {x : Except Failure α}

theorem ok {a : α} : Reports (.ok a : Except Failure α) := fun _ failed => nomatch failed

theorem error {f : Failure} (reported : isReported f = true) :
    Reports (.error f : Except Failure α) := by
  rintro _ ⟨⟩
  exact reported

theorem bind {f : α → Except Failure β} (first : Reports x) (next : ∀ a, Reports (f a)) :
    Reports (x >>= f) := by
  intro e failed
  obtain failed | ⟨a, -, failed⟩ := bind_eq_error.mp failed
  · exact first e failed
  · exact next a e failed

theorem map {f : α → β} (first : Reports x) : Reports (x.map f) :=
  fun e failed => first e (map_eq_error.mp failed)

/-- Values that do not fit are reported. -/
theorem invalid {x : Except Invalid α} : Reports (x.mapError .invalid) := by
  intro e failed
  obtain ⟨_, -, rfl⟩ := mapError_eq_error.mp failed
  rfl

/-- Numbers that are too long are reported. -/
theorem digits {x : Except DigitLimit α} : Reports (x.mapError .digits) := by
  intro e failed
  obtain ⟨_, -, rfl⟩ := mapError_eq_error.mp failed
  rfl

end Reports

section Operations

open Parley.Graph (argumentNames)

variable {g : Graph} {n : Node} {id context operation : String} {fields : Fields}

/-- An edit fails with what its operation fails with. -/
theorem error_of_settled {supply : IdSupply} {r : Except Failure (Option Graph × EditAnswer)}
    {f : Failure} (failed : (g.settled supply r).answer = .error f) : r = .error f := by
  match r with
  | .error _ =>
      cases failed
      rfl
  | .ok (none, _) => cases failed
  | .ok (some _, _) => cases failed

theorem reports_require : Reports (g.require id context) := by
  rw [Graph.require]
  split
  next => exact .ok
  next => exact .error rfl

theorem reports_requireFree : Reports (g.requireFree id context operation) := by
  refine reports_require.bind fun n => ?_
  split
  next => exact .error rfl
  next => exact .ok

theorem reports_requireResult : Reports (g.requireResult id context) := by
  refine reports_require.bind fun n => ?_
  split
  next => exact .ok
  next => exact .error rfl

theorem reports_addNode : Reports (g.addNode n) := by
  rw [Graph.addNode]
  split
  next => exact .error rfl
  next =>
    split
    next => exact .error rfl
    next => exact .ok

/-- A node that is placed by two coordinates is made, or it is reported why not. -/
theorem reports_createNode {kind x y id : Json} {supply : IdSupply} :
    Reports (g.createNode kind (.coordinates [x, y]) id supply).1 := by
  have settled : Reports (PlaceArgument.coordinates [x, y]).settle := .map .invalid
  have created : Reports (Node.create kind (.coordinates [x, y]) id supply).1 := by
    unfold Node.create
    split
    next => exact .error rfl
    next => exact .ok
    next =>
      split
      next failed => exact .error (settled _ failed)
      next =>
        split
        next => exact .invalid
        next => exact .invalid
  unfold Graph.createNode
  split
  next => exact .error rfl
  next => exact .error rfl
  next => exact created.bind fun n => reports_addNode.map

theorem reports_updatePayload {payload : Payload} :
    Reports (Graph.updatePayload payload fields) := by
  dsimp only [Graph.updatePayload]
  split
  next => exact .error rfl
  next => exact .invalid

/-- Fields are set or it is reported why not, if none has the name of an argument. -/
theorem reports_updateData (plain : argumentNames.find? fields.has = none) :
    Reports (g.updateData id fields) := by
  rw [Graph.updateData, plain]
  exact reports_requireFree.bind fun n => reports_updatePayload.bind fun _ => .ok

theorem reports_deleteNode : Reports (g.deleteNode id) :=
  reports_requireFree.bind fun _ => .ok

theorem reports_addExecutor {type value : Json} : Reports (g.addExecutor id type value) := by
  have created : Reports (Executor.create type) := by
    rw [Executor.create]
    split
    next => exact .error rfl
    next => exact .ok
  refine reports_requireResult.bind fun d => ?_
  refine .bind (.bind created fun standard => ?_) fun executor => ?_
  · split
    next => exact .ok
    next => exact .invalid
  · exact .bind (.map (reports_updateData rfl)) fun _ => .ok

theorem reports_connect {source sourceHandle target targetHandle : String} :
    Reports (g.connect source sourceHandle target targetHandle) := by
  dsimp only [Graph.connect]
  split
  next => exact .error rfl
  next =>
    split
    next => exact .error rfl
    next =>
      split
      next => exact .ok
      next =>
        split
        next => exact .error rfl
        next => exact .ok

theorem reports_executorValue {type : ExecutorType} {text : String} {key : Option String} :
    Reports (executorValue type text key) := by
  have scalar : Reports ((Scalar.parse text).mapError .digits) := .digits
  cases type with
  | dialogStore | setCoins | setGems => exact scalar.map
  | command | openMarket => exact .ok

end Operations

/-- The fields that set a part of the close setting. -/
def closeFields : List String := ["close", "close.enabled", "close.delay"]

/-- The failures of a command to set a field that it does not report. -/
inductive Misuse (n : Node) (field : String) : Failure → Prop where
  | close : field ∈ closeFields → n.isResult = false →
      Misuse n field (.noAttribute (Payload.recordName n.kind) "close")
  | side : (sideField? field).isSome = true → n.isEntry = true →
      Misuse n field (.noAttribute (Payload.recordName n.kind) "handle")
  | argument : field ∈ Graph.argumentNames → Misuse n field (.doubleArgument field)

section Fields

variable {n : Node} {field part text : String} {fields : Fields} {f : Failure}

/-- Only results have a close setting. -/
theorem dataPart_close (failed : dataPart n "close" = .error f) :
    n.isResult = false ∧ f = .noAttribute (Payload.recordName n.kind) "close" := by
  obtain ⟨id, position, payload⟩ := n
  cases payload <;> cases failed <;> exact ⟨rfl, rfl⟩

/-- All nodes but entries have sides for their ports. -/
theorem dataPart_handle (failed : dataPart n "handle" = .error f) :
    n.isEntry = true ∧ f = .noAttribute (Payload.recordName n.kind) "handle" := by
  obtain ⟨id, position, payload⟩ := n
  cases payload with
  | entry =>
      cases failed
      exact ⟨rfl, rfl⟩
  | _ => cases failed

/-- A part of the close setting is asked for in vain where there is none. -/
theorem closeUpdate_eq_error (failed : closeUpdate n part text = .error f) :
    isReported f = true ∨
      n.isResult = false ∧ f = .noAttribute (Payload.recordName n.kind) "close" := by
  obtain failed | ⟨close, -, failed⟩ := bind_eq_error.mp failed
  · exact .inr (dataPart_close failed)
  · obtain failed | ⟨scalar, -, failed⟩ := bind_eq_error.mp failed
    · exact .inl (Reports.digits f failed)
    · cases failed

/-- The fields that are set for a field are reported to be wrong, unless the field is misused. -/
theorem fieldUpdate_eq_error (failed : fieldUpdate n field text = .error f) :
    isReported f = true ∨ Misuse n field f := by
  have closing {part : String} (listed : field ∈ closeFields)
      (failed : closeUpdate n part text = .error f) :
      isReported f = true ∨ Misuse n field f := by
    refine (closeUpdate_eq_error failed).imp_right ?_
    rintro ⟨other, rfl⟩
    exact .close listed other
  unfold fieldUpdate at failed
  split at failed
  next port side =>
    obtain ⟨entry, rfl⟩ := dataPart_handle (map_eq_error.mp failed)
    exact .inr (.side (by rw [side]; rfl) entry)
  next =>
    split at failed
    next => exact closing (by decide) failed
    next => exact closing (by decide) failed
    next => exact closing (by decide) failed
    next => exact .inl (Reports.digits f (map_eq_error.mp failed))
    all_goals cases failed

/-- One field is set, and it is the one that is named unless it is known. -/
theorem fieldUpdate_eq_ok (updates : fieldUpdate n field text = .ok fields) :
    ∃ key v, fields = [(key, v)] ∧
      (key = field ∨ key ∈ ["handle", "close", "objective", "preferred", "order"]) := by
  have closing {part : String} (made : closeUpdate n part text = .ok fields) :
      ∃ v, fields = [("close", v)] := by
    obtain ⟨close, -, made⟩ := bind_eq_ok.mp made
    obtain ⟨scalar, -, made⟩ := bind_eq_ok.mp made
    cases made
    exact ⟨_, rfl⟩
  unfold fieldUpdate at updates
  split at updates
  next =>
    obtain ⟨sides, -, rfl⟩ := map_eq_ok.mp updates
    exact ⟨_, _, rfl, .inr (by decide)⟩
  next =>
    split at updates
    next =>
      obtain ⟨v, rfl⟩ := closing updates
      exact ⟨_, v, rfl, .inl rfl⟩
    next =>
      obtain ⟨v, rfl⟩ := closing updates
      exact ⟨_, v, rfl, .inr (by decide)⟩
    next =>
      obtain ⟨v, rfl⟩ := closing updates
      exact ⟨_, v, rfl, .inr (by decide)⟩
    next =>
      obtain ⟨scalar, -, rfl⟩ := map_eq_ok.mp updates
      exact ⟨_, _, rfl, .inl rfl⟩
    all_goals
      cases updates
      exact ⟨_, _, rfl, .inl rfl⟩

/-- Setting the fields that a field stands for is refused with a report, unless it is misused. -/
theorem updateData_eq_error {g : Graph} {id : String}
    (updates : fieldUpdate n field text = .ok fields)
    (failed : g.updateData id fields = .error f) : isReported f = true ∨ Misuse n field f := by
  cases named : Graph.argumentNames.find? fields.has with
  | none => exact .inl (reports_updateData named f failed)
  | some name =>
      have argument := List.mem_of_find?_eq_some named
      have given := List.find?_some named
      obtain ⟨key, v, rfl, known⟩ := fieldUpdate_eq_ok updates
      obtain rfl : name = key := by simpa [Fields.has, Fields.get?_cons] using given
      have apart : ∀ name ∈ Graph.argumentNames,
          name ∉ ["handle", "close", "objective", "preferred", "order"] := by decide
      obtain rfl : name = field := known.resolve_right (apart name argument)
      rw [Graph.updateData, named] at failed
      cases failed
      exact .inr (.argument argument)

end Fields

end Command

end Parley
