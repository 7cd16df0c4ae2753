import Parley.Document.Basic
import Parley.Proofs.Record.Checked

/-!
# Stored forms read back

Every record that a document holds is read back from its stored form as it was: no number, truth
value or text changes its type on the way.  The readers are generous and convert many values; what
is stated here is that a stored form never needs a conversion.

A reading of a record is put together field by field, so each statement follows from those on the
parts; which value is under a key of a written object is a computation.
-/

namespace Parley

namespace Checked

variable {α : Type}

/-- Items are read back one by one, wherever the first one stands. -/
theorem items_map {read : Json → Checked α} {write : α → Json}
    (reads : ∀ a, read (write a) = ok a) (position : Nat) (xs : List α) :
    items read position (xs.map write) = ok xs := by
  induction xs generalizing position with
  | nil => rfl
  | cons x xs ih => simp [items, reads, ih]

theorem list_map {read : Json → Checked α} {write : α → Json}
    (reads : ∀ a, read (write a) = ok a) (xs : List α) :
    list read (.arr (xs.map write)) = ok xs :=
  items_map reads 0 xs

theorem list_ofTexts (texts : List String) : list text (Json.ofTexts texts) = ok texts := by
  have reads : ∀ s, text (.str s) = ok s := fun _ => rfl
  exact list_map reads texts

theorem optional_ofText (s : Option String) : optional text (Json.ofText? s) = ok s := by
  cases s <;> rfl

theorem optional_ok {read : Json → Checked α} {v : Json} {a : α} (given : v ≠ .null)
    (reads : read v = ok a) : optional read v = ok (some a) := by
  cases v <;> simp_all [optional]

theorem scalar_toJson (s : Scalar) : scalar s.toJson = ok s := by
  cases s <;> rfl

theorem quantity_toJson (q : Quantity) : quantity q.toJson = ok q := by
  cases q <;> rfl

theorem natural_int (n : Nat) : natural (.int n) = ok n := by
  have notNegative : ¬ ((n : Int) < 0) := by omega
  simp [natural, integer, andThen, notNegative]

end Checked

theorem Side.read_toJson (s : Side) : Side.read s.toJson = .ok s := by
  cases s <;> rfl

theorem Operator.read_toJson (o : Operator) : Operator.read o.toJson = .ok o := by
  cases o <;> rfl

theorem RefType.read_word (t : RefType) : RefType.read (.str t.word) = .ok t := by
  cases t <;> rfl

theorem ExecutorType.ofJson?_word (t : ExecutorType) : ofJson? (.str t.word) = some t := by
  cases t <;> decide

theorem Position.read_toJson (p : Position) : Position.read p.toJson = .ok p := by
  simp [Position.read, Position.toJson, Checked.record, Checked.field]

theorem ActionHandles.read_toJson (h : ActionHandles) : ActionHandles.read h.toJson = .ok h := by
  simp [ActionHandles.read, ActionHandles.toJson, Checked.record, Checked.field,
    Side.read_toJson]

theorem ResultHandles.read_toJson (h : ResultHandles) : ResultHandles.read h.toJson = .ok h := by
  simp [ResultHandles.read, ResultHandles.toJson, Checked.record, Checked.field,
    Side.read_toJson]

theorem ConditionalHandles.read_toJson (h : ConditionalHandles) :
    ConditionalHandles.read h.toJson = .ok h := by
  simp [ConditionalHandles.read, ConditionalHandles.toJson, Checked.record, Checked.field,
    Side.read_toJson]

theorem CloseBehavior.read_toJson (c : CloseBehavior) : CloseBehavior.read c.toJson = .ok c := by
  simp [CloseBehavior.read, CloseBehavior.toJson, CloseBehavior.fields, Checked.record,
    Checked.field, Checked.natural_int]

theorem Executor.readValue_valueJson (e : Executor) :
    Executor.readValue e.type e.valueJson = .ok e := by
  cases e <;> simp [Executor.type, Executor.readValue, Executor.valueJson, Executor.readStore,
    Checked.record, Checked.field, Checked.scalar_toJson]

theorem Executor.read_toJson (e : Executor) : Executor.read e.toJson = .ok e := by
  simp [Executor.read, Executor.toJson, Executor.readFields, Checked.field,
    ExecutorType.ofJson?_word, Executor.readValue_valueJson]

theorem ActionData.read_fields (d : ActionData) : ActionData.read (.obj d.fields) = .ok d := by
  simp [ActionData.read, ActionData.fields, Checked.record, Checked.field,
    ActionHandles.read_toJson]

theorem ResultData.read_fields (d : ResultData) : ResultData.read (.obj d.fields) = .ok d := by
  simp [ResultData.read, ResultData.fields, Checked.record, Checked.field,
    Checked.optional_ofText, Checked.list_ofTexts, CloseBehavior.read_toJson,
    Checked.list_map Executor.read_toJson, ResultHandles.read_toJson]

theorem ConditionalData.read_fields (d : ConditionalData) :
    ConditionalData.read (.obj d.fields) = .ok d := by
  simp [ConditionalData.read, ConditionalData.fields, Checked.record, Checked.field,
    Operator.read_toJson, Checked.scalar_toJson, ConditionalHandles.read_toJson]

/-- The data of a node are read back; those of an entry have flags that are stored elsewhere. -/
theorem Payload.read_fields {payload : Payload} (free : payload.kind ≠ .entry) :
    Payload.read payload.kind (.obj payload.fields) = .ok payload := by
  cases payload with
  | entry draggable deletable => exact absurd rfl free
  | action d => exact Checked.map_eq_ok.mpr ⟨d, d.read_fields, rfl⟩
  | result d => exact Checked.map_eq_ok.mpr ⟨d, d.read_fields, rfl⟩
  | conditional d => exact Checked.map_eq_ok.mpr ⟨d, d.read_fields, rfl⟩

theorem Ref.read_toJson (r : Ref) : Ref.read r.toJson = .ok r := by
  simp [Ref.read, Ref.toJson, Checked.record, Checked.needed, RefType.read_word]

theorem Location.read_toJson (l : Location) : Location.read l.toJson = .ok l := by
  simp [Location.read, Location.toJson, Checked.record, Checked.field,
    Checked.quantity_toJson]

theorem Interaction.read_toJson (i : Interaction) : Interaction.read i.toJson = .ok i := by
  simp [Interaction.read, Interaction.toJson, Checked.record, Checked.field, Checked.keyOf,
    Fields.has, Checked.quantity_toJson, Location.read_toJson]

theorem ActionRow.read_toJson (r : ActionRow) : ActionRow.read r.toJson = .ok r := by
  have target : Checked.optional Ref.read ((r.target.map Ref.toJson).getD .null) =
      .ok r.target := by
    cases r.target with
    | none => rfl
    | some ref => exact Checked.optional_ok (by simp [Ref.toJson]) ref.read_toJson
  simp [ActionRow.read, ActionRow.toJson, Checked.record, Checked.field, Checked.needed, target,
    Position.read_toJson, ActionHandles.read_toJson]

theorem ResultRow.read_toJson (r : ResultRow) : ResultRow.read r.toJson = .ok r := by
  simp [ResultRow.read, ResultRow.toJson, Checked.record, Checked.field, Checked.needed,
    Checked.optional_ofText, Checked.list_ofTexts, CloseBehavior.read_toJson,
    Checked.list_map Executor.read_toJson, Position.read_toJson, ResultHandles.read_toJson]

theorem ConditionRow.read_toJson (r : ConditionRow) : ConditionRow.read r.toJson = .ok r := by
  simp [ConditionRow.read, ConditionRow.toJson, Checked.record, Checked.field, Checked.needed,
    Checked.keyOf, Fields.has, Operator.read_toJson, Checked.scalar_toJson, Ref.read_toJson,
    Position.read_toJson, ConditionalHandles.read_toJson]

/-- A document is read back from its stored form as it was. -/
theorem Document.read_toJson (d : Document) : Document.read d.toJson = .ok d := by
  have interaction (i : Interaction) :
      Checked.optional Interaction.read i.toJson = .ok (some i) :=
    Checked.optional_ok (by simp [Interaction.toJson]) i.read_toJson
  obtain ⟨npc, placement, actions, results, conditions, initial⟩ := d
  cases placement <;>
    simp [Document.read, Document.toJson, Document.fields, Checked.record, Checked.field,
      Checked.needed, interaction, Checked.list_map ActionRow.read_toJson,
      Checked.list_map ResultRow.read_toJson, Checked.list_map ConditionRow.read_toJson,
      Ref.read_toJson]

end Parley
