import Parley.Document.Basic
import Parley.Proofs.Graph.Text

/-!
# Documents as texts

No key comes twice in a document, so it is read back from its text.  As a graph it has neither nodes
nor edges: a document in the place of a draft is read as the empty graph.
-/

namespace Parley

theorem Quantity.keyed_toJson (q : Quantity) : q.toJson.Keyed := by
  cases q <;> trivial

theorem Interaction.keyed_toJson (i : Interaction) : i.toJson.Keyed := by
  simp [toJson, Location.toJson, Quantity.keyed_toJson]

theorem Ref.keyed_toJson (r : Ref) : r.toJson.Keyed := by
  simp [toJson]

theorem ActionRow.keyed_toJson (r : ActionRow) : r.toJson.Keyed := by
  have target : ((r.target.map Ref.toJson).getD .null).Keyed := by
    cases r.target with
    | none => trivial
    | some target => exact target.keyed_toJson
  simp [toJson, Position.toJson, ActionHandles.toJson, Side.toJson, target]

theorem ResultRow.keyed_toJson (r : ResultRow) : r.toJson.Keyed := by
  have choice : (Json.ofText? r.preferred).Keyed := by cases r.preferred <;> trivial
  simp [toJson, CloseBehavior.toJson, CloseBehavior.fields, Position.toJson, ResultHandles.toJson,
    Side.toJson, Json.ofTexts, Executor.keyed_toJson, choice]

theorem ConditionRow.keyed_toJson (r : ConditionRow) : r.toJson.Keyed := by
  simp [toJson, Position.toJson, ConditionalHandles.toJson, Operator.toJson, Side.toJson,
    Scalar.keyed_toJson, Ref.keyed_toJson]

namespace Document

variable {d : Document}

theorem keyed_toJson (d : Document) : d.toJson.Keyed := by
  cases placed : d.interaction <;>
    simp [toJson, fields, placed, ActionRow.keyed_toJson, ResultRow.keyed_toJson,
      ConditionRow.keyed_toJson, Ref.keyed_toJson, Interaction.keyed_toJson]

/-- A document in the place of a draft is read as the empty graph. -/
theorem ofJson_toJson (d : Document) : Graph.ofJson d.toJson = .ok .empty := by
  have absent {key : String} (nodes : key = "nodes" ∨ key = "edges") :
      d.fields.get? key = none := by
    obtain rfl | rfl := nodes <;> cases placed : d.interaction <;> simp [fields, placed]
  rw [toJson, Graph.ofJson, Graph.elements, Graph.elements, absent (.inl rfl), absent (.inr rfl)]
  rfl

end Document

end Parley
