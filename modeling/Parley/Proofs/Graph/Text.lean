import Parley.Proofs.Graph.Lookup
import Parley.Proofs.Graph.Refusal
import Parley.Proofs.Json.RoundTrip

/-!
# The texts of graphs

The stored form of a graph whose nodes have points is written as a text that is read back, unless
one of its whole numbers is too long to be written.  Such a number only comes in as the value of a
field that is set or of an executor that is added; no other edit can make a graph that is not
written of one that is.
-/

namespace Parley

namespace Payload

/-- Whether no whole number in the data of a node is too long to be written. -/
def Short (payload : Payload) : Prop := (Json.obj payload.fields).hasLongInteger = false

instance (payload : Payload) : Decidable payload.Short := inferInstanceAs (Decidable (_ = _))

theorem short_ofKind (kind : Kind) : (ofKind kind).Short := by
  cases kind <;> decide

/-- The only whole numbers in the data of a result are its delay and those of its executors. -/
theorem short_result {d : ResultData} : (result d).Short ↔
    (Json.int d.close.delay).hasLongInteger = false ∧
      Json.anyLongItem (d.executors.map Executor.toJson) = false := by
  have choice : (Json.ofText? d.preferred).hasLongInteger = false := by cases d.preferred <;> rfl
  simp [Short, fields, ResultData.fields, ResultHandles.toJson, CloseBehavior.toJson,
    CloseBehavior.fields, Side.toJson, Json.ofTexts, Json.anyLongItem_eq, choice]

end Payload

namespace Graph

variable {g : Graph} {n : Node}

/-- Whether no whole number in the data of the nodes is too long to be written. -/
def Short (g : Graph) : Prop := ∀ n ∈ g.nodes, n.payload.Short

theorem Short.put (h : g.Short) (short : n.payload.Short) : (g.put n).Short := by
  intro m member
  rcases mem_put.mp member with rfl | ⟨member, -⟩
  · exact short
  · exact h m member

end Graph

theorem Node.hasLongInteger_toJson {n : Node} (placed : ∃ p, n.position = .point p) :
    n.toJson.hasLongInteger = (Json.obj n.payload.fields).hasLongInteger := by
  obtain ⟨id, position, payload⟩ := n
  obtain ⟨p, rfl⟩ := placed
  cases payload <;>
    simp [toJson, Placement.toJson, Position.toJson, Payload.fields]

theorem Edge.hasLongInteger_toJson (e : Edge) : e.toJson.hasLongInteger = false := by
  simp [toJson]

theorem Scalar.keyed_toJson (s : Scalar) : s.toJson.Keyed := by
  cases s <;> trivial

theorem Executor.keyed_toJson (e : Executor) : e.toJson.Keyed := by
  cases e <;> simp [toJson, valueJson, Scalar.keyed_toJson]

theorem Payload.keyed_fields (payload : Payload) : (Json.obj payload.fields).Keyed := by
  cases payload with
  | entry => exact ⟨List.nodup_nil, trivial⟩
  | action d =>
      simp [fields, ActionData.fields, ActionHandles.toJson, Side.toJson]
  | result d =>
      have choice : (Json.ofText? d.preferred).Keyed := by cases d.preferred <;> trivial
      simp [fields, ResultData.fields, ResultHandles.toJson, CloseBehavior.toJson,
        CloseBehavior.fields, Side.toJson, Json.ofTexts, Executor.keyed_toJson, choice]
  | conditional d =>
      simp [fields, ConditionalData.fields, ConditionalHandles.toJson, Operator.toJson,
        Side.toJson, Scalar.keyed_toJson]

theorem Node.keyed_toJson {n : Node} (placed : ∃ p, n.position = .point p) : n.toJson.Keyed := by
  obtain ⟨id, position, payload⟩ := n
  obtain ⟨p, rfl⟩ := placed
  have data := payload.keyed_fields
  cases payload <;>
    simpa [toJson, Placement.toJson, Position.toJson] using data

theorem Edge.keyed_toJson (e : Edge) : e.toJson.Keyed := by
  simp [toJson]

namespace Graph

variable {g : Graph} {layout : Json.Layout}

theorem Placed.keyed (h : g.Placed) : g.toJson.Keyed := by
  have nodes : ∀ n ∈ g.nodes, n.toJson.Keyed := fun n member => Node.keyed_toJson (h n member)
  simpa [toJson, Edge.keyed_toJson] using nodes

/-- A graph whose nodes have points is written unless a number in their data is too long. -/
theorem Placed.hasLongInteger_eq_false (h : g.Placed) :
    g.toJson.hasLongInteger = false ↔ g.Short := by
  have nodes : (∀ v ∈ g.nodes.map Node.toJson, v.hasLongInteger = false) ↔ g.Short := by
    rw [List.forall_mem_map]
    refine forall₂_congr fun n member => ?_
    rw [Node.hasLongInteger_toJson (h n member)]
    rfl
  simp [toJson, Edge.hasLongInteger_toJson, ← nodes]

theorem Placed.text_of_short (h : g.Placed) (short : g.Short) (layout : Json.Layout) :
    ∃ text, g.toJson.text layout = .ok text :=
  ⟨_, Json.text_eq_ok.mpr ⟨h.hasLongInteger_eq_false.mpr short, rfl⟩⟩

/-- A graph that was written is short. -/
theorem Placed.short_of_text (h : g.Placed) {text : String}
    (written : g.toJson.text layout = .ok text) : g.Short :=
  h.hasLongInteger_eq_false.mp (Json.text_eq_ok.mp written).1

end Graph

end Parley
