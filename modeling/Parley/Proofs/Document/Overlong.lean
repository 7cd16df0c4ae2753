import Parley.Proofs.Document.Migrated
import Parley.Proofs.Json.Size

/-!
# Old documents that cannot be shown

Reading the graph of the editor shows values in two places: a node that is no object is shown in the
report about it, and the ends of an edge are spelled in the id of the edge before a look at what
they are.  A whole number of too many digits cannot be shown, and the failure of showing it is none
of those that are reported as reasons of the migration.  It happens exactly if such a node or edge
is the first part of the graph that is not read.
-/

namespace Parley

namespace Migration

/-- An old node that is no object, or whose data are given and are none. -/
def Shapeless (v : Json) : Prop :=
  ∀ fields data, v = .obj fields → orElse (Fields.get? fields "data") (.obj []) ≠ .obj data

/-- An old edge with all ends and a whole number of too many digits in one of them. -/
def EndsOverlong (v : Json) : Prop :=
  ∃ fields source sourceHandle target targetHandle, v = .obj fields ∧
    ends fields = .ok (source, sourceHandle, target, targetHandle) ∧
    ∃ w ∈ [source, sourceHandle, target, targetHandle], w.hasLongInteger = true

/-- What the graph of the editor holds if a whole number of too many digits stops its reading. -/
inductive GraphOverlong (graph : Fields) : Prop
  /-- A node that is no object; those before it are read. -/
  | node {before after : List Json} {v : Json}
      (listed : elements graph "nodes" = .ok (before ++ v :: after))
      (read : ∀ w ∈ before, ∃ n, node w = .ok n)
      (shapeless : Shapeless v) (long : v.hasLongInteger = true) : GraphOverlong graph
  /-- An edge; all nodes and the edges before it are read. -/
  | edge {nodes before after : List Json} {v : Json}
      (nodesListed : elements graph "nodes" = .ok nodes)
      (nodesRead : ∀ w ∈ nodes, ∃ n, Migration.node w = .ok n)
      (listed : elements graph "edges" = .ok (before ++ v :: after))
      (read : ∀ w ∈ before, ∃ e, edge w = .ok e)
      (long : EndsOverlong v) : GraphOverlong graph

/-- A document of the first version in the graph of which a number stops the reading. -/
def Overlong (v : Json) : Prop :=
  ∃ fields graph, v = .obj fields ∧ Fields.get? fields "creator_data" = some (.obj graph) ∧
    GraphOverlong graph

variable {v : Json} {fields graph : Fields} {e : DigitLimit}

theorem shapeless_eq_digits :
    shapeless v = .digits e ↔ v.hasLongInteger = true ∧ e = ⟨none⟩ := by
  rw [shapeless, ← Json.display_eq_error]
  cases v.display <;> simp

theorem node_eq_digits : node v = .error (.digits e) ↔
    Shapeless v ∧ v.hasLongInteger = true ∧ e = ⟨none⟩ := by
  rw [← shapeless_eq_digits]
  cases v with
  | obj fields =>
      rw [node]
      split
      next data there =>
        refine iff_of_false (fun failed => ?_) fun ⟨odd, _⟩ => odd fields data rfl there
        dsimp only at failed
        split at failed
        next => cases failed
        next => cases failed
      next odd =>
        have bare : Shapeless (.obj fields) := by
          rintro _ data ⟨⟩
          exact odd data
        simp [bare]
  | _ => simp [node, Shapeless]

/-- An id is spelled unless one of the ends cannot be shown. -/
theorem idOfEnds_eq_error {source output target input : Json} :
    idOfEnds source output target input = .error e ↔
      (∃ w ∈ [source, output, target, input], w.hasLongInteger = true) ∧ e = ⟨none⟩ := by
  simp only [List.exists_mem_cons_iff, List.not_mem_nil, false_and, exists_false, or_false]
  rw [idOfEnds]
  rcases Json.label_cases source with ⟨long, failed⟩ | ⟨first, _, shown⟩
  · simp [long, failed, bind, Except.bind, eq_comm (a := e)]
  rcases Json.label_cases output with ⟨long, failed⟩ | ⟨second, _, shown'⟩
  · simp [long, shown, failed, bind, Except.bind, eq_comm (a := e)]
  rcases Json.label_cases target with ⟨long, failed⟩ | ⟨third, _, shown''⟩
  · simp [long, shown, shown', failed, bind, Except.bind, eq_comm (a := e)]
  rcases Json.label_cases input with ⟨long, failed⟩ | ⟨fourth, _, last⟩
  · simp [long, shown, shown', shown'', failed, bind, Except.bind, eq_comm (a := e)]
  · simp [first, second, third, fourth, shown, shown', shown'', last, bind, Except.bind, pure,
      Except.pure]

theorem edge_eq_digits : edge v = .error (.digits e) ↔ EndsOverlong v ∧ e = ⟨none⟩ := by
  cases v with
  | obj fields =>
      rw [edge]
      constructor
      · intro failed
        rcases bind_eq_error.mp failed with unread | ⟨⟨a, b, c, d⟩, found, failed⟩
        · obtain ⟨_, -, other⟩ := mapError_eq_error.mp unread
          cases other
        · rcases bind_eq_error.mp failed with unshown | ⟨_, -, failed⟩
          · obtain ⟨_, unshown, same⟩ := mapError_eq_error.mp unshown
            cases same
            obtain ⟨long, rfl⟩ := idOfEnds_eq_error.mp unshown
            exact ⟨⟨fields, a, b, c, d, rfl, mapError_eq_ok.mp found, long⟩, rfl⟩
          · split at failed
            next => cases failed
            next => cases failed
      · rintro ⟨⟨_, a, b, c, d, ⟨⟩, found, long⟩, rfl⟩
        refine bind_eq_error.mpr (.inr ⟨_, mapError_eq_ok.mpr found, ?_⟩)
        refine bind_eq_error.mpr (.inl (mapError_eq_error.mpr ⟨_, ?_, rfl⟩))
        exact idOfEnds_eq_error.mpr ⟨long, rfl⟩
  | _ => simp [edge, EndsOverlong, unreadable]

/-- The nodes come before the edges, and both in their order. -/
theorem editorGraph_eq_digits :
    editorGraph graph = .error (.digits e) ↔ GraphOverlong graph ∧ e = ⟨none⟩ := by
  rw [editorGraph]
  constructor
  · intro failed
    rcases bind_eq_error.mp failed with unlisted | ⟨nodes, nodesListed, failed⟩
    · obtain ⟨_, -, other⟩ := mapError_eq_error.mp unlisted
      cases other
    have nodesListed := mapError_eq_ok.mp nodesListed
    rcases bind_eq_error.mp failed with unread | ⟨_, nodesRead, failed⟩
    · obtain ⟨before, v, after, rfl, read, failed⟩ := mapM_eq_error.mp unread
      obtain ⟨odd, long, rfl⟩ := node_eq_digits.mp failed
      exact ⟨.node nodesListed read odd long, rfl⟩
    have nodesRead := exists_mapM_eq_ok.mp ⟨_, nodesRead⟩
    rcases bind_eq_error.mp failed with unlisted | ⟨edges, listed, failed⟩
    · obtain ⟨_, -, other⟩ := mapError_eq_error.mp unlisted
      cases other
    have listed := mapError_eq_ok.mp listed
    rcases bind_eq_error.mp failed with unread | ⟨_, -, other⟩
    · obtain ⟨before, v, after, rfl, read, failed⟩ := mapM_eq_error.mp unread
      obtain ⟨long, rfl⟩ := edge_eq_digits.mp failed
      exact ⟨.edge nodesListed nodesRead listed read long, rfl⟩
    · cases other
  · rintro ⟨long, rfl⟩
    cases long with
    | node listed read odd long =>
        refine bind_eq_error.mpr (.inr ⟨_, mapError_eq_ok.mpr listed, bind_eq_error.mpr (.inl ?_)⟩)
        exact mapM_eq_error.mpr ⟨_, _, _, rfl, read, node_eq_digits.mpr ⟨odd, long, rfl⟩⟩
    | edge nodesListed nodesRead listed read long =>
        obtain ⟨nodes, nodesRead⟩ := exists_mapM_eq_ok.mpr nodesRead
        refine bind_eq_error.mpr (.inr ⟨_, mapError_eq_ok.mpr nodesListed, ?_⟩)
        refine bind_eq_error.mpr (.inr ⟨_, nodesRead, ?_⟩)
        refine bind_eq_error.mpr (.inr ⟨_, mapError_eq_ok.mpr listed, bind_eq_error.mpr (.inl ?_)⟩)
        exact mapM_eq_error.mpr ⟨_, _, _, rfl, read, edge_eq_digits.mpr ⟨long, rfl⟩⟩

/-- No value is shown where the character is placed. -/
theorem placed?_ne_digits (fields : Fields) (e : DigitLimit) :
    placed? fields ≠ .error (.digits e) := by
  intro failed
  rw [placed?] at failed
  split at failed
  next => cases failed
  next location _ =>
    rcases bind_eq_error.mp failed with unplaced | ⟨v, -, failed⟩
    · obtain ⟨_, -, other⟩ := mapError_eq_error.mp unplaced
      cases other
    · rcases map_eq_error.mp failed with unread
      obtain ⟨_, -, other⟩ := mapError_eq_error.mp unread
      cases other

/-- No value is shown where the graph is compiled. -/
theorem compiled?_ne_digits (fields : Fields) (nodes : List Node) (edges : List Edge)
    (interaction : Option Interaction) (e : DigitLimit) :
    compiled? fields nodes edges interaction ≠ .error (.digits e) := by
  intro failed
  rcases bind_eq_error.mp failed with unread | ⟨outcome, -, failed⟩
  · obtain ⟨_, -, other⟩ := mapError_eq_error.mp unread
    cases other
  · cases outcome <;> cases failed

theorem ofEditorGraph_eq_digits : ofEditorGraph fields = .error (.digits e) ↔
    (∃ graph, fields.get? "creator_data" = some (.obj graph) ∧ GraphOverlong graph) ∧
      e = ⟨none⟩ := by
  constructor
  · intro failed
    obtain ⟨graph, stored⟩ := exists_stored failed (by simp)
    rw [ofEditorGraph_of_stored stored] at failed
    rcases bind_eq_error.mp failed with unread | ⟨drawn, -, failed⟩
    · obtain ⟨long, rfl⟩ := editorGraph_eq_digits.mp unread
      exact ⟨⟨graph, stored, long⟩, rfl⟩
    · rcases bind_eq_error.mp failed with unplaced | ⟨interaction, -, failed⟩
      · exact absurd unplaced (placed?_ne_digits fields e)
      · exact absurd failed (compiled?_ne_digits fields _ _ interaction e)
  · rintro ⟨⟨graph, stored, long⟩, rfl⟩
    rw [ofEditorGraph_of_stored stored]
    exact bind_eq_error.mpr (.inl (editorGraph_eq_digits.mpr ⟨long, rfl⟩))

/-- A value that is migrated is shown in no other place. -/
theorem migrate_eq_digits : migrate v = .error (.digits e) ↔ Overlong v ∧ e = ⟨none⟩ := by
  rw [migrate_eq_error (by simp)]
  constructor
  · rintro ⟨fields, rfl, -, failed⟩
    obtain ⟨⟨graph, stored, long⟩, rfl⟩ := ofEditorGraph_eq_digits.mp failed
    exact ⟨⟨fields, graph, rfl, stored, long⟩, rfl⟩
  · rintro ⟨⟨fields, graph, rfl, stored, long⟩, rfl⟩
    exact ⟨fields, rfl, detectVersion_of_stored stored,
      ofEditorGraph_eq_digits.mpr ⟨⟨graph, stored, long⟩, rfl⟩⟩

end Migration

end Parley
