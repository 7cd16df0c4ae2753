import Parley.Proofs.Document.Clean
import Parley.Proofs.Graph.Stored

/-!
# Graphs that are kept

The graphs that commands save have one entry, and their nodes have points and ids.  The empty graph
is one, and so is every graph that is read from a stored form or loaded from a document; edits that
copy nothing lead from one to another.  So whatever is saved can be read again, as the graph that it
was.
-/

namespace Parley

namespace Graph

variable {new : Prop} {g g' : Graph} {supply : IdSupply} {e : Edit}

/-- What the graphs that are kept are like. -/
structure Proper (g : Graph) : Prop where
  entered : g.Entered
  named : ∀ n ∈ g.nodes, n.Named

/-- Every change leaves nodes with ids. -/
theorem named_change (named : ∀ n ∈ g.nodes, n.Named) (step : Change new g g') :
    ∀ n ∈ g'.nodes, n.Named := by
  cases step with
  | add n p free given placed absent =>
      intro m member
      rcases mem_put.mp member with rfl | ⟨member, -⟩
      · exact .inr given
      · exact named m member
  | set id m n there free same kind placed =>
      intro x member
      rcases mem_put.mp member with rfl | ⟨member, -⟩
      · rw [Node.Named, same, Node.isEntry, kind]
        exact named m (node?_mem there)
      · exact named x member
  | delete id n there free => exact fun m member => named m (List.mem_of_mem_filter member)
  | reset n there isEntry =>
      intro m member
      rw [List.mem_singleton.mp member]
      exact named n (node?_mem there)
  | link e fits unknown unused => exact named
  | unlink id => exact named

namespace Proper

theorem empty : Graph.empty.Proper where
  entered := Sound.empty.entered
  named := List.forall_mem_singleton.mpr (.inl rfl)

theorem of_ofJson {v : Json} (read : ofJson v = .ok g) : g.Proper :=
  ⟨entered_of_ofJson read, named_of_ofJson read⟩

/-- An edit that copies nothing leads from one such graph to another, whether or not it succeeds. -/
theorem edit (h : g.Proper) (typed : e.Typed) (single : ¬ e.Copies) :
    (g.edit supply e).graph.Proper where
  entered := h.entered.edit typed single
  named := preserved_by_changes (P := fun g => ∀ n ∈ g.nodes, n.Named) named_change h.named
    (edit_changes typed)

/-- A row of edits without copies leads from one such graph to another. -/
theorem after (h : g.Proper) {edits : List Edit} (plain : ∀ e ∈ edits, e.Typed ∧ ¬ e.Copies) :
    (g.after supply edits).Proper := by
  induction edits generalizing g supply with
  | nil => exact h
  | cons e rest ih =>
      obtain ⟨⟨typed, single⟩, plain⟩ := List.forall_mem_cons.mp plain
      exact ih (h.edit typed single) plain

/-- Such a graph is read back from its stored form. -/
theorem ofJson_toJson (h : g.Proper) : ofJson g.toJson = .ok g := h.entered.ofJson_toJson h.named

end Proper

end Graph

/-- Whatever is loaded, its graph is one that can be kept. -/
theorem Graph.Proper.of_load {v : Json} {l : Loaded} {events : List Log.Event}
    (loaded : load v = (.ok (.ok l), events)) : l.graph.Proper where
  entered := (Graph.Start.loaded loaded).entered
  named n member := .inr ((Load.load_regular loaded).named n member)

end Parley
