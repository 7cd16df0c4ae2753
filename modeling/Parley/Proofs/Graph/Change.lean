import Mathlib.Logic.Relation
import Parley.Proofs.Graph.Operation

/-!
# What an edit can do

Each edit of a graph, whether it succeeds or fails, is a row of elementary changes: a node is put
in, a node is deleted with its edges, all but the entry is deleted, an edge is added, an edge is
removed.  `Change` says what is known about each of them, guards included, and `edit_changes` that
there are no others.  What every change preserves is therefore preserved by every edit, and no other
proof has to open the edits.

A copy of a node is put in under an id that is drawn, and nothing checks whether that id is taken.
So `Change` has a parameter: whether the drawn ids are known to be new.
-/

namespace Parley

/-- Whether the arguments of an edit have the types that are declared for them.  A node that is
added has been validated, and a node is moved to a point.  Nothing is asked of the other arguments:
a value that does not fit is refused. -/
def Edit.Typed : Edit → Prop
  | .addNode n => (n.isEntry = true ∨ n.id ≠ "") ∧ ∃ p, n.position = .point p
  | .moveNode _ (.coordinates _) => True
  | .moveNode _ (.point _) => True
  | .moveNode _ _ => False
  | _ => True

/-- Whether an edit copies nodes: only then nodes are put in under drawn ids that nothing checks. -/
def Edit.Copies : Edit → Prop
  | .duplicate _ _ => True
  | _ => False

namespace Graph

/-- Whether the ids that an edit draws are new: no two are the same, and none is in the graph. -/
def DrawsNew (g : Graph) (s : IdSupply) (e : Edit) : Prop :=
  (s.drawnUntil (g.edit s e).supply).Nodup ∧
    ∀ id ∈ s.drawnUntil (g.edit s e).supply, id ∉ g.ids

instance (g : Graph) (s : IdSupply) (e : Edit) : Decidable (g.DrawsNew s e) :=
  inferInstanceAs (Decidable (_ ∧ _))

/-- One edit with arguments of the declared types, which may succeed or fail.  The supply of ids is
any one at each step. -/
def Step (g g' : Graph) : Prop := ∃ s e, e.Typed ∧ (g.edit s e).graph = g'

/-- A step whose drawn ids are new. -/
def NewStep (g g' : Graph) : Prop :=
  ∃ s e, e.Typed ∧ g.DrawsNew s e ∧ (g.edit s e).graph = g'

/-- Whether a graph is made of the empty one by some run of edits with new ids. -/
def Reached (g : Graph) : Prop := Relation.ReflTransGen NewStep Graph.empty g

/-- The graph after a row of edits, each of which draws where the one before it stopped. -/
def after (g : Graph) (s : IdSupply) : List Edit → Graph
  | [] => g
  | e :: rest => (g.edit s e).graph.after (g.edit s e).supply rest

/-- Whether each edit of a row has arguments of the declared types and draws new ids. -/
def RunsNew (g : Graph) (s : IdSupply) : List Edit → Prop
  | [] => True
  | e :: rest =>
    e.Typed ∧ g.DrawsNew s e ∧ (g.edit s e).graph.RunsNew (g.edit s e).supply rest

/-- An elementary change of a graph, where `new` tells that ids are drawn new. -/
inductive Change (new : Prop) (g : Graph) : Graph → Prop
  /-- A node with an id and a point is put in. -/
  | add (n : Node) (p : Position) (free : n.isEntry = false) (named : n.id ≠ "")
      (placed : n.position = .point p) (absent : new → n.id ∉ g.ids) : Change new g (g.put n)
  /-- A node is replaced by one of its kind, which has its place or is placed at a point. -/
  | set (id : String) (m n : Node) (there : g.node? id = some m) (free : m.isEntry = false)
      (same : n.id = m.id) (kind : n.kind = m.kind)
      (placed : n.position = m.position ∨ ∃ p, n.position = .point p) : Change new g (g.put n)
  /-- A node is deleted with the edges at it. -/
  | delete (id : String) (n : Node) (there : g.node? id = some n) (free : n.isEntry = false) :
      Change new g { g with
        nodes := g.nodes.filter (·.id != id)
        edges := g.edges.filter (!·.touches id) }
  /-- All but the entry is deleted. -/
  | reset (n : Node) (there : g.node? g.entryId = some n) (entry : n.isEntry = true) :
      Change new g { g with nodes := [n], edges := [] }
  /-- An edge with a new id is added, on an output that is free if it holds one edge only. -/
  | link (e : Edge) (fits : g.Fits e) (unknown : ∀ x ∈ g.edges, x.id ≠ e.id)
      (unused : Port.isSingle e.sourceHandle = true →
        g.edgesFrom e.source (some e.sourceHandle) = []) :
      Change new g { g with edges := g.edges ++ [e] }
  /-- The first edge with an id is removed. -/
  | unlink (id : String) : Change new g { g with edges := g.edges.eraseP (·.id == id) }

variable {new : Prop} {g g' : Graph} {n' : Node} {id : String} {s : IdSupply}

open Relation (ReflTransGen)

/-- Setting data keeps the id, the kind and the place of a node. -/
theorem Change.of_updateData {fields : Fields} (h : g.updateData id fields = .ok (g', n')) :
    Change new g g' := by
  obtain ⟨n, payload, found, free, updated, rfl, rfl⟩ := updateData_eq_ok h
  exact .set id n _ found free rfl (updatePayload_kind updated) (.inl rfl)

/-- Nodes with drawn ids are put in one by one.  The ids that are still to come stay new, since the
ones before them are different. -/
theorem changes_copies {copies : List Node} (named : ∀ c ∈ copies, c.id ≠ "")
    (sound : ∀ c ∈ copies, c.isEntry = false ∧ ∃ p, c.position = .point p)
    (fresh : new → (copies.map (·.id)).Nodup ∧ ∀ c ∈ copies, c.id ∉ g.ids) :
    ReflTransGen (Change new) g (copies.foldl put g) := by
  induction copies generalizing g with
  | nil => exact .refl
  | cons c rest ih =>
      obtain ⟨free, p, placed⟩ := sound c List.mem_cons_self
      have first : Change new g (g.put c) :=
        .add c p free (named c List.mem_cons_self) placed fun h =>
          (fresh h).2 c List.mem_cons_self
      refine .head first (ih ?_ ?_ ?_)
      · intro d member
        exact named d (List.mem_cons_of_mem _ member)
      · intro d member
        exact sound d (List.mem_cons_of_mem _ member)
      · intro h
        obtain ⟨distinct, absent⟩ := fresh h
        obtain ⟨other, distinct⟩ := List.nodup_cons.mp distinct
        refine ⟨distinct, fun d member there => ?_⟩
        rcases mem_ids_put.mp there with same | there
        · exact other (List.mem_map.mpr ⟨d, member, same⟩)
        · exact absent d (List.mem_cons_of_mem _ member) there

/-- An operation that is settled changes the graph only where it succeeds and answers one. -/
theorem settled_changes {α : Type} {r : Except Failure α} {answer : α → Option Graph × EditAnswer}
    (h : ∀ a g', r = .ok a → (answer a).1 = some g' → Change new g g') :
    ReflTransGen (Change new) g (g.settled s (r.map answer)).graph := by
  cases r with
  | error _ => exact .refl
  | ok a =>
      rcases answered : answer a with ⟨_ | g', _⟩
      · simp only [settled, Except.map, answered]
        exact .refl
      · simp only [settled, Except.map, answered]
        exact .single (h a g' rfl (by rw [answered]))

/-- An edit with arguments of the declared types is a row of elementary changes, whether or not it
succeeds.  What is drawn matters for copies only. -/
theorem edit_changes_of {e : Edit} (typed : e.Typed) (drawn : new → e.Copies → g.DrawsNew s e) :
    ReflTransGen (Change new) g (g.edit s e).graph := by
  cases e with
  | addNode n =>
      apply settled_changes
      rintro _ _ added ⟨⟩
      obtain ⟨absent, free, rfl⟩ := addNode_eq_ok.mp added
      obtain ⟨named, p, placed⟩ := typed
      exact .add n p free (named.resolve_left (by simp [free])) placed fun _ => absent
  | createNode kind place id =>
      apply settled_changes
      rintro ⟨_, n⟩ _ made ⟨⟩
      obtain ⟨free, -, named, ⟨p, placed⟩, absent, rfl⟩ := createNode_eq_ok made
      exact .add n p free named placed fun _ => absent
  | updateData id fields =>
      apply settled_changes
      rintro ⟨_, n⟩ _ updated ⟨⟩
      exact .of_updateData updated
  | moveNode id place =>
      apply settled_changes
      rintro _ _ moved ⟨⟩
      obtain ⟨n, position, found, free, settled, rfl⟩ := moveNode_eq_ok moved
      have placed : ∃ p, position = .point p := by
        cases place with
        | coordinates row =>
            obtain ⟨p, -, same⟩ := map_eq_ok.mp (settled (by simp))
            exact ⟨p, same.symm⟩
        | point p => exact ⟨p, (Except.ok.inj (settled (by simp))).symm⟩
        | omitted => exact typed.elim
        | value v => exact typed.elim
      exact .set id n _ found free rfl rfl (.inr placed)
  | deleteNode id =>
      apply settled_changes
      rintro ⟨_, removed⟩ _ deleted ⟨⟩
      obtain ⟨n, found, free, rfl, -⟩ := deleteNode_eq_ok deleted
      exact .delete id n found free
  | reset =>
      apply settled_changes
      rintro _ _ cleared ⟨⟩
      obtain ⟨n, found, isEntry, rfl⟩ := reset_eq_ok cleared
      exact .reset n found isEntry
  | duplicate ids offset =>
      obtain ⟨copies, result, inOrder, sound⟩ := duplicate_graph g ids offset s
      have final : (g.edit s (.duplicate ids offset)).graph = copies.foldl put g := result
      rw [final]
      have member (c : Node) (copy : c ∈ copies) :
          c.id ∈ s.drawnUntil (g.duplicate ids offset s).supply :=
        inOrder.subset (List.mem_map_of_mem copy)
      refine changes_copies (fun c copy => IdSupply.ne_of_mem_drawnUntil (member c copy)) sound ?_
      intro known
      obtain ⟨distinct, absent⟩ := drawn known trivial
      exact ⟨distinct.sublist inOrder, fun c copy => absent c.id (member c copy)⟩
  | syncPreferred id =>
      apply settled_changes
      rintro ⟨_, choice⟩ _ synced ⟨⟩
      obtain ⟨first, n, updated⟩ := syncPreferred_eq_ok synced
      exact .of_updateData updated
  | addExecutor id type value =>
      apply settled_changes
      rintro ⟨_, executor⟩ _ added ⟨⟩
      obtain ⟨d, -, -, set⟩ := addExecutor_eq_ok added
      obtain ⟨n, updated⟩ := setExecutors_eq_ok set
      exact .of_updateData updated
  | removeExecutor id index =>
      apply settled_changes
      rintro _ _ removed ⟨⟩
      obtain ⟨d, i, -, -, set⟩ := removeExecutor_eq_ok removed
      obtain ⟨n, updated⟩ := setExecutors_eq_ok set
      exact .of_updateData updated
  | connect source sourceHandle target targetHandle =>
      apply settled_changes
      rintro ⟨_, edge⟩ _ connected ⟨⟩
      obtain ⟨rfl, fits, unknown, unused, rfl⟩ := connect_eq_ok connected
      exact .link _ fits unknown unused
  | disconnect id =>
      unfold edit
      dsimp only
      split
      next g' removed =>
        rw [disconnect_eq_some removed]
        exact .single (.unlink id)
      next => exact .refl

theorem edit_changes {e : Edit} (typed : e.Typed) :
    ReflTransGen (Change (g.DrawsNew s e)) g (g.edit s e).graph :=
  edit_changes_of typed fun drawn _ => drawn

/-- What every change preserves is preserved by a row of changes. -/
theorem preserved_by_changes {P : Graph → Prop}
    (change : ∀ {g g'}, P g → Change new g g' → P g') (h : P g)
    (run : ReflTransGen (Change new) g g') : P g' := by
  induction run with
  | refl => exact h
  | tail _ step ih => exact change ih step

/-- What every change preserves, whether or not the drawn ids are new, is preserved by any run of
edits. -/
theorem preserved_by_steps {P : Graph → Prop}
    (change : ∀ {new : Prop} {g g'}, P g → Change new g g' → P g') (h : P g)
    (steps : ReflTransGen Step g g') : P g' := by
  induction steps with
  | refl => exact h
  | tail _ step ih =>
      obtain ⟨s, e, typed, rfl⟩ := step
      exact preserved_by_changes change ih (edit_changes typed)

/-- A row of edits with new ids leads from a graph that is reached to another one. -/
theorem Reached.after {edits : List Edit} (run : Reached g) (new : g.RunsNew s edits) :
    Reached (g.after s edits) := by
  induction edits generalizing g s with
  | nil => exact run
  | cons e rest ih =>
      obtain ⟨typed, drawn, new⟩ := new
      have step : NewStep g (g.edit s e).graph := ⟨s, e, typed, drawn, rfl⟩
      exact ih (run.tail step) new

/-- A run with new ids is a run. -/
theorem Reached.steps (run : Reached g) : ReflTransGen Step Graph.empty g := by
  have weaker : NewStep ≤ Step := fun _ _ ⟨s, e, typed, _, result⟩ => ⟨s, e, typed, result⟩
  exact ReflTransGen.mono weaker _ _ run

end Graph

end Parley
