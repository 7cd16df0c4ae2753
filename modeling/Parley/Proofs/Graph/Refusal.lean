import Mathlib.Algebra.Group.Int.Defs
import Parley.Graph.Session
import Parley.Proofs.Graph.Entered

/-!
# Edits that fail

An edit that fails leaves the graph as it was and is not reported as a change, so that a session
saves nothing either.  Nearly all edits make their checks before they touch the graph.  Copying
nodes is the exception: it puts copies in one by one, and each is shifted as it is made.  But a node
of a graph that is edited has a point, and an offset that shifts one point shifts them all; so
copying fails at the first node, if it fails.
-/

namespace Parley

namespace Graph

/-- Whether every node has a point. -/
def Placed (g : Graph) : Prop := ∀ n ∈ g.nodes, ∃ p, n.position = .point p

variable {new : Prop} {g g' : Graph} {n : Node} {s : IdSupply} {e : Edit} {offset : Json}
  {f : Failure}

open Relation (ReflTransGen)

namespace Placed

theorem put (h : g.Placed) (placed : ∃ p, n.position = .point p) : (g.put n).Placed := by
  intro m member
  rcases mem_put.mp member with rfl | ⟨member, -⟩
  · exact placed
  · exact h m member

/-- Every change leaves nodes at points. -/
theorem change (h : g.Placed) (step : Change new g g') : g'.Placed := by
  cases step with
  | add n p free named placed absent => exact h.put ⟨p, placed⟩
  | set id m n there free same kind placed =>
      refine h.put ?_
      rcases placed with kept | placed
      · exact kept ▸ h m (node?_mem there)
      · exact placed
  | delete id n there free => exact fun m member => h m (List.mem_of_mem_filter member)
  | reset n there isEntry =>
      intro m member
      rw [List.mem_singleton.mp member]
      exact h n (node?_mem there)
  | link e fits unknown unused => exact h
  | unlink id => exact h

/-- An edit leaves nodes at points, whether or not it succeeds. -/
theorem edit (h : g.Placed) (typed : e.Typed) (s : IdSupply) : (g.edit s e).graph.Placed :=
  preserved_by_changes (P := Placed) change h (edit_changes typed)

/-- Any run of edits leaves nodes at points. -/
theorem run (h : g.Placed) (steps : ReflTransGen Step g g') : g'.Placed :=
  preserved_by_steps (P := Placed) change h steps

end Placed

section Copies

/-- Whether a coordinate can be shifted is a matter of the offset. -/
theorem shift_of_shift {x z : Binary64} (shifted : shift x offset = .ok z) (y : Binary64) :
    ∃ w, shift y offset = .ok w := by
  obtain ⟨added, known, -⟩ := map_eq_ok.mp shifted
  exact ⟨y + added, map_eq_ok.mpr ⟨added, known, rfl⟩⟩

/-- An offset that shifts one point shifts every point. -/
theorem shiftPlace_of_shiftPlace {p : Position} {place : Placement}
    (shifted : shiftPlace offset (.point p) = .ok place) (q : Position) :
    ∃ other, shiftPlace offset (.point q) = .ok other := by
  obtain ⟨x, across, -⟩ := bind_eq_ok.mp shifted
  obtain ⟨x', across'⟩ := shift_of_shift across q.x
  obtain ⟨y', along'⟩ := shift_of_shift across q.y
  exact ⟨_, bind_eq_ok.mpr ⟨x', across', bind_eq_ok.mpr ⟨y', along', rfl⟩⟩⟩

/-- If an offset shifts points, nodes with points are copied without a failure. -/
theorem copyAll_succeeds {ns : List Node} (placed : ∀ n ∈ ns, ∃ p, n.position = .point p)
    (shifts : ∀ p, ∃ place, shiftPlace offset (.point p) = .ok place) (s : IdSupply) :
    (copyAll offset s ns).2.2 = none := by
  induction ns generalizing s with
  | nil => rfl
  | cons n rest ih =>
      obtain ⟨⟨p, point⟩, others⟩ := List.forall_mem_cons.mp placed
      obtain ⟨place, shifted⟩ := shifts p
      simp only [copyAll, point, shifted]
      exact ih others s.advance

/-- Copying nodes with points fails before the first copy, if it fails. -/
theorem copyAll_refused {ns : List Node} (placed : ∀ n ∈ ns, ∃ p, n.position = .point p)
    (refused : (copyAll offset s ns).2.2 = some f) : (copyAll offset s ns).1 = [] := by
  cases ns with
  | nil => rfl
  | cons n rest =>
      obtain ⟨⟨p, point⟩, others⟩ := List.forall_mem_cons.mp placed
      unfold copyAll at refused ⊢
      split at refused
      next => rfl
      next _ shifted =>
        have shifts := shiftPlace_of_shiftPlace (point ▸ shifted)
        have succeeds := copyAll_succeeds others shifts s.advance
        exact absurd (succeeds.symm.trans refused) (by simp)

/-- The nodes to be copied are nodes of the graph. -/
theorem placed_of_mapM {ids : List String} {context : String} {sources : List Node}
    (placed : g.Placed) (found : ids.mapM (g.require · context) = .ok sources) :
    ∀ n ∈ sources.filter (!·.isEntry), ∃ p, n.position = .point p := by
  intro n member
  obtain ⟨id, -, there⟩ := exists_of_mem_mapM found n (List.mem_of_mem_filter member)
  exact placed n (node?_mem (require_eq_ok.mp there))

theorem duplicate_missing {ids : List String} (offset : Json) (s : IdSupply)
    (missing : ids.mapM (g.require · "duplicate_nodes") = .error f) :
    g.duplicate ids offset s = ⟨g, s, false, .error f⟩ := by
  rw [duplicate, missing]

/-- If all nodes are there, copying puts in the copies that are made before a failure. -/
theorem duplicate_found {ids : List String} {sources copies : List Node} {final : IdSupply}
    {failure : Option Failure}
    (found : ids.mapM (g.require · "duplicate_nodes") = .ok sources)
    (copied : copyAll offset s (sources.filter (!·.isEntry)) = (copies, final, failure)) :
    g.duplicate ids offset s = ⟨copies.foldl put g, final, failure.isNone && !copies.isEmpty,
      failure.elim (.ok (.nodes copies)) .error⟩ := by
  rw [duplicate, found]
  simp only [copied]
  cases failure <;> rfl

theorem duplicate_refused {ids : List String} (placed : g.Placed)
    (refused : (g.duplicate ids offset s).answer = .error f) :
    (g.duplicate ids offset s).graph = g ∧ (g.duplicate ids offset s).changed = false := by
  cases found : ids.mapM (g.require · "duplicate_nodes") with
  | error missing =>
      rw [duplicate_missing offset s found]
      exact ⟨rfl, rfl⟩
  | ok sources =>
      rcases copied : copyAll offset s (sources.filter (!·.isEntry)) with ⟨copies, final, failure⟩
      rw [duplicate_found found copied] at refused ⊢
      cases failure with
      | none => cases refused
      | some cause =>
          have early := copyAll_refused (placed_of_mapM placed found) (congrArg (·.2.2) copied)
          have none : copies = [] := (congrArg (·.1) copied).symm.trans early
          rw [none]
          exact ⟨rfl, rfl⟩

end Copies

/-- An edit that makes all its checks first leaves everything as it was if it fails. -/
theorem settled_refused {r : Except Failure (Option Graph × EditAnswer)}
    (refused : (g.settled s r).answer = .error f) :
    (g.settled s r).graph = g ∧ (g.settled s r).changed = false := by
  match r with
  | .error _ => exact ⟨rfl, rfl⟩
  | .ok (none, _) => cases refused
  | .ok (some _, _) => cases refused

/-- An edit that fails leaves a graph whose nodes have points as it was, and is no change. -/
theorem edit_refused (placed : g.Placed) (refused : (g.edit s e).answer = .error f) :
    (g.edit s e).graph = g ∧ (g.edit s e).changed = false := by
  cases e with
  | duplicate ids offset => exact duplicate_refused placed refused
  | disconnect id =>
      unfold edit at refused
      dsimp only at refused
      split at refused <;> cases refused
  | _ => exact settled_refused refused

/-- Whether a graph is the empty one or was read from a stored form. -/
def Opened (g : Graph) : Prop := g = empty ∨ ∃ v, ofJson v = .ok g

theorem Opened.entered (opened : g.Opened) : g.Entered := by
  rcases opened with rfl | ⟨v, read⟩
  · exact Sound.empty.entered
  · exact entered_of_ofJson read

end Graph

open Parley.Graph Relation in
/-- Whatever edits a graph has been through, and whatever the arguments of the next one: if that one
fails, the nodes and edges are exactly what they were, and no change is reported.  A session then
answers the failure and keeps its graph, its store and its number of changes; ids that were drawn
stay drawn. -/
theorem failed_edit_keeps {g₀ : Graph} {session : Session} {e : Edit} {f : Failure}
    (opened : g₀.Opened) (steps : ReflTransGen Graph.Step g₀ session.graph)
    (failed : (session.graph.edit session.supply e).answer = .error f) :
    (session.graph.edit session.supply e).graph = session.graph ∧
      (session.graph.edit session.supply e).changed = false ∧
      session.edit e =
        ({ session with supply := (session.graph.edit session.supply e).supply }, .error f) := by
  have placed : session.graph.Placed := Placed.run opened.entered.placed steps
  obtain ⟨kept, silent⟩ := edit_refused placed failed
  refine ⟨kept, silent, ?_⟩
  simp only [Session.edit, silent, kept, failed]
  rfl

/-- A stored graph with an action is read, a result is added, and both are to be copied by an offset
that is beyond the binary numbers. -/
theorem failed_edit_keeps_of_offset :
    let stored : Json := .obj [("nodes", .arr [
      .obj [("type", .str "action"), ("id", .str "leave")]])]
    let leave : Node := ⟨"leave", .point {}, .action {}⟩
    let hello : Node := ⟨"hello", .point {}, .result {}⟩
    let opened : Graph := ⟨[.entry, leave], [], Node.entryId⟩
    let session : Session :=
      { graph := ⟨[.entry, leave, hello], [], Node.entryId⟩
        supply := .countingFrom 0
        store := some (.memory none 0) }
    let far : Int := 10 ^ 400
    let copy : Edit := .duplicate ["leave", "hello"] (.int far)
    Graph.ofJson stored = .ok opened ∧ Graph.Step opened session.graph ∧
      (session.graph.edit session.supply copy).answer = .error .tooLarge ∧
      (session.graph.edit session.supply copy).graph = session.graph ∧
      (session.graph.edit session.supply copy).changed = false ∧
      (session.edit copy).1.store = some (.memory none 0) := by
  intro stored leave hello opened session far copy
  have read : Graph.ofJson stored = .ok opened := rfl
  have step : Graph.Step opened session.graph :=
    ⟨session.supply, .createNode (.str "result") .omitted (.str "hello"), trivial, rfl⟩
  have refused : (session.graph.edit session.supply copy).answer = .error .tooLarge := by
    have beyond : Binary64.ofInt? far = none := by decide +kernel
    have shifted : Graph.shiftPlace (.int far) (.point {}) = .error .tooLarge := by
      simp only [Graph.shiftPlace, Graph.shift, Graph.amount, beyond]
      rfl
    have sources : ["leave", "hello"].mapM (session.graph.require · "duplicate_nodes") =
        .ok [leave, hello] := rfl
    have copied : Graph.copyAll (.int far) session.supply [leave, hello] =
        ([], session.supply.advance, some .tooLarge) := by
      rw [Graph.copyAll, shifted]
    have free : [leave, hello].filter (!·.isEntry) = [leave, hello] := rfl
    rw [Graph.edit, Graph.duplicate, sources]
    simp only [free, copied]
  obtain ⟨kept, silent, answered⟩ := failed_edit_keeps (.inr ⟨stored, read⟩) (.single step) refused
  exact ⟨read, step, refused, kept, silent, congrArg (·.1.store) answered⟩

end Parley
