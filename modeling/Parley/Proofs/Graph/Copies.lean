import Mathlib.Data.List.Forall2
import Parley.Proofs.Graph.Refusal
import Parley.Proofs.Graph.Sound

/-!
# Copying nodes

Copying looks up all nodes that it is given before it makes a copy, so that an id that is not known
leaves everything as it was.  Otherwise each copy is made from one node that is listed, in the order
of the list, under an id that is drawn.  As long as the ids that are drawn are new, putting the
copies in means putting them behind all other nodes, and nothing else changes.
-/

namespace Parley

/-- Whether a node is a copy of another one: it has the same data and is shifted on both axes. -/
structure Node.Copies (distance : Binary64) (source copy : Node) : Prop where
  payload : copy.payload = source.payload
  shifted : ∃ p, source.position = .point p ∧
    copy.position = .point ⟨p.x + distance, p.y + distance⟩

namespace Graph

variable {g : Graph} {s : IdSupply} {id context : String} {ids : List String} {offset : Json}
  {distance : Binary64}

/-- Nodes that are all there are looked up one after the other. -/
theorem mapM_require (known : ∀ id ∈ ids, id ∈ g.ids) :
    ids.mapM (g.require · context) = .ok (ids.filterMap g.node?) := by
  induction ids with
  | nil => rfl
  | cons id rest ih =>
      obtain ⟨here, others⟩ := List.forall_mem_cons.mp known
      obtain ⟨n, found⟩ : ∃ n, g.node? id = some n :=
        Option.ne_none_iff_exists'.mp fun missing => node?_eq_none.mp missing here
      rw [List.mapM_cons, require_eq_ok.mpr found, ih others, List.filterMap_cons, found]
      rfl

/-- Nodes that are looked up one after the other are not found if one of them is missing. -/
theorem mapM_require_missing (missing : ∃ id ∈ ids, id ∉ g.ids) :
    ∃ id ∈ ids, id ∉ g.ids ∧
      ids.mapM (g.require · context) = .error (.graph (.noNode id g.ids context)) := by
  induction ids with
  | nil =>
      obtain ⟨_, member, -⟩ := missing
      cases member
  | cons id rest ih =>
      cases found : g.node? id with
      | none =>
          refine ⟨id, List.mem_cons_self, node?_eq_none.mp found, ?_⟩
          rw [List.mapM_cons, require, found]
          rfl
      | some n =>
          have there : id ∈ g.ids := node?_id found ▸ id_mem (node?_mem found)
          obtain ⟨other, member, absent⟩ := missing
          have behind : other ∈ rest :=
            (List.mem_cons.mp member).resolve_left fun same => absent (same ▸ there)
          obtain ⟨other, member, absent, failed⟩ := ih ⟨other, behind, absent⟩
          refine ⟨other, List.mem_cons_of_mem _ member, absent, ?_⟩
          rw [List.mapM_cons, require_eq_ok.mpr found, failed]
          rfl

/-- Nodes with other ids are put in behind all others. -/
theorem foldl_put {copies : List Node} (distinct : (copies.map (·.id)).Nodup)
    (absent : ∀ c ∈ copies, c.id ∉ g.ids) :
    copies.foldl put g = { g with nodes := g.nodes ++ copies } := by
  induction copies generalizing g with
  | nil => simp
  | cons c rest ih =>
      obtain ⟨here, others⟩ := List.forall_mem_cons.mp absent
      obtain ⟨other, distinct⟩ := List.nodup_cons.mp distinct
      have first : g.put c = { g with nodes := g.nodes ++ [c] } := by
        simp [put, hasNode_eq_false.mpr here]
      have later (d : Node) (member : d ∈ rest) : d.id ∉ (g.put c).ids := by
        rw [mem_ids_put, not_or]
        exact ⟨fun same => other (List.mem_map.mpr ⟨d, member, same⟩), others d member⟩
      rw [List.foldl_cons, ih distinct later, first]
      simp

/-- Nodes with points are copied one by one, each by the same distance and under the next id that is
drawn. -/
theorem copyAll_copies (adds : amount offset = .ok distance) {ns : List Node}
    (placed : ∀ n ∈ ns, ∃ p, n.position = .point p) (s : IdSupply) :
    ∃ copies final, copyAll offset s ns = (copies, final, none) ∧
      List.Forall₂ (Node.Copies distance) ns copies ∧ copies.map (·.id) = s.drawnUntil final := by
  induction ns generalizing s with
  | nil => exact ⟨[], s, rfl, .nil, by simp [IdSupply.drawnUntil]⟩
  | cons n rest ih =>
      obtain ⟨⟨p, point⟩, others⟩ := List.forall_mem_cons.mp placed
      obtain ⟨copies, final, copied, alike, drawn⟩ := ih others s.advance
      have shifted : shiftPlace offset n.position =
          .ok (.point ⟨p.x + distance, p.y + distance⟩) := by
        rw [point, shiftPlace, shift, shift, adds]
        rfl
      have later : s.drawn < final.drawn := by
        have advanced := drawn_le_copyAll offset rest s.advance
        rw [copied] at advanced
        exact advanced
      refine ⟨{ n with id := s.next, position := .point ⟨p.x + distance, p.y + distance⟩ } ::
        copies, final, ?_, .cons ⟨rfl, p, point, rfl⟩ alike, ?_⟩
      · rw [copyAll, shifted]
        simp only [copied]
      · rw [List.map_cons, drawn, IdSupply.drawnUntil_advance later]

/-- Copying nodes only adds.  If one of the ids is not known, that is answered and nothing changes.
Otherwise the nodes that are listed and are no entry are copied in the order of the list, each by
the same distance and under a new id, and the copies, which are answered, come behind all other
nodes. -/
theorem duplicate_adds (reached : g.Reached) (adds : amount offset = .ok distance)
    (new : g.DrawsNew s (.duplicate ids offset)) :
    let result := g.edit s (.duplicate ids offset)
    ((∃ id ∈ ids, id ∉ g.ids) → ∃ id ∈ ids, id ∉ g.ids ∧
      result = ⟨g, s, false, .error (.graph (.noNode id g.ids "duplicate_nodes"))⟩) ∧
    ((∀ id ∈ ids, id ∈ g.ids) → ∃ copies,
      result.answer = .ok (.nodes copies) ∧
      result.graph = { g with nodes := g.nodes ++ copies } ∧
      List.Forall₂ (Node.Copies distance) ((ids.filterMap g.node?).filter (!·.isEntry)) copies ∧
      (copies.map (·.id)).Nodup ∧ (∀ c ∈ copies, c.id ∉ g.ids) ∧
      result.graph.nodes.filter Node.isEntry = [Node.entry]) := by
  intro result
  have sound := reached.sound
  have still : result.graph.Sound :=
    sound.changes new (edit_changes (e := .duplicate ids offset) trivial)
  refine ⟨fun missing => ?_, fun known => ?_⟩
  · obtain ⟨id, member, absent, failed⟩ := mapM_require_missing missing
    exact ⟨id, member, absent, duplicate_missing offset s failed⟩
  · have found : ids.mapM (g.require · "duplicate_nodes") = .ok (ids.filterMap g.node?) :=
      mapM_require known
    obtain ⟨copies, final, copied, alike, drawn⟩ :=
      copyAll_copies adds (placed_of_mapM sound.placed found) s
    have duplicated : result = ⟨copies.foldl put g, final, !copies.isEmpty, .ok (.nodes copies)⟩ :=
      duplicate_found found copied
    have ids : s.drawnUntil result.supply = copies.map (·.id) := by rw [duplicated, drawn]
    obtain ⟨distinct, fresh⟩ := new
    have distinct : (copies.map (·.id)).Nodup := ids ▸ distinct
    have absent : ∀ c ∈ copies, c.id ∉ g.ids := fun c member =>
      fresh c.id (ids ▸ List.mem_map_of_mem member)
    have behind : result.graph = { g with nodes := g.nodes ++ copies } := by
      rw [duplicated]
      exact foldl_put distinct absent
    exact ⟨copies, congrArg Edited.answer duplicated, behind, alike, distinct, absent, still.start⟩

/-- A result is copied twice, with the entry between the two.  Next to a node that is not there it
is not copied. -/
theorem duplicate_adds_of_repeated :
    let edits : List Edit := [
      .createNode (.str "result") .omitted (.str "hello"),
      .connect Node.entryId "initial_target" "hello" "node_trigger"]
    let g := Graph.empty.after (.countingFrom 0) edits
    let s : IdSupply := .countingFrom 7
    let distance := Binary64.ofDecimal false 10 0
    let copying : Edit := .duplicate ["hello", Node.entryId, "hello"] (.float distance)
    let astray : Edit := .duplicate ["hello", "leave"] (.float distance)
    let hello : Node := ⟨"hello", .point {}, .result {}⟩
    g.Reached ∧ g.DrawsNew s copying ∧ g.DrawsNew s astray ∧
      (g.edit s astray).graph = g ∧
      ∃ copies, (g.edit s copying).answer = .ok (.nodes copies) ∧
        (g.edit s copying).graph = { g with nodes := g.nodes ++ copies } ∧
        List.Forall₂ (Node.Copies distance) [hello, hello] copies ∧
        (copies.map (·.id)).Nodup ∧ (∀ c ∈ copies, c.id ∉ g.ids) ∧
        (g.edit s copying).graph.nodes.filter Node.isEntry = [Node.entry] := by
  intro edits g s distance copying astray hello
  have reached : g.Reached := by
    refine Reached.after .refl (s := .countingFrom 0) ⟨trivial, ?_, trivial, ?_, trivial⟩ <;> decide
  have draws : g.DrawsNew s copying := by decide
  have undrawn : g.DrawsNew s astray := by decide
  have listed : (["hello", Node.entryId, "hello"].filterMap g.node?).filter (!·.isEntry) =
      [hello, hello] := rfl
  obtain ⟨-, copied⟩ := duplicate_adds reached rfl draws
  obtain ⟨refused, -⟩ := duplicate_adds reached rfl undrawn
  obtain ⟨id, -, -, kept⟩ := refused ⟨"leave", by decide, by decide⟩
  obtain ⟨copies, answered, graph, alike, fresh⟩ := copied (by decide)
  rw [listed] at alike
  have unchanged : (g.edit s astray).graph = g := by rw [kept]
  exact ⟨reached, draws, undrawn, unchanged, copies, answered, graph, alike, fresh⟩

end Graph

end Parley
