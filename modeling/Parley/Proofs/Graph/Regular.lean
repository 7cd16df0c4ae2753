import Parley.Proofs.Graph.Change

/-!
# What editing keeps without conditions

A graph is regular if its ids and its edge ids are distinct, no id is empty, only the id of the
entry is used for an entry, and each edge runs from an output to the input that belongs to it.
Every change keeps this, also one that puts a copy on an id that was taken.  Compiling and loading
need no more: neither asks whether an edge joins existing nodes.
-/

namespace Parley

namespace Port

/-- The input that an output leads to. -/
def input : Port → Port
  | .resultActions => .actionOwner
  | _ => .nodeTrigger

theorem name_injective {p q : Port} (h : p.name = q.name) : p = q := by
  cases p <;> cases q <;> first | rfl | exact absurd h (by decide)

theorem targets_of_mem_outputs {kind : Kind} {output : Port} (member : output ∈ outputs kind) :
    output.targets = [output.input] := by
  cases kind <;> simp only [outputs, List.mem_cons, List.not_mem_nil, or_false] at member
  case conditional => rcases member with rfl | rfl <;> rfl
  all_goals rw [member]; rfl

/-- An output belongs to nodes of one kind. -/
theorem kind_unique {p : Port} {k l : Kind} (first : p ∈ outputs k) (second : p ∈ outputs l) :
    k = l := by
  revert first second
  cases p <;> cases k <;> cases l <;> decide

/-- Two ports match if the first is an output of its node, the second an input of its own, and the
output leads to that input. -/
theorem problem?_eq_none {source target : Kind} {sourceHandle targetHandle : String} :
    problem? source sourceHandle target targetHandle = none ↔
      ∃ output ∈ outputs source, output.name = sourceHandle ∧
        output.input ∈ inputs target ∧ output.input.name = targetHandle := by
  have known (output : Port) (found : (outputs source).find? (·.name == sourceHandle) =
      some output) : output ∈ outputs source ∧ output.name = sourceHandle :=
    ⟨List.mem_of_find?_eq_some found, by simpa using List.find?_some found⟩
  rw [problem?]
  cases found : (outputs source).find? (·.name == sourceHandle) with
  | none =>
      simp only [List.find?_eq_none, beq_iff_eq] at found
      simp only [reduceCtorEq, false_iff]
      rintro ⟨output, member, same, -⟩
      exact found output member same
  | some output =>
      obtain ⟨member, same⟩ := known output found
      simp only [targets_of_mem_outputs member, List.any_cons, List.any_nil, Bool.or_false]
      constructor
      · intro h
        split at h
        next => cases h
        next reached =>
          split at h
          next => cases h
          next matched =>
            obtain ⟨p, there, named⟩ : ∃ p ∈ inputs target, p.name = targetHandle := by
              simpa using reached
            have matched : output.input.name = targetHandle := by simpa using matched
            have whole : p = output.input := name_injective (named.trans matched.symm)
            exact ⟨output, member, same, whole ▸ there, matched⟩
      · rintro ⟨p, -, named, there, matched⟩
        obtain rfl : p = output := name_injective (named.trans same.symm)
        have reached : (inputs target).any (·.name == targetHandle) = true :=
          List.any_eq_true.mpr ⟨p.input, there, by simpa using matched⟩
        simp [reached, matched]

theorem isSingle_iff {handle : String} :
    isSingle handle = true ↔ ∃ port ∈ singles, port.name = handle := by
  simp [isSingle]

end Port

namespace Graph

/-- What editing keeps in any graph, whatever the ids that are drawn. -/
structure Regular (g : Graph) : Prop where
  distinct : g.ids.Nodup
  named : ∀ n ∈ g.nodes, n.id ≠ ""
  /-- An entry has the id of the entry; it may be missing. -/
  entry : ∀ n ∈ g.nodes, n.isEntry = true → n.id = Node.entryId
  /-- An edge runs from an output to its input. -/
  ported : ∀ e ∈ g.edges, ∃ output : Port, e = Edge.join e.source output e.target output.input
  edgesDistinct : (g.edges.map (·.id)).Nodup

variable {new : Prop} {g g' : Graph} {n : Node} {e : Edge}

open Relation (ReflTransGen)

/-- Whether an edge joins existing nodes on matching ports. -/
def Matched (g : Graph) (e : Edge) : Prop :=
  ∃ source target, g.node? e.source = some source ∧ g.node? e.target = some target ∧
    Port.problem? source.kind e.sourceHandle target.kind e.targetHandle = none

theorem edgeViolations_eq_nil (position : Nat) :
    g.edgeViolations position e = [] ↔ g.Matched e := by
  rw [edgeViolations, Matched]
  cases g.node? e.source with
  | none => cases g.node? e.target <;> simp
  | some source =>
      cases g.node? e.target with
      | none => simp
      | some target =>
          cases problem : Port.problem? source.kind e.sourceHandle target.kind e.targetHandle <;>
            simp [problem]

/-- Nothing is reported of a graph in which all edges match. -/
theorem violations_eq_nil_iff : g.violations = [] ↔ ∀ e ∈ g.edges, g.Matched e := by
  rw [violations, List.flatMap_eq_nil_iff]
  constructor
  · intro none e member
    obtain ⟨position, found⟩ := List.mem_iff_getElem?.mp member
    exact (edgeViolations_eq_nil position).mp
      (none (e, position) (List.mk_mem_zipIdx_iff_getElem?.mpr found))
  · rintro matched ⟨e, position⟩ member
    exact (edgeViolations_eq_nil position).mpr (matched e (List.fst_mem_of_mem_zipIdx member))

/-- An edge that fits runs from an output of its source to the input of that output. -/
theorem Fits.ported (fits : g.Fits e) :
    ∃ output : Port, e = Edge.join e.source output e.target output.input := by
  obtain ⟨⟨source, target, -, -, legal⟩, -, named⟩ := fits
  obtain ⟨output, -, leaves, -, reaches⟩ := Port.problem?_eq_none.mp legal
  refine ⟨output, ?_⟩
  rw [Edge.join, leaves, reaches, Edge.make, ← named]

namespace Regular

theorem empty : Graph.empty.Regular where
  distinct := List.nodup_singleton _
  named := by decide
  entry := by decide
  ported := by simp [Graph.empty]
  edgesDistinct := List.nodup_nil

theorem put (h : g.Regular) (named : n.id ≠ "")
    (entry : n.isEntry = true → n.id = Node.entryId) : (g.put n).Regular where
  distinct := ids_put_nodup h.distinct n
  named m member := by
    rcases mem_put.mp member with rfl | ⟨member, -⟩
    · exact named
    · exact h.named m member
  entry m member := by
    rcases mem_put.mp member with rfl | ⟨member, -⟩
    · exact entry
    · exact h.entry m member
  ported := by simpa using h.ported
  edgesDistinct := by simpa using h.edgesDistinct

/-- Nodes and edges may be left out. -/
theorem sublist (h : g.Regular) {nodes : List Node} {edges : List Edge}
    (fewer : nodes.Sublist g.nodes) (less : edges.Sublist g.edges) :
    ({ g with nodes, edges } : Graph).Regular where
  distinct := h.distinct.sublist (fewer.map _)
  named n member := h.named n (fewer.subset member)
  entry n member := h.entry n (fewer.subset member)
  ported e member := h.ported e (less.subset member)
  edgesDistinct := h.edgesDistinct.sublist (less.map _)

/-- An elementary change keeps a graph regular. -/
theorem change (h : g.Regular) (step : Change new g g') : g'.Regular := by
  cases step with
  | add n p free named placed absent =>
      exact h.put named fun isEntry => absurd isEntry (by simp [free])
  | set id m n there free same kind placed =>
      have notEntry : n.isEntry = false := by simpa [Node.isEntry, kind] using free
      exact h.put (same ▸ h.named m (node?_mem there)) fun isEntry =>
        absurd isEntry (by simp [notEntry])
  | delete id n there free => exact h.sublist List.filter_sublist List.filter_sublist
  | reset n there isEntry =>
      exact h.sublist (List.singleton_sublist.mpr (node?_mem there)) (List.nil_sublist _)
  | link e fits unknown unused =>
      refine ⟨h.distinct, h.named, h.entry, fun x member => ?_, ?_⟩
      · rcases List.mem_append.mp member with member | member
        · exact h.ported x member
        · exact List.mem_singleton.mp member ▸ fits.ported
      · rw [List.map_append, List.map_singleton, ← List.concat_eq_append]
        exact h.edgesDistinct.concat (by simpa using unknown)
  | unlink id => exact h.sublist (List.Sublist.refl _) List.eraseP_sublist

/-- Any run of edits keeps a graph regular, whether or not they succeed. -/
theorem run (h : g.Regular) (steps : ReflTransGen Step g g') : g'.Regular :=
  preserved_by_steps (P := Regular) change h steps

end Regular

end Graph

end Parley
