import Parley.Proofs.Document.Rows

/-!
# What compiling looks at

Of the edges the compiler looks only at those that leave the outputs of nodes: at the first one
where an output holds one edge, and at where all of them lead, in their order, where a result offers
actions.  How the edges of different nodes are mixed makes no difference.  Where all nodes have
points and the id of the character is a text, it makes no difference either that these values come
unread.
-/

namespace Parley

namespace Compile

variable {nodes : List Node} {edges edges' : List Edge}

theorem first?_eq_find? (edges : List Edge) (source : String) (port : Port) :
    first? edges source port = ((edges.filter (·.source == source)).find?
      (·.sourceHandle == port.name)).map (·.target) := by
  rw [first?, List.find?_filter]
  congr 2
  funext e
  rw [Bool.decide_and, Bool.decide_eq_true, Bool.decide_eq_true]

theorem all_eq_filter (edges : List Edge) (source : String) (port : Port) :
    all edges source port = ((edges.filter (·.source == source)).filter
      (·.sourceHandle == port.name)).map (·.target) := by
  simp [all, List.filter_filter, Bool.and_comm]

/-- Whether two lists of edges lead to the same, from the outputs of some nodes: the first edges of
outputs that hold one edge, and all edges by which results offer actions. -/
structure Agree (nodes : List Node) (edges edges' : List Edge) : Prop where
  single : ∀ n ∈ nodes, ∀ port ∈ Port.outputs n.kind, port ∈ Port.singles →
    first? edges n.id port = first? edges' n.id port
  offers : ∀ n ∈ nodes, n.kind = .result →
    all edges n.id .resultActions = all edges' n.id .resultActions

namespace Survey

variable {ids : List String}
  (same : ∀ id ∈ ids, ∀ kept, flaw? nodes edges kept id = flaw? nodes edges' kept id)

include same

theorem pass_congr (s : Survey) : pass nodes edges ids s = pass nodes edges' ids s := by
  refine List.foldl_ext _ _ _ fun s id member => ?_
  rw [visit, visit, same id member]

theorem settle_congr (s : Survey) : settle nodes edges ids s = settle nodes edges' ids s := by
  fun_induction Survey.settle nodes edges ids s with
  | case1 s next fewer ih =>
      rw [settle.eq_def nodes edges', ← pass_congr same]
      exact ih.trans (if_pos fewer).symm
  | case2 s next done =>
      rw [settle.eq_def nodes edges', ← pass_congr same]
      exact (if_neg done).symm

end Survey

namespace Agree

variable (agree : Agree nodes edges edges') {n : Node} (member : n ∈ nodes)

include agree

theorem ofGraph_eq : Survey.ofGraph nodes edges = Survey.ofGraph nodes edges' := by
  refine Survey.settle_congr (fun id (listed : id ∈ conditionals nodes) kept => ?_) _
  obtain ⟨n, member, rfl, kind⟩ := mem_conditionals.mp listed
  have branch (port : Port) (output : port ∈ Port.outputs .conditional)
      (single : port ∈ Port.singles) :
      branchFlaw? nodes edges kept n.id port = branchFlaw? nodes edges' kept n.id port := by
    rw [branchFlaw?, branchFlaw?, agree.single n member port (kind ▸ output) single]
  rw [flaw?, flaw?, branch .conditionTrue (by decide) (by decide),
    branch .conditionFalse (by decide) (by decide)]

theorem initial_eq (kept : List String) :
    initial nodes edges kept = initial nodes edges' kept := by
  rw [initial, initial]
  cases found : nodes.find? Node.isEntry with
  | none => rfl
  | some entry =>
      have kind : entry.kind = .entry := by simpa [Node.isEntry] using List.find?_some found
      have led := agree.single entry (List.mem_of_find?_eq_some found) .initialTarget
        (kind ▸ by decide) (by decide)
      simp only [led]

include member

theorem actionResult_eq (kind : n.kind = .action) :
    first? edges n.id .actionResult = first? edges' n.id .actionResult :=
  agree.single n member .actionResult (kind ▸ by decide) (by decide)

theorem branch_eq (kind : n.kind = .conditional) (port : Port)
    (output : port ∈ Port.outputs .conditional) :
    first? edges n.id port = first? edges' n.id port := by
  refine agree.single n member port (kind ▸ output) ?_
  revert output
  cases port <;> decide

theorem actionRow?_eq (kept : List String) :
    actionRow? nodes edges kept n = actionRow? nodes edges' kept n := by
  rw [actionRow?, actionRow?]
  cases data : n.payload with
  | action d =>
      have led := agree.actionResult_eq member (Node.kind_eq_action.mpr ⟨d, data⟩)
      simp only [actionRow, led]
  | _ => rfl

theorem resultRow?_eq : resultRow? nodes edges n = resultRow? nodes edges' n := by
  rw [resultRow?, resultRow?]
  cases data : n.payload with
  | result d =>
      have offers := agree.offers n member (Node.kind_eq_result.mpr ⟨d, data⟩)
      simp only [resultRow, offered, offers]
  | _ => rfl

theorem keptRow?_eq (s : Survey) : keptRow? nodes edges s n = keptRow? nodes edges' s n := by
  rw [keptRow?, keptRow?]
  cases data : n.payload with
  | conditional d =>
      have kind := Node.kind_eq_conditional.mpr ⟨d, data⟩
      simp only [conditionRow?, agree.branch_eq member kind .conditionTrue (by decide),
        agree.branch_eq member kind .conditionFalse (by decide)]
  | _ => rfl

theorem actionWarnings_eq (kind : n.kind = .action) (kept : List String) :
    actionWarnings nodes edges kept n = actionWarnings nodes edges' kept n := by
  rw [actionWarnings, actionWarnings, agree.actionResult_eq member kind]

theorem resultWarnings_eq (kind : n.kind = .result) :
    resultWarnings nodes edges n = resultWarnings nodes edges' n := by
  rw [resultWarnings, resultWarnings, agree.offers n member kind]

omit member

theorem warnings_eq (s : Survey) : warnings nodes edges s = warnings nodes edges' s := by
  rw [warnings, warnings]
  congr 2
  · refine List.flatMap_congr fun n there => ?_
    obtain ⟨member, kind⟩ := List.mem_filter.mp there
    exact agree.actionWarnings_eq member (beq_iff_eq.mp kind) s.kept
  · refine List.flatMap_congr fun n there => ?_
    obtain ⟨member, kind⟩ := List.mem_filter.mp there
    exact agree.resultWarnings_eq member (beq_iff_eq.mp kind)

end Agree

theorem misplaced?_eq_none {nodes : List Node} (placed : ∀ n ∈ nodes, ∃ p, n.position = .point p)
    (s : Survey) : misplaced? nodes s = none := by
  have faultless (name : String) (n : Node) (member : n ∈ nodes) : placeFault? name n = none := by
    obtain ⟨p, point⟩ := placed n member
    simp [placeFault?, point, Placement.toPosition, Checked.under]
  have none (name : String) (p : Node → Bool) :
      (nodes.filter p).findSome? (placeFault? name) = none :=
    List.findSome?_eq_none_iff.mpr fun n member => faultless name n (List.mem_filter.mp member).1
  simp [misplaced?, none]

end Compile

open Compile

/-- Compiling looks at where edges lead from the outputs of the nodes, and at nothing else of the
edges. -/
theorem compile_eq_of_agree {nodes : List Node} {edges edges' : List Edge}
    (agree : Agree nodes edges edges') (npc : String) (interaction : Option Interaction) :
    compile nodes edges npc interaction = compile nodes edges' npc interaction := by
  have actions (kept : List String) :
      actionRows nodes edges kept = actionRows nodes edges' kept :=
    List.filterMap_congr fun n member => agree.actionRow?_eq member kept
  have results : resultRows nodes edges = resultRows nodes edges' :=
    List.filterMap_congr fun n member => agree.resultRow?_eq member
  have conditions (s : Survey) : conditionRows nodes edges s = conditionRows nodes edges' s :=
    List.filterMap_congr fun n member => agree.keptRow?_eq member s
  simp only [compile, agree.ofGraph_eq, agree.initial_eq, actions, results, conditions,
    agree.warnings_eq]

/-- Compiling looks at the edges that leave each node, in their order, and at nothing else of the
edges. -/
theorem compile_congr {nodes : List Node} {edges edges' : List Edge}
    (same : ∀ id, edges.filter (·.source == id) = edges'.filter (·.source == id)) (npc : String)
    (interaction : Option Interaction) :
    compile nodes edges npc interaction = compile nodes edges' npc interaction := by
  refine compile_eq_of_agree ⟨fun n _ port _ _ => ?_, fun n _ _ => ?_⟩ npc interaction
  · rw [first?_eq_find?, first?_eq_find?, same]
  · rw [all_eq_filter, all_eq_filter, same]

/-- Nodes with points are compiled for a text as they are for a value that has not been read. -/
theorem compileUnread_str {nodes : List Node} {edges : List Edge}
    (placed : ∀ n ∈ nodes, ∃ p, n.position = .point p) (npc : String)
    (interaction : Option Interaction) :
    compileUnread nodes edges (.str npc) interaction =
      .ok (compile nodes edges npc interaction) := by
  rw [compileUnread, compile, compile, misplaced?_eq_none placed]
  dsimp only
  cases initial nodes edges (Survey.ofGraph nodes edges).kept with
  | error reason => rfl
  | ok r => rfl

end Parley
