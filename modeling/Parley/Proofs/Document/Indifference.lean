import Parley.Proofs.Document.Exportable
import Parley.Proofs.Document.Outgoing

/-!
# What compiling is indifferent to

Two lists of edges that lead to the same from the outputs of the nodes compile to the same outcome,
whatever ids and inputs the edges have, however they are mixed and whatever further edges leave an
output that holds one.

The order of the nodes is the order of the rows and nothing else.  An id names the same node in any
order, and what is kept is the greatest set of conditionals that supports itself, which knows no
order.  Only the reason for which a conditional is dropped may be another one: of two branches
without a row the one is named that is found first, and that depends on which conditionals have been
dropped by then.
-/

namespace Parley

/-- What a check is about: its name and the node that it is pinned to. -/
def Check.subject (c : Check) : String × Option String := (c.name, c.node)

/-- Whether two outcomes differ only in the order of rows and warnings and in what the warnings
say. -/
inductive Outcome.Alike : Outcome → Outcome → Prop
  | empty (reason : Compile.EmptyReason) : Alike (.empty reason) (.empty reason)
  | compiled {d d' : Document} {ws ws' : List Check} (npc : d.npc = d'.npc)
      (interaction : d.interaction = d'.interaction) (initial : d.initial = d'.initial)
      (actions : d.actions.Perm d'.actions) (results : d.results.Perm d'.results)
      (conditions : d.conditions.Perm d'.conditions)
      (warnings : (ws.map Check.subject).Perm (ws'.map Check.subject)) :
      Alike (.compiled d ws) (.compiled d' ws')

/-- If at most one item has a property, it is found in any order of the items. -/
theorem find?_eq_of_perm {α : Type} {l l' : List α} {p : α → Bool}
    (single : (l.filter p).length ≤ 1) (same : l.Perm l') : l.find? p = l'.find? p := by
  have picked := same.filter p
  rw [← List.head?_filter, ← List.head?_filter]
  match all : l.filter p with
  | [] =>
      rw [all] at picked
      rw [picked.nil_eq]
  | [a] =>
      rw [all] at picked
      rw [List.singleton_perm.mp picked]
  | a :: b :: rest => simp [all] at single

namespace Compile

section Order

variable {nodes nodes' : List Node} {edges : List Edge}
  (distinct : (nodes.map (·.id)).Nodup) (same : nodes.Perm nodes')

include distinct same

/-- An id names a node of the same kind in any order of the nodes. -/
theorem kind?_perm : kind? nodes = kind? nodes' := by
  funext id
  have distinct' := (same.map (·.id)).nodup_iff.mp distinct
  ext kind
  simp only [kind?_eq_some distinct, kind?_eq_some distinct', same.mem_iff]

/-- The same references can be made in any order of the nodes. -/
theorem ref?_perm : ref? nodes (Survey.ofGraph nodes edges).kept =
    ref? nodes' (Survey.ofGraph nodes' edges).kept := by
  funext place
  ext r
  simp only [ref?_eq_some, kind?_perm distinct same, mem_kept_perm distinct same]

theorem leadsToAction_perm : leadsToAction nodes = leadsToAction nodes' := by
  funext id
  rw [leadsToAction, leadsToAction, kind?_perm distinct same]

theorem actionRows_perm :
    (actionRows nodes edges (Survey.ofGraph nodes edges).kept).Perm
      (actionRows nodes' edges (Survey.ofGraph nodes' edges).kept) := by
  have row : actionRow? nodes edges (Survey.ofGraph nodes edges).kept =
      actionRow? nodes' edges (Survey.ofGraph nodes' edges).kept := by
    funext n
    simp only [actionRow?, actionRow, ref?_perm distinct same]
  rw [actionRows_eq, actionRows_eq, row]
  exact same.filterMap _

theorem resultRows_perm : (resultRows nodes edges).Perm (resultRows nodes' edges) := by
  have row : resultRow? nodes edges = resultRow? nodes' edges := by
    funext n
    simp only [resultRow?, resultRow, offered, leadsToAction_perm distinct same]
  rw [resultRows_eq, resultRows_eq, row]
  exact same.filterMap _

theorem conditionRows_perm :
    (conditionRows nodes edges (Survey.ofGraph nodes edges)).Perm
      (conditionRows nodes' edges (Survey.ofGraph nodes' edges)) := by
  have row (n : Node) (member : n ∈ nodes) : keptRow? nodes edges (Survey.ofGraph nodes edges) n =
      keptRow? nodes' edges (Survey.ofGraph nodes' edges) n := by
    ext r
    simp only [keptRow?_eq_some member, keptRow?_eq_some (same.mem_iff.mp member),
      conditionRow?_eq_some, ref?_perm distinct same, mem_kept_perm distinct same]
  rw [conditionRows_eq, conditionRows_eq, List.filterMap_congr row]
  exact same.filterMap _

/-- The subject of what is said about a conditional depends on whether it is kept, and its reason
does not. -/
theorem subject_conditionWarnings {n : Node} (member : n ∈ nodes) (kind : n.kind = .conditional) :
    (conditionWarnings (Survey.ofGraph nodes edges).dropped n).map Check.subject =
      (conditionWarnings (Survey.ofGraph nodes' edges).dropped n).map Check.subject := by
  have dropped := dropped_isSome edges member kind
  have dropped' := dropped_isSome edges (same.mem_iff.mp member) kind
  rw [mem_kept_perm distinct same, ← dropped, ← Bool.eq_iff_iff] at dropped'
  obtain ⟨message, warned⟩ := conditionWarnings_eq (Survey.ofGraph nodes edges).dropped n
  obtain ⟨message', warned'⟩ := conditionWarnings_eq (Survey.ofGraph nodes' edges).dropped n
  rw [warned, warned', dropped']
  split <;> rfl

theorem warnings_perm :
    ((warnings nodes edges (Survey.ofGraph nodes edges)).map Check.subject).Perm
      ((warnings nodes' edges (Survey.ofGraph nodes' edges)).map Check.subject) := by
  simp only [warnings, List.map_append, List.map_flatMap]
  refine ((List.Perm.flatMap (same.filter _) fun n _ => ?_).append
    (List.Perm.flatMap (same.filter _) fun n _ => ?_)).append
    (List.Perm.flatMap (same.filter _) fun n there => ?_)
  · rw [actionWarnings, actionWarnings, ref?_perm distinct same]
  · rw [resultWarnings, resultWarnings, leadsToAction_perm distinct same]
  · obtain ⟨member, kind⟩ := List.mem_filter.mp there
    rw [subject_conditionWarnings distinct same member (beq_iff_eq.mp kind)]

/-- The dialogue begins at the same place in any order of the nodes, if there is one entry. -/
theorem initial_perm (single : (nodes.filter Node.isEntry).length ≤ 1) :
    initial nodes edges (Survey.ofGraph nodes edges).kept =
      initial nodes' edges (Survey.ofGraph nodes' edges).kept := by
  rw [initial, initial, find?_eq_of_perm single same, ref?_perm distinct same]

end Order

end Compile

open Compile in
/-- Compiling depends on edges by what they lead to from the outputs of the nodes, and on the order
of the nodes by the order of the rows.  Lists of edges that agree in the first give the same
outcome, warnings included.  Nodes in another order, with one entry among them, give an outcome of
the same kind with the same beginning, the same rows and warnings of the same names on the same
nodes. -/
theorem compile_indifferent {nodes : List Node} (distinct : (nodes.map (·.id)).Nodup) (npc : String)
    (interaction : Option Interaction) :
    (∀ edges edges', Agree nodes edges edges' →
      compile nodes edges npc interaction = compile nodes edges' npc interaction) ∧
    ∀ edges nodes', (nodes.filter Node.isEntry).length ≤ 1 → nodes.Perm nodes' →
      (compile nodes edges npc interaction).Alike (compile nodes' edges npc interaction) := by
  refine ⟨fun edges edges' agree => compile_eq_of_agree agree npc interaction,
    fun edges nodes' single same => ?_⟩
  rw [compile, compile, initial_perm distinct same single]
  cases initial nodes' edges (Survey.ofGraph nodes' edges).kept with
  | error reason => exact .empty reason
  | ok r =>
      exact .compiled rfl rfl rfl (actionRows_perm distinct same) (resultRows_perm distinct same)
        (conditionRows_perm distinct same) (warnings_perm distinct same)

open Compile in
/-- The second list has edges with other ids and inputs, in another order, and one more on an output
that holds one.  In the other order of the nodes the conditional `known` is dropped before `rich`,
which leads to it, and so there is another reason for dropping `rich`. -/
theorem compile_indifferent_of_reasons :
    let nodes : List Node := [.entry, { id := "hello", payload := .ofKind .result },
      { id := "leave", payload := .ofKind .action },
      { id := "rich", payload := .ofKind .conditional },
      { id := "known", payload := .ofKind .conditional }]
    let edges : List Edge := [.join Node.entryId .initialTarget "hello" .nodeTrigger,
      .join "hello" .resultActions "leave" .actionOwner,
      .join "leave" .actionResult "hello" .nodeTrigger,
      .join "rich" .conditionTrue "known" .nodeTrigger]
    let edges' : List Edge := [⟨"1", "rich", "condition_true", "known", ""⟩,
      ⟨"2", "hello", "result_actions", "leave", "left"⟩,
      ⟨"2", "rich", "condition_true", "hello", "node_trigger"⟩,
      ⟨"4", Node.entryId, "initial_target", "hello", "right"⟩,
      ⟨"5", "leave", "action_result", "hello", "node_trigger"⟩]
    let reason (ns : List Node) (id : String) := (Survey.ofGraph ns edges).dropped.lookup id
    (nodes.map (·.id)).Nodup ∧ Agree nodes edges edges' ∧
      compile nodes edges "guide" none = compile nodes edges' "guide" none ∧
      (reason nodes "rich" = some (.notConnected .conditionFalse) ∧
        reason nodes.reverse "rich" = some (.leadsToDropped .conditionTrue "known")) ∧
      (compile nodes edges "guide" none).Alike (compile nodes.reverse edges "guide" none) := by
  intro nodes edges edges' reason
  have distinct : (nodes.map (·.id)).Nodup := by decide
  have agree : Agree nodes edges edges' := ⟨by decide +kernel, by decide +kernel⟩
  obtain ⟨byEdges, byOrder⟩ := compile_indifferent distinct "guide" none
  exact ⟨distinct, agree, byEdges edges edges' agree, ⟨by decide +kernel, by decide +kernel⟩,
    byOrder edges nodes.reverse (by decide) nodes.reverse_perm.symm⟩

end Parley
