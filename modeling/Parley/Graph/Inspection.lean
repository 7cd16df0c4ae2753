import Parley.Check
import Parley.Graph.Basic
import Parley.Log.Event

/-!
# Inspecting a graph

A review of a graph before it is exported: edges that do not fit, an entry, actions or conditionals
that lead nowhere, results that contradict themselves, and nodes that no path reaches.
-/

namespace Parley

namespace Inspection

/-- The checks of one concern: what was found, or else a pass. -/
def concern (found : List Check) (name passed : String) : List Check :=
  if found.isEmpty then [Check.passed name passed] else found

/-- Edges join existing nodes on matching ports. -/
def integrity (g : Graph) : List Check :=
  concern (g.violations.map fun v => Check.failure "graph_integrity" v none) "graph_integrity"
    "All edges join existing nodes on matching ports"

/-- The entry leads somewhere. -/
def entry (g : Graph) : List Check :=
  if (g.edgesFrom g.entryId (some Port.initialTarget.name)).isEmpty then
    [Check.failure "entry_connected" "Entry node is not connected; nothing can be exported" none]
  else [Check.passed "entry_connected" "Entry node leads into the dialogue"]

/-- The first text, or the second one if it is empty. -/
def nonempty (first second : String) : String := if first.isEmpty then second else first

/-- The warning on an action that leads nowhere. -/
def actionChecks (g : Graph) (n : Node) : List Check :=
  match n.payload with
  | .action d =>
    if (g.edgesFrom n.id (some Port.actionResult.name)).isEmpty then
      [Check.warning "dangling_action" ("Action '" ++ nonempty d.label n.id ++ "' leads nowhere")
        (some n.id)]
    else []
  | _ => []

/-- Every action leads somewhere. -/
def actions (g : Graph) : List Check :=
  concern (g.nodes.flatMap (actionChecks g)) "dangling_action"
    "Every action leads to a result or condition"

/-- The branches of a conditional that lead nowhere. -/
def missingBranches (g : Graph) (id : String) : List Port :=
  [Port.conditionTrue, Port.conditionFalse].filter fun port =>
    (g.edgesFrom id (some port.name)).isEmpty

/-- The warning on a conditional with a missing branch. -/
def conditionalChecks (g : Graph) (n : Node) : List Check :=
  match n.payload with
  | .conditional d =>
    match missingBranches g n.id with
    | [] => []
    | missing =>
      [Check.warning "unwired_conditional"
        ("Condition on '" ++ nonempty d.value n.id ++ "' has no " ++
          " or ".intercalate (missing.map Port.name) ++ " branch and will not be exported")
        (some n.id)]
  | _ => []

/-- Every conditional has both branches. -/
def conditionals (g : Graph) : List Check :=
  concern (g.nodes.flatMap (conditionalChecks g)) "unwired_conditional"
    "Every condition has both branches"

/-- The warnings on the preferred action of a result and on what it offers though it closes. -/
def resultChecks (g : Graph) (n : Node) : List Check :=
  match n.payload with
  | .result d =>
    let connected := g.connectedActions n.id
    (match d.preferred with
      | some preferred =>
        if connected.contains preferred then []
        else [Check.warning "preferred_not_connected"
          ("Result '" ++ n.id ++ "' prefers '" ++ preferred ++ "', which it does not offer")
          (some n.id)]
      | none => []) ++
    (if d.close.enabled && !connected.isEmpty then
      [Check.warning "close_with_actions"
        ("Result '" ++ n.id ++ "' closes the dialogue but still offers " ++
          Text.ofNat connected.length ++ " action(s)") (some n.id)]
    else [])
  | _ => []

/-- Results are consistent. -/
def results (g : Graph) : List Check :=
  concern (g.nodes.flatMap (resultChecks g)) "results"
    "Result choices and close settings are consistent"

/-- The targets of edges from a node that are not among those seen before, each once. -/
def fresh (edges : List Edge) (seen : List String) (id : String) : List String :=
  (((edges.filter (·.source == id)).map (·.target)).filter (!seen.contains ·)).eraseDups

/-- The number of edges whose target has not been seen. -/
def unseen (edges : List Edge) (seen : List String) : Nat :=
  edges.countP fun e => !seen.contains e.target

theorem unseen_lt (edges : List Edge) (seen : List String) (id : String)
    (h : fresh edges seen id ≠ []) : unseen edges (seen ++ fresh edges seen id) <
      unseen edges seen := by
  obtain ⟨target, hmem⟩ := List.exists_mem_of_ne_nil _ h
  have hfresh := hmem
  rw [fresh, List.mem_eraseDups, List.mem_filter, List.mem_map] at hmem
  obtain ⟨⟨e, he, rfl⟩, hseen⟩ := hmem
  rw [List.mem_filter] at he
  obtain ⟨before, after, rfl⟩ := List.append_of_mem he.1
  simp only [unseen, List.countP_append, List.countP_cons]
  have hmono (es : List Edge) (new : List String) :
      es.countP (fun e => !(seen ++ new).contains e.target) ≤
        es.countP (fun e => !seen.contains e.target) := by
    apply List.countP_mono_left
    intro x _ hx
    simp only [Bool.not_eq_true', List.contains_eq_mem, List.mem_append, decide_eq_false_iff_not,
      not_or] at hx ⊢
    exact hx.1
  have h1 := hmono before (fresh (before ++ e :: after) seen id)
  have h2 := hmono after (fresh (before ++ e :: after) seen id)
  have h3 : (!(seen ++ fresh (before ++ e :: after) seen id).contains e.target) = false := by
    simp [hfresh]
  rw [h3, hseen]
  simp only [Bool.false_eq_true, if_false, if_true]
  omega

/-- Follows edges from the nodes in a queue; answers all nodes seen. -/
def spread (edges : List Edge) (seen : List String) : List String → List String
  | [] => seen
  | id :: queue =>
    spread edges (seen ++ fresh edges seen id) (queue ++ fresh edges seen id)
termination_by queue => (unseen edges seen, queue.length)
decreasing_by
  by_cases h : fresh edges seen id = []
  · rw [h]
    simp only [List.append_nil]
    exact Prod.Lex.right _ (by simp)
  · exact Prod.Lex.left _ _ (unseen_lt edges seen id h)

/-- The ids to which a path of edges leads from the entry. -/
def reached (g : Graph) : List String := spread g.edges [g.entryId] [g.entryId]

/-- Every node is reached from the entry. -/
def reachability (g : Graph) : List Check :=
  let seen := reached g
  concern ((g.nodes.filter fun n => !seen.contains n.id).map fun n =>
    Check.warning "unreachable_node"
      (n.kind.word ++ " node '" ++ n.id ++ "' cannot be reached from the entry") (some n.id))
    "unreachable_node" "Every node is reachable from the entry"

end Inspection

/-- What an inspection finds. -/
structure Inspection where
  nodeCount : Nat
  edgeCount : Nat
  /-- The number of nodes of each kind that there is, in the order in which the kinds come. -/
  counts : List (Kind × Nat)
  checks : List Check

namespace Inspection

/-- Inspects a graph. -/
def ofGraph (g : Graph) : Inspection where
  nodeCount := g.nodes.length
  edgeCount := g.edges.length
  counts := ((g.nodes.map Node.kind).eraseDups).map fun kind => (kind, (g.ofKind kind).length)
  checks := integrity g ++ entry g ++ actions g ++ conditionals g ++ results g ++ reachability g

/-- What is reported about an inspection. -/
def events (i : Inspection) : List Log.Event :=
  [⟨Log.Logger.inspection, "inspection_complete", .info,
    [("nodes", .int i.nodeCount), ("edges", .int i.edgeCount),
      ("result", .str (Check.summary i.checks))]⟩]

end Inspection

end Parley
