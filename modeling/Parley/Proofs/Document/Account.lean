import Parley.Proofs.Document.Closed
import Parley.Proofs.Document.Exportable

/-!
# What warnings account for

A compiled document has a row for each action, for each result and for each conditional that is
kept.  What is missing from it is named by warnings, once each: the targets of actions, the
conditionals, and what results offer that is no action.

A conditional is dropped with a reason, which is given while others are still being dropped.  The
reason stays true to the end, since what it says is that a branch leads nowhere, or to a conditional
that has been dropped by then, and no conditional comes back.
-/

namespace Parley

/-- The nodes that checks of a name are pinned to, in order. -/
def Check.pinned (name : String) (checks : List Check) : List (Option String) :=
  (checks.filter (·.name == name)).map (·.node)

namespace Compile

variable {nodes : List Node} {edges : List Edge} {kept fewer : List String} {id : String}
  {port : Port} {reason : DropReason}

/-- The branch that a reason for dropping a conditional is about. -/
def DropReason.branch : DropReason → Port
  | .notConnected port => port
  | .leadsToDropped port _ => port
  | .unusable port => port

/-- Whether a reason for dropping a conditional is true while some conditionals are kept. -/
def DropReason.Holds (nodes : List Node) (edges : List Edge) (kept : List String) (id : String) :
    DropReason → Prop
  | .notConnected port => first? edges id port = none
  | .leadsToDropped port target =>
    first? edges id port = some target ∧ kind? nodes target = some .conditional ∧ target ∉ kept
  | .unusable port => ∃ target, first? edges id port = some target ∧
    kind? nodes target ≠ some .result ∧ kind? nodes target ≠ some .conditional

/-- The warning that a conditional was dropped for a reason. -/
def droppedWarning (id : String) (reason : DropReason) : Check :=
  .warning "dropped_condition" ("Condition '" ++ id ++ "' was left out: " ++ reason.message)
    (some id)

/-- Whether an edge offers, from a result, something that is no action. -/
def strays (nodes : List Node) (e : Edge) : Bool :=
  e.sourceHandle == Port.resultActions.name && kind? nodes e.source == some .result &&
    !leadsToAction nodes e.target

/-- The warning on an edge that offers something that is no action. -/
def strayWarning (e : Edge) : Check :=
  .warning "non_action_target"
    ("Result '" ++ e.source ++ "' offers '" ++ e.target ++ "', which is not an action")
    (some e.source)

section Reasons

/-- A reason stays true when more is dropped. -/
theorem DropReason.Holds.anti (less : fewer ⊆ kept) (h : reason.Holds nodes edges kept id) :
    reason.Holds nodes edges fewer id := by
  cases reason with
  | notConnected port => exact h
  | leadsToDropped port target => exact ⟨h.1, h.2.1, fun there => h.2.2 (less there)⟩
  | unusable port => exact h

/-- A true reason says that a branch is not connected exactly if it has no edge. -/
theorem DropReason.Holds.eq_notConnected_iff (h : reason.Holds nodes edges kept id) :
    reason = .notConnected reason.branch ↔ first? edges id reason.branch = none := by
  cases reason with
  | notConnected port => exact iff_of_true rfl h
  | leadsToDropped port target => simp [branch, h.1]
  | unusable port =>
      obtain ⟨target, led, -⟩ := h
      simp [branch, led]

theorem holds_of_branchFlaw? (flaw : branchFlaw? nodes edges kept id port = some reason) :
    reason.branch = port ∧ reason.Holds nodes edges kept id := by
  rw [branchFlaw?] at flaw
  split at flaw
  next none => cases flaw; exact ⟨rfl, none⟩
  next target led =>
    split at flaw
    next => cases flaw
    next conditional =>
      split at flaw
      next => cases flaw
      next gone => cases flaw; exact ⟨rfl, led, conditional, by simpa using gone⟩
    next noResult noConditional => cases flaw; exact ⟨rfl, target, led, noResult, noConditional⟩

/-- The reason for dropping a conditional is about one of its branches, and it is true. -/
theorem holds_of_flaw? (flaw : flaw? nodes edges kept id = some reason) :
    reason.branch ∈ Port.outputs .conditional ∧ reason.Holds nodes edges kept id := by
  rcases Option.or_eq_some_iff.mp flaw with found | ⟨-, found⟩
  all_goals
    obtain ⟨about, holds⟩ := holds_of_branchFlaw? found
    exact ⟨about ▸ by decide, holds⟩

namespace Survey

/-- Whether all reasons that a survey gives are true of what it keeps. -/
def Justified (nodes : List Node) (edges : List Edge) (s : Survey) : Prop :=
  ∀ entry ∈ s.dropped,
    entry.2.branch ∈ Port.outputs .conditional ∧ entry.2.Holds nodes edges s.kept entry.1

variable {s : Survey}

theorem Justified.visit (h : Justified nodes edges s) :
    Justified nodes edges (visit nodes edges s id) := by
  obtain ⟨same, -⟩ | ⟨reason, -, flaw, result⟩ := visit_cases nodes edges s id
  · exact same.symm ▸ h
  · have less : s.kept.filter (· != id) ⊆ s.kept := List.filter_subset_self _
    rw [result]
    intro entry member
    rcases List.mem_append.mp member with member | member
    · obtain ⟨branch, holds⟩ := h entry member
      exact ⟨branch, holds.anti less⟩
    · obtain rfl := List.mem_singleton.mp member
      obtain ⟨branch, holds⟩ := holds_of_flaw? flaw
      exact ⟨branch, holds.anti less⟩

/-- The reasons that the survey of a graph gives are true when it has ended. -/
theorem ofGraph_justified (nodes : List Node) (edges : List Edge) :
    Justified nodes edges (ofGraph nodes edges) :=
  settle_preserves (fun _ _ => Justified.visit) (by simp [Justified])

end Survey

end Reasons

section Names

variable {n : Node} {c : Check} {checks : List Check} {name other : String} {s : Survey}

theorem conditionWarnings_eq_map (dropped : List (String × DropReason)) (n : Node) :
    conditionWarnings dropped n = ((dropped.lookup n.id).map (droppedWarning n.id)).toList := by
  rw [conditionWarnings]
  cases dropped.lookup n.id <;> rfl

theorem of_mem_actionWarnings (member : c ∈ actionWarnings nodes edges kept n) :
    c.name = "dangling_action" ∧ c.severity = .warn := by
  obtain ⟨message, warned⟩ := actionWarnings_eq nodes edges kept n
  rw [warned] at member
  split at member
  next => cases member
  next => exact List.mem_singleton.mp member ▸ ⟨rfl, rfl⟩

theorem of_mem_resultWarnings (member : c ∈ resultWarnings nodes edges n) :
    c.name = "non_action_target" ∧ c.severity = .warn := by
  obtain ⟨target, -, rfl⟩ := List.mem_map.mp member
  exact ⟨rfl, rfl⟩

theorem of_mem_conditionWarnings {dropped : List (String × DropReason)}
    (member : c ∈ conditionWarnings dropped n) :
    ∃ reason, (n.id, reason) ∈ dropped ∧ c = droppedWarning n.id reason := by
  rw [conditionWarnings_eq_map, Option.mem_toList, Option.map_eq_some_iff] at member
  obtain ⟨reason, found, rfl⟩ := member
  obtain ⟨before, after, rfl, -⟩ := List.lookup_eq_some_iff.mp found
  exact ⟨reason, by simp, rfl⟩

/-- Of checks with one name either all or none have a given name. -/
theorem filter_name (named : ∀ c ∈ checks, c.name = name) :
    checks.filter (·.name == other) = if name = other then checks else [] := by
  split
  next same => exact List.filter_eq_self.mpr fun c member => by simp [named c member, same]
  next different =>
    exact List.filter_eq_nil_iff.mpr fun c member => by simp [named c member, different]

theorem filter_warnings (nodes : List Node) (edges : List Edge) (s : Survey) (name : String) :
    (warnings nodes edges s).filter (·.name == name) =
      (if "dangling_action" = name then
        (nodes.filter Node.isAction).flatMap (actionWarnings nodes edges s.kept) else []) ++
      (if "non_action_target" = name then
        (nodes.filter Node.isResult).flatMap (resultWarnings nodes edges) else []) ++
      if "dropped_condition" = name then
        (nodes.filter Node.isConditional).flatMap (conditionWarnings s.dropped) else [] := by
  rw [warnings, List.filter_append, List.filter_append]
  congr 1
  · congr 1
    · refine filter_name fun c member => ?_
      obtain ⟨n, -, member⟩ := List.mem_flatMap.mp member
      exact (of_mem_actionWarnings member).1
    · refine filter_name fun c member => ?_
      obtain ⟨n, -, member⟩ := List.mem_flatMap.mp member
      exact (of_mem_resultWarnings member).1
  · refine filter_name fun c member => ?_
    obtain ⟨n, -, member⟩ := List.mem_flatMap.mp member
    obtain ⟨reason, -, rfl⟩ := of_mem_conditionWarnings member
    rfl

/-- Where a node has at most one check, which is pinned to it, the checks name those nodes. -/
theorem map_node_flatMap {f : Node → List Check} {made : Node → Bool}
    (pins : ∀ n ∈ nodes, (f n).map (·.node) = if made n then [some n.id] else []) :
    (nodes.flatMap f).map (·.node) = ((nodes.filter made).map (·.id)).map some := by
  rw [List.map_flatMap, List.flatMap_congr pins]
  induction nodes with
  | nil => rfl
  | cons n rest ih =>
      have ih := ih fun m member => pins m (List.mem_cons_of_mem _ member)
      by_cases here : made n <;> simp [here, ih]

end Names

section Rows

variable {npc : String} {interaction : Option Interaction} {initial : Ref}

/-- The rows of the actions that lead to nothing are those of the actions that are warned about. -/
theorem pinned_dangling (s : Survey) :
    Check.pinned "dangling_action" (warnings nodes edges s) =
      ((actionRows nodes edges s.kept).filter (·.target.isNone)).map (some ·.id) := by
  let made (n : Node) : Bool :=
    n.isAction && (ref? nodes s.kept (first? edges n.id .actionResult)).isNone
  have rows : ((actionRows nodes edges s.kept).filter (·.target.isNone)).map (·.id) =
      (nodes.filter made).map (·.id) := by
    rw [actionRows, List.filter_filterMap]
    apply map_filterMap_ids
    intro n _
    cases data : n.payload with
    | action d =>
        have kind : n.isAction = true := by simp [Node.isAction, Node.kind_eq_action.mpr ⟨d, data⟩]
        cases led : ref? nodes s.kept (first? edges n.id .actionResult) <;>
          simp [made, kind, led, actionRow]
    | _ => simp [made, Node.isAction, Node.kind, data, Payload.kind]
  have named : ((nodes.filter Node.isAction).flatMap (actionWarnings nodes edges s.kept)).map
      (·.node) = (((nodes.filter Node.isAction).filter fun n =>
        (ref? nodes s.kept (first? edges n.id .actionResult)).isNone).map (·.id)).map some := by
    refine map_node_flatMap fun n _ => ?_
    obtain ⟨message, warned⟩ := actionWarnings_eq nodes edges s.kept n
    rw [warned]
    cases ref? nodes s.kept (first? edges n.id .actionResult) <;> rfl
  have same : (fun r : ActionRow => some r.id) = some ∘ (·.id) := rfl
  rw [Check.pinned, filter_warnings, same, ← List.map_map, rows]
  simp [named, List.filter_filter, made, Bool.and_comm]

theorem conditionRows_ids_eq (nodes : List Node) (edges : List Edge) :
    (conditionRows nodes edges (Survey.ofGraph nodes edges)).map (·.id) =
      (conditionals nodes).filter (· ∈ (Survey.ofGraph nodes edges).kept) := by
  rw [conditionRows_ids, conditionals, List.filter_map, List.filter_filter]
  congr 2
  funext n
  simp [Bool.and_comm]

/-- The conditionals without a row are those that are warned about. -/
theorem pinned_dropped (nodes : List Node) (edges : List Edge) :
    Check.pinned "dropped_condition" (warnings nodes edges (Survey.ofGraph nodes edges)) =
      ((conditionals nodes).filter (· ∉ (conditionRows nodes edges
        (Survey.ofGraph nodes edges)).map (·.id))).map some := by
  let s := Survey.ofGraph nodes edges
  have named : ((nodes.filter Node.isConditional).flatMap (conditionWarnings s.dropped)).map
      (·.node) = (((nodes.filter Node.isConditional).filter
        fun n => (s.dropped.lookup n.id).isSome).map (·.id)).map some := by
    refine map_node_flatMap fun n _ => ?_
    obtain ⟨message, warned⟩ := conditionWarnings_eq s.dropped n
    rw [warned]
    split <;> rfl
  have gone : (nodes.filter Node.isConditional).filter (fun n => (s.dropped.lookup n.id).isSome) =
      (nodes.filter Node.isConditional).filter
        ((fun id => decide (id ∉ (conditionRows nodes edges s).map (·.id))) ∘ (·.id)) := by
    refine List.filter_congr fun n member => ?_
    have listed : n.id ∈ conditionals nodes := List.mem_map_of_mem member
    obtain ⟨member, kind⟩ := List.mem_filter.mp member
    have dropped := dropped_isSome edges member (beq_iff_eq.mp kind)
    rw [Bool.eq_iff_iff, dropped, conditionRows_ids_eq]
    simp [listed]
  rw [Check.pinned, filter_warnings, conditionals, List.filter_map, ← gone]
  simpa using named

/-- What is said about a result is said about the edges that leave it. -/
theorem resultWarnings_eq (nodes : List Node) (edges : List Edge) (n : Node) :
    resultWarnings nodes edges n = (edges.filter fun e => e.source == n.id &&
      (e.sourceHandle == Port.resultActions.name && !leadsToAction nodes e.target)).map
        strayWarning := by
  rw [resultWarnings, all, List.filter_map, List.filter_filter, List.map_map]
  have picked : (fun e : Edge => ((!leadsToAction nodes ·) ∘ (·.target)) e &&
      (e.source == n.id && e.sourceHandle == Port.resultActions.name)) =
      fun e => e.source == n.id &&
        (e.sourceHandle == Port.resultActions.name && !leadsToAction nodes e.target) := by
    funext e
    simp only [Function.comp_apply]
    rw [Bool.and_comm, Bool.and_assoc]
  rw [picked]
  refine List.map_congr_left fun e member => ?_
  have leaves : e.source = n.id :=
    beq_iff_eq.mp (Bool.and_eq_true_iff.mp (List.mem_filter.mp member).2).1
  simp [strayWarning, leaves]

/-- There is one warning for each edge that offers something that is no action. -/
theorem filter_stray_perm (distinct : (nodes.map (·.id)).Nodup) (s : Survey) :
    ((warnings nodes edges s).filter (·.name == "non_action_target")).Perm
      ((edges.filter (strays nodes)).map strayWarning) := by
  let results := (nodes.filter Node.isResult).map (·.id)
  have unique : results.Nodup := distinct.sublist (List.filter_sublist.map _)
  have known (e : Edge) : results.contains e.source = (kind? nodes e.source == some .result) := by
    rw [Bool.eq_iff_iff, List.contains_iff_mem, mem_filter_ids, beq_iff_eq, kind?_eq_some distinct]
    simp [Node.isResult]
  have found : strays nodes = fun e => results.contains e.source &&
      (e.sourceHandle == Port.resultActions.name && !leadsToAction nodes e.target) := by
    funext e
    rw [known, strays, Bool.and_left_comm, Bool.and_assoc]
  have grouped : (nodes.filter Node.isResult).flatMap (resultWarnings nodes edges) =
      (results.flatMap fun id => edges.filter fun e => e.source == id &&
        (e.sourceHandle == Port.resultActions.name && !leadsToAction nodes e.target)).map
          strayWarning := by
    rw [List.map_flatMap, List.flatMap_map]
    exact List.flatMap_congr fun n _ => resultWarnings_eq nodes edges n
  rw [filter_warnings, found]
  simpa [grouped] using (flatMap_filter_perm unique Edge.source _ edges).map strayWarning

/-- A conditional is dropped for a reason that is true of the conditionals which are kept. -/
theorem exists_reason {c : Check}
    (member : c ∈ warnings nodes edges (Survey.ofGraph nodes edges))
    (named : c.name = "dropped_condition") : ∃ id reason, c = droppedWarning id reason ∧
      reason.branch ∈ Port.outputs .conditional ∧
      reason.Holds nodes edges (Survey.ofGraph nodes edges).kept id := by
  have picked : c ∈ (warnings nodes edges (Survey.ofGraph nodes edges)).filter
      (·.name == "dropped_condition") := List.mem_filter.mpr ⟨member, beq_iff_eq.mpr named⟩
  rw [filter_warnings] at picked
  obtain ⟨n, -, there⟩ : ∃ n ∈ nodes.filter Node.isConditional,
      c ∈ conditionWarnings (Survey.ofGraph nodes edges).dropped n := by
    simpa using picked
  obtain ⟨reason, given, rfl⟩ := of_mem_conditionWarnings there
  exact ⟨n.id, reason, rfl, Survey.ofGraph_justified nodes edges _ given⟩

end Rows

end Compile

open Compile in
/-- What warnings account for, whatever the edges are.  Rows stand for the actions, the results and
the conditionals of the greatest set that supports itself, in the order of the nodes.  The warnings
name, once each, the actions whose rows have no target, the conditionals without a row and the edges
by which a result offers what is no action, and nothing else.  Each reason for which a conditional
is missing is true of the document. -/
theorem warnings_account {nodes : List Node} {edges : List Edge} {npc : String}
    {interaction : Option Interaction} {d : Document} {ws : List Check}
    (distinct : (nodes.map (·.id)).Nodup)
    (compiled : compile nodes edges npc interaction = .compiled d ws) :
    (d.actions.map (·.id) = (nodes.filter Node.isAction).map (·.id) ∧
      d.results.map (·.id) = (nodes.filter Node.isResult).map (·.id) ∧
      ∃ kept : List String, IsGreatest {safe | SelfSupporting nodes edges safe} {id | id ∈ kept} ∧
        d.conditions.map (·.id) = (conditionals nodes).filter (· ∈ kept)) ∧
    (Check.pinned "dangling_action" ws = (d.actions.filter (·.target.isNone)).map (some ·.id) ∧
      Check.pinned "dropped_condition" ws =
        ((conditionals nodes).filter (· ∉ d.conditions.map (·.id))).map some ∧
      (ws.filter (·.name == "non_action_target")).Perm
        ((edges.filter (strays nodes)).map strayWarning) ∧
      ∀ c ∈ ws, c.severity = .warn ∧
        c.name ∈ ["dangling_action", "non_action_target", "dropped_condition"]) ∧
    ∀ c ∈ ws, c.name = "dropped_condition" → ∃ id reason, c = droppedWarning id reason ∧
      reason.branch ∈ Port.outputs .conditional ∧
      reason.Holds nodes edges (d.conditions.map (·.id)) id ∧
      (reason = .notConnected reason.branch ↔ first? edges id reason.branch = none) := by
  obtain ⟨initial, -, rfl, rfl⟩ := compile_eq_compiled.mp compiled
  refine ⟨⟨actionRows_ids .., resultRows_ids .., _, kept_isGreatest distinct edges,
    conditionRows_ids_eq nodes edges⟩, ⟨pinned_dangling _, pinned_dropped nodes edges,
    filter_stray_perm distinct _, fun c member => ?_⟩, fun c member named => ?_⟩
  · rcases warnings_cases member with ⟨n, -, -, -, message, rfl⟩ |
      ⟨n, -, target, -, -, message, rfl⟩ | ⟨n, -, -, -, message, rfl⟩
    all_goals exact ⟨rfl, by simp [Check.warning]⟩
  · obtain ⟨id, reason, rfl, branch, holds⟩ := exists_reason member named
    have rows : (conditionRows nodes edges (Survey.ofGraph nodes edges)).map (·.id) ⊆
        (Survey.ofGraph nodes edges).kept := by
      rw [conditionRows_ids_eq]
      exact fun x there => of_decide_eq_true (List.mem_filter.mp there).2
    have holds := holds.anti rows
    exact ⟨id, reason, rfl, branch, holds, holds.eq_notConnected_iff⟩

open Compile in
/-- A result offers a node that does not exist, twice, and a conditional.  That conditional is
dropped on the second pass, because of one that comes behind it; a third one leads to an action. -/
theorem warnings_account_of_chain :
    let nodes : List Node := [.entry, { id := "hello", payload := .ofKind .result },
      { id := "leave", payload := .ofKind .action },
      { id := "rich", payload := .ofKind .conditional },
      { id := "known", payload := .ofKind .conditional },
      { id := "old", payload := .ofKind .conditional }]
    let edges : List Edge := [.join Node.entryId .initialTarget "hello" .nodeTrigger,
      .join "hello" .resultActions "nobody" .actionOwner,
      .join "hello" .resultActions "leave" .actionOwner,
      .join "hello" .resultActions "nobody" .nodeTrigger,
      .join "hello" .resultActions "rich" .nodeTrigger,
      .join "leave" .actionResult "rich" .nodeTrigger,
      .join "rich" .conditionTrue "known" .nodeTrigger,
      .join "rich" .conditionFalse "hello" .nodeTrigger,
      .join "old" .conditionTrue "leave" .actionOwner]
    let d : Document := {
      npc := "guide"
      actions := [{ id := "leave" }]
      results := [{ id := "hello", actions := ["leave"] }]
      initial := ⟨"hello", .result⟩ }
    let ws := [
      Check.warning "dangling_action" "Action 'leave' leads to unusable node 'rich'" "leave",
      strayWarning (.join "hello" .resultActions "nobody" .actionOwner),
      strayWarning (.join "hello" .resultActions "nobody" .nodeTrigger),
      strayWarning (.join "hello" .resultActions "rich" .nodeTrigger),
      droppedWarning "rich" (.leadsToDropped .conditionTrue "known"),
      droppedWarning "known" (.notConnected .conditionTrue),
      droppedWarning "old" (.unusable .conditionTrue)]
    (nodes.map (·.id)).Nodup ∧ compile nodes edges "guide" none = .compiled d ws ∧
      Check.pinned "dropped_condition" ws = [some "rich", some "known", some "old"] ∧
      (ws.filter (·.name == "non_action_target")).Perm
        ((edges.filter (strays nodes)).map strayWarning) ∧
      ∀ c ∈ ws, c.name = "dropped_condition" → ∃ id reason, c = droppedWarning id reason ∧
        reason.branch ∈ Port.outputs .conditional ∧
        reason.Holds nodes edges (d.conditions.map (·.id)) id ∧
        (reason = .notConnected reason.branch ↔ first? edges id reason.branch = none) := by
  intro nodes edges d ws
  have distinct : (nodes.map (·.id)).Nodup := by decide
  have compiled : compile nodes edges "guide" none = .compiled d ws := by decide +kernel
  obtain ⟨-, ⟨-, dropped, strays, -⟩, reasons⟩ := warnings_account distinct compiled
  exact ⟨distinct, compiled, dropped, strays, reasons⟩

end Parley
