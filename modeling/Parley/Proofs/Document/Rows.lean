import Mathlib.Data.List.Nodup
import Parley.Proofs.Document.Survey

/-!
# The rows of a compiled document

What compiling puts into a document: which nodes have a row, what a reference in it leads to, and
which conditionals its warnings name.  The compiler looks up edges and nodes without a check, so
each statement says what is known of the edge or node that was found.
-/

namespace Parley

/-- The branches of a condition, each with the output that it hangs on. -/
def ConditionRow.branches (r : ConditionRow) : List (Port × Ref) :=
  [(.conditionTrue, r.onTrue), (.conditionFalse, r.onFalse)]

namespace ConditionRow

variable {r : ConditionRow} {port : Port} {t u : Ref}

theorem mem_branches : (port, t) ∈ r.branches ↔
    port = .conditionTrue ∧ t = r.onTrue ∨ port = .conditionFalse ∧ t = r.onFalse := by
  simp [branches]

/-- A branch hangs on an output of its conditional. -/
theorem branch_output (branch : (port, t) ∈ r.branches) : port ∈ Port.outputs .conditional := by
  rcases mem_branches.mp branch with ⟨rfl, -⟩ | ⟨rfl, -⟩ <;> decide

/-- On each output of a conditional there hangs a branch. -/
theorem exists_branch (output : port ∈ Port.outputs .conditional) :
    ∃ t, (port, t) ∈ r.branches := by
  simp only [Port.outputs, List.mem_cons, List.not_mem_nil, or_false] at output
  rcases output with rfl | rfl
  · exact ⟨r.onTrue, mem_branches.mpr (.inl ⟨rfl, rfl⟩)⟩
  · exact ⟨r.onFalse, mem_branches.mpr (.inr ⟨rfl, rfl⟩)⟩

/-- A branch hangs on no other output. -/
theorem branch_ne {p : Port} (branch : (port, t) ∈ r.branches) (notTrue : p ≠ .conditionTrue)
    (notFalse : p ≠ .conditionFalse) : port ≠ p := by
  rcases mem_branches.mp branch with ⟨rfl, -⟩ | ⟨rfl, -⟩
  · exact notTrue.symm
  · exact notFalse.symm

/-- A branch is known by its output. -/
theorem branch_unique (first : (port, t) ∈ r.branches) (second : (port, u) ∈ r.branches) :
    t = u := by
  rcases mem_branches.mp first with ⟨rfl, rfl⟩ | ⟨rfl, rfl⟩
  · simpa [branches, eq_comm] using second
  · simpa [branches, eq_comm] using second

end ConditionRow

namespace Compile

variable {nodes : List Node} {edges : List Edge} {kept : List String} {id source target : String}
  {port : Port}

/-- With distinct ids it does not matter which node with an id is taken. -/
theorem node?_eq_some (distinct : (nodes.map (·.id)).Nodup) {n : Node} :
    node? nodes id = some n ↔ n ∈ nodes ∧ n.id = id := by
  constructor
  · intro found
    exact ⟨List.mem_reverse.mp (List.mem_of_find?_eq_some found),
      by simpa using List.find?_some found⟩
  · rintro ⟨member, rfl⟩
    cases found : node? nodes n.id with
    | none =>
        have absent := List.find?_eq_none.mp found n (List.mem_reverse.mpr member)
        exact absurd (beq_self_eq_true n.id) absent
    | some m =>
        have there : m ∈ nodes := List.mem_reverse.mp (List.mem_of_find?_eq_some found)
        have same : m.id = n.id := by simpa using List.find?_some found
        rw [List.inj_on_of_nodup_map distinct there member same]

theorem kind?_eq_some (distinct : (nodes.map (·.id)).Nodup) {kind : Kind} :
    kind? nodes id = some kind ↔ ∃ n ∈ nodes, n.id = id ∧ n.kind = kind := by
  simp [kind?, node?_eq_some distinct, and_assoc]

theorem first?_eq_some (found : first? edges source port = some target) :
    ∃ e ∈ edges, e.source = source ∧ e.sourceHandle = port.name ∧ e.target = target := by
  obtain ⟨e, found, reaches⟩ := Option.map_eq_some_iff.mp found
  have leaves : e.source = source ∧ e.sourceHandle = port.name := by
    simpa using List.find?_some found
  exact ⟨e, List.mem_of_find?_eq_some found, leaves.1, leaves.2, reaches⟩

/-- An edge is found from its port if all edges from there lead to its target. -/
theorem first?_eq_target {e : Edge} (member : e ∈ edges)
    (leaves : e.sourceHandle = port.name)
    (only : ∀ x ∈ edges, x.source = e.source → x.sourceHandle = port.name → x.target = e.target) :
    first? edges e.source port = some e.target := by
  rw [first?]
  cases found : edges.find? fun x => x.source == e.source && x.sourceHandle == port.name with
  | none =>
      have absent := List.find?_eq_none.mp found e member
      simp [leaves] at absent
  | some x =>
      have matched : x.source = e.source ∧ x.sourceHandle = port.name := by
        simpa using List.find?_some found
      exact congrArg some (only x (List.mem_of_find?_eq_some found) matched.1 matched.2)

theorem first?_eq_none (absent : ∀ x ∈ edges, x.source = source → x.sourceHandle ≠ port.name) :
    first? edges source port = none := by
  simpa [first?] using absent

theorem mem_all : target ∈ all edges source port ↔
    ∃ e ∈ edges, e.source = source ∧ e.sourceHandle = port.name ∧ e.target = target := by
  simp [all, and_assoc]

/-- What a reference leads to: a result, or a conditional that is kept. -/
theorem ref?_eq_some {place : Option String} {r : Ref} :
    ref? nodes kept place = some r ↔ place = some r.id ∧
      (r.type = .result ∧ kind? nodes r.id = some .result ∨
        r.type = .condition ∧ kind? nodes r.id = some .conditional ∧ r.id ∈ kept) := by
  obtain ⟨id, type⟩ := r
  constructor
  · intro found
    cases place with
    | none => cases found
    | some target =>
        dsimp only [ref?] at found
        split at found
        next known => cases found; exact ⟨rfl, .inl ⟨rfl, known⟩⟩
        next known =>
          split at found
          next member => cases found; exact ⟨rfl, .inr ⟨rfl, known, by simpa using member⟩⟩
          next => cases found
        next => cases found
  · rintro ⟨rfl, ⟨rfl, known⟩ | ⟨rfl, known, member⟩⟩
    · simp only at known
      simp [ref?, known]
    · simp only at known member
      simp [ref?, known, member]

/-- A reference can be made to a node with a trigger, unless it is a conditional that is not
kept. -/
theorem ref?_of_trigger (distinct : (nodes.map (·.id)).Nodup) {n : Node} (member : n ∈ nodes)
    (trigger : .nodeTrigger ∈ Port.inputs n.kind) (stays : n.kind = .conditional → n.id ∈ kept) :
    ∃ type, ref? nodes kept (some n.id) = some ⟨n.id, type⟩ := by
  have known : kind? nodes n.id = some n.kind :=
    (kind?_eq_some distinct).mpr ⟨n, member, rfl, rfl⟩
  cases kind : n.kind with
  | entry => simp [Port.inputs, kind] at trigger
  | action => simp [Port.inputs, kind] at trigger
  | result => exact ⟨.result, ref?_eq_some.mpr ⟨rfl, .inl ⟨rfl, kind ▸ known⟩⟩⟩
  | conditional =>
      exact ⟨.condition, ref?_eq_some.mpr ⟨rfl, .inr ⟨rfl, kind ▸ known, stays kind⟩⟩⟩

/-- A reference can be made to a result and to a conditional that is kept. -/
theorem exists_ref?_iff {place : Option String} : (∃ r, ref? nodes kept place = some r) ↔
    ∃ id, place = some id ∧ (kind? nodes id = some .result ∨
      kind? nodes id = some .conditional ∧ id ∈ kept) := by
  constructor
  · rintro ⟨r, made⟩
    obtain ⟨led, kind⟩ := ref?_eq_some.mp made
    exact ⟨r.id, led, kind.imp And.right And.right⟩
  · rintro ⟨id, rfl, result | conditional⟩
    · exact ⟨⟨id, .result⟩, ref?_eq_some.mpr ⟨rfl, .inl ⟨rfl, result⟩⟩⟩
    · exact ⟨⟨id, .condition⟩, ref?_eq_some.mpr ⟨rfl, .inr ⟨rfl, conditional⟩⟩⟩

/-- A branch is sound where a reference can be made of it. -/
theorem branchFlaw?_eq_none : branchFlaw? nodes edges kept id port = none ↔
    ∃ r, ref? nodes kept (first? edges id port) = some r := by
  rw [← Option.isSome_iff_exists]
  unfold branchFlaw? ref?
  cases first? edges id port with
  | none => simp
  | some target =>
      dsimp only
      cases kind? nodes target with
      | none => simp
      | some kind =>
          cases kind with
          | conditional => by_cases member : target ∈ kept <;> simp [member]
          | _ => simp

/-- A set is closed if each branch of its conditionals can be made a reference. -/
theorem closed_iff : Closed nodes edges kept ↔ ∀ id ∈ kept, ∀ port ∈ Port.outputs .conditional,
    ∃ r, ref? nodes kept (first? edges id port) = some r := by
  refine forall₂_congr fun id _ => ?_
  simp [flaw?_eq_none, branchFlaw?_eq_none, Port.outputs]

section Membership

/-- The row of a node, if it is an action. -/
def actionRow? (nodes : List Node) (edges : List Edge) (kept : List String) (n : Node) :
    Option ActionRow :=
  match n.payload with
  | .action d => some (actionRow nodes edges kept n d)
  | _ => none

theorem actionRows_eq (nodes : List Node) (edges : List Edge) (kept : List String) :
    actionRows nodes edges kept = nodes.filterMap (actionRow? nodes edges kept) := rfl

theorem actionRow?_eq_some {n : Node} {r : ActionRow} : actionRow? nodes edges kept n = some r ↔
    ∃ d, n.payload = .action d ∧ actionRow nodes edges kept n d = r := by
  rw [actionRow?]
  cases n.payload <;> simp

theorem mem_actionRows {r : ActionRow} : r ∈ actionRows nodes edges kept ↔
    ∃ n ∈ nodes, ∃ d, n.payload = .action d ∧ actionRow nodes edges kept n d = r := by
  simp only [actionRows_eq, List.mem_filterMap, actionRow?_eq_some]

/-- The row of a node, if it is a result. -/
def resultRow? (nodes : List Node) (edges : List Edge) (n : Node) : Option ResultRow :=
  match n.payload with
  | .result d => some (resultRow nodes edges n d)
  | _ => none

theorem resultRows_eq (nodes : List Node) (edges : List Edge) :
    resultRows nodes edges = nodes.filterMap (resultRow? nodes edges) := rfl

theorem resultRow?_eq_some {n : Node} {r : ResultRow} : resultRow? nodes edges n = some r ↔
    ∃ d, n.payload = .result d ∧ resultRow nodes edges n d = r := by
  rw [resultRow?]
  cases n.payload <;> simp

theorem mem_resultRows {r : ResultRow} : r ∈ resultRows nodes edges ↔
    ∃ n ∈ nodes, ∃ d, n.payload = .result d ∧ resultRow nodes edges n d = r := by
  simp only [resultRows_eq, List.mem_filterMap, resultRow?_eq_some]

theorem mem_filter_ids {p : Node → Bool} :
    id ∈ (nodes.filter p).map (·.id) ↔ ∃ n ∈ nodes, n.id = id ∧ p n = true := by
  simp only [List.mem_map, List.mem_filter]
  exact exists_congr fun n => by rw [and_assoc, and_comm (a := p n = true)]

theorem mem_conditionals :
    id ∈ conditionals nodes ↔ ∃ n ∈ nodes, n.id = id ∧ n.kind = .conditional := by
  simp only [conditionals, mem_filter_ids, Node.isConditional, beq_iff_eq]

/-- A reference to a conditional is made only if it is kept. -/
theorem mem_kept_of_ref? (distinct : (nodes.map (·.id)).Nodup) {r : Ref}
    (listed : id ∈ conditionals nodes) (made : ref? nodes kept (some id) = some r) : id ∈ kept := by
  obtain ⟨n, member, named, conditional⟩ := mem_conditionals.mp listed
  have known := (kind?_eq_some distinct).mpr ⟨n, member, named, conditional⟩
  obtain ⟨reached, ⟨-, result⟩ | ⟨-, -, stays⟩⟩ := ref?_eq_some.mp made
  · rw [Option.some.inj reached, result] at known
    cases known
  · exact Option.some.inj reached ▸ stays

/-- The row of a conditional with the references of its two branches. -/
def branchRow (n : Node) (d : ConditionalData) (onTrue onFalse : Ref) : ConditionRow where
  id := n.id
  value := d.value
  condition := d.condition
  objective := d.objective
  onTrue
  onFalse
  position := pointOf n
  handle := d.handle

theorem conditionRow?_eq_some {n : Node} {d : ConditionalData} {r : ConditionRow} :
    conditionRow? nodes edges kept n d = some r ↔ ∃ onTrue onFalse,
      ref? nodes kept (first? edges n.id .conditionTrue) = some onTrue ∧
      ref? nodes kept (first? edges n.id .conditionFalse) = some onFalse ∧
      branchRow n d onTrue onFalse = r := by
  rw [conditionRow?]
  cases ref? nodes kept (first? edges n.id .conditionTrue) with
  | none => simp
  | some onTrue =>
      cases ref? nodes kept (first? edges n.id .conditionFalse) with
      | none => simp
      | some onFalse => simp [branchRow]

/-- The references of a row are those that its branches lead to. -/
theorem conditionRow?_branch {n : Node} {d : ConditionalData} {r : ConditionRow} {t : Ref}
    (made : conditionRow? nodes edges kept n d = some r) (branch : (port, t) ∈ r.branches) :
    ref? nodes kept (first? edges n.id port) = some t := by
  obtain ⟨onTrue, onFalse, madeTrue, madeFalse, rfl⟩ := conditionRow?_eq_some.mp made
  rcases ConditionRow.mem_branches.mp branch with ⟨rfl, rfl⟩ | ⟨rfl, rfl⟩
  · exact madeTrue
  · exact madeFalse

theorem conditionRow?_id {n : Node} {d : ConditionalData} {r : ConditionRow}
    (made : conditionRow? nodes edges kept n d = some r) : r.id = n.id := by
  obtain ⟨onTrue, onFalse, -, -, rfl⟩ := conditionRow?_eq_some.mp made
  rfl

/-- A conditional that is kept has a row. -/
theorem conditionRow?_isSome (closed : Closed nodes edges kept) {n : Node} (member : n.id ∈ kept)
    (d : ConditionalData) : (conditionRow? nodes edges kept n d).isSome = true := by
  have onTrue : .conditionTrue ∈ Port.outputs .conditional := by decide
  have onFalse : .conditionFalse ∈ Port.outputs .conditional := by decide
  obtain ⟨r, hr⟩ := closed_iff.mp closed n.id member _ onTrue
  obtain ⟨q, hq⟩ := closed_iff.mp closed n.id member _ onFalse
  exact Option.isSome_iff_exists.mpr ⟨_, conditionRow?_eq_some.mpr ⟨r, q, hr, hq, rfl⟩⟩

/-- The conditionals of a graph are those that are kept and those that are dropped. -/
theorem dropped_isSome (edges : List Edge) {n : Node} (member : n ∈ nodes)
    (kind : n.kind = .conditional) :
    ((Survey.ofGraph nodes edges).dropped.lookup n.id).isSome = true ↔
      n.id ∉ (Survey.ofGraph nodes edges).kept := by
  rw [(Survey.ofGraph_fair nodes edges).dropped_iff]
  exact and_iff_right (mem_conditionals.mpr ⟨n, member, rfl, kind⟩)

/-- The row of a node, if it is a conditional that was not dropped. -/
def keptRow? (nodes : List Node) (edges : List Edge) (s : Survey) (n : Node) :
    Option ConditionRow :=
  match n.payload with
  | .conditional d =>
    if (s.dropped.lookup n.id).isSome then none else conditionRow? nodes edges s.kept n d
  | _ => none

theorem conditionRows_eq (nodes : List Node) (edges : List Edge) (s : Survey) :
    conditionRows nodes edges s = nodes.filterMap (keptRow? nodes edges s) := rfl

theorem keptRow?_eq_some {n : Node} (member : n ∈ nodes) {r : ConditionRow} :
    keptRow? nodes edges (Survey.ofGraph nodes edges) n = some r ↔
      ∃ d, n.payload = .conditional d ∧ n.id ∈ (Survey.ofGraph nodes edges).kept ∧
        conditionRow? nodes edges (Survey.ofGraph nodes edges).kept n d = some r := by
  rw [keptRow?]
  cases data : n.payload with
  | conditional d =>
      have dropped := dropped_isSome edges member (Node.kind_eq_conditional.mpr ⟨d, data⟩)
      by_cases kept : n.id ∈ (Survey.ofGraph nodes edges).kept
      · have stays := mt dropped.mp (not_not_intro kept)
        simp [stays, kept]
      · simp [dropped.mpr kept, kept]
  | _ => simp

/-- The conditionals that have rows are those that are kept. -/
theorem keptRow?_isSome (edges : List Edge) {n : Node} (member : n ∈ nodes) :
    (keptRow? nodes edges (Survey.ofGraph nodes edges) n).isSome = true ↔
      n.kind = .conditional ∧ n.id ∈ (Survey.ofGraph nodes edges).kept := by
  simp only [Option.isSome_iff_exists, keptRow?_eq_some member]
  constructor
  · rintro ⟨r, d, data, kept, -⟩
    exact ⟨Node.kind_eq_conditional.mpr ⟨d, data⟩, kept⟩
  · rintro ⟨kind, kept⟩
    obtain ⟨d, data⟩ := Node.kind_eq_conditional.mp kind
    obtain ⟨r, made⟩ := Option.isSome_iff_exists.mp
      (conditionRow?_isSome (Survey.ofGraph_closed nodes edges) kept d)
    exact ⟨r, d, data, kept, made⟩

theorem mem_conditionRows {r : ConditionRow} :
    r ∈ conditionRows nodes edges (Survey.ofGraph nodes edges) ↔
      ∃ n ∈ nodes, ∃ d, n.payload = .conditional d ∧
        n.id ∈ (Survey.ofGraph nodes edges).kept ∧
        conditionRow? nodes edges (Survey.ofGraph nodes edges).kept n d = some r := by
  rw [conditionRows_eq, List.mem_filterMap]
  exact exists_congr fun n => and_congr_right fun member => keptRow?_eq_some member

end Membership

section Ids

/-- The ids of rows that are made of some nodes, each with the id of its node. -/
theorem map_filterMap_ids {α : Type} {row : Node → Option α} {key : α → String}
    {made : Node → Bool}
    (hrow : ∀ n ∈ nodes, (row n).map key = if made n then some n.id else none) :
    (nodes.filterMap row).map key = (nodes.filter made).map (·.id) := by
  rw [List.map_filterMap, List.filterMap_congr hrow, ← List.filterMap_eq_map, List.filterMap_filter]
  rfl

theorem actionRows_ids (nodes : List Node) (edges : List Edge) (kept : List String) :
    (actionRows nodes edges kept).map (·.id) = (nodes.filter Node.isAction).map (·.id) := by
  apply map_filterMap_ids
  intro n _
  cases data : n.payload <;> simp [Node.isAction, Node.kind, Payload.kind, data, actionRow]

theorem resultRows_ids (nodes : List Node) (edges : List Edge) :
    (resultRows nodes edges).map (·.id) = (nodes.filter Node.isResult).map (·.id) := by
  apply map_filterMap_ids
  intro n _
  cases data : n.payload <;> simp [Node.isResult, Node.kind, Payload.kind, data, resultRow]

theorem conditionRows_ids (nodes : List Node) (edges : List Edge) :
    (conditionRows nodes edges (Survey.ofGraph nodes edges)).map (·.id) =
      (nodes.filter fun n => n.isConditional &&
        (Survey.ofGraph nodes edges).kept.contains n.id).map (·.id) := by
  rw [conditionRows_eq]
  apply map_filterMap_ids
  intro n member
  have present := keptRow?_isSome edges member
  cases row : keptRow? nodes edges (Survey.ofGraph nodes edges) n with
  | none =>
      rw [row] at present
      have absent := mt present.mpr (by simp)
      simpa [Node.isConditional] using absent
  | some r =>
      obtain ⟨d, data, kept, made⟩ := (keptRow?_eq_some member).mp row
      have kind := Node.kind_eq_conditional.mpr ⟨d, data⟩
      simp [Node.isConditional, kind, kept, conditionRow?_id made]

end Ids

section Warnings

variable {s : Survey} {n : Node} {c : Check}

theorem actionWarnings_eq (nodes : List Node) (edges : List Edge) (kept : List String) (n : Node) :
    ∃ message, actionWarnings nodes edges kept n =
      if (ref? nodes kept (first? edges n.id .actionResult)).isSome then []
      else [Check.warning "dangling_action" message (some n.id)] := ⟨_, rfl⟩

theorem conditionWarnings_eq (dropped : List (String × DropReason)) (n : Node) :
    ∃ message, conditionWarnings dropped n =
      if (dropped.lookup n.id).isSome then
        [Check.warning "dropped_condition" message (some n.id)]
      else [] := by
  rw [conditionWarnings]
  cases dropped.lookup n.id with
  | none => exact ⟨"", rfl⟩
  | some reason => exact ⟨_, rfl⟩

/-- A warning is about an action to which no reference can be made where it leads, about what a
result offers that is no action, or about a conditional that is dropped. -/
theorem warnings_cases (member : c ∈ warnings nodes edges s) :
    (∃ n ∈ nodes, n.kind = .action ∧ ref? nodes s.kept (first? edges n.id .actionResult) = none ∧
      ∃ message, c = Check.warning "dangling_action" message (some n.id)) ∨
    (∃ n ∈ nodes, ∃ target ∈ all edges n.id .resultActions, leadsToAction nodes target = false ∧
      ∃ message, c = Check.warning "non_action_target" message (some n.id)) ∨
    ∃ n ∈ nodes, n.kind = .conditional ∧ (s.dropped.lookup n.id).isSome = true ∧
      ∃ message, c = Check.warning "dropped_condition" message (some n.id) := by
  rcases List.mem_append.mp member with member | member
  · rcases List.mem_append.mp member with member | member
    · obtain ⟨n, there, member⟩ := List.mem_flatMap.mp member
      obtain ⟨there, kind⟩ := List.mem_filter.mp there
      obtain ⟨message, warned⟩ := actionWarnings_eq nodes edges s.kept n
      rw [warned] at member
      split at member
      next => cases member
      next none =>
        exact .inl ⟨n, there, by simpa [Node.isAction] using kind, by simpa using none, message,
          List.mem_singleton.mp member⟩
    · obtain ⟨n, there, member⟩ := List.mem_flatMap.mp member
      obtain ⟨target, offers, rfl⟩ := List.mem_map.mp member
      obtain ⟨offers, other⟩ := List.mem_filter.mp offers
      exact .inr (.inl ⟨n, List.mem_of_mem_filter there, target, offers, by simpa using other, _,
        rfl⟩)
  · obtain ⟨n, there, member⟩ := List.mem_flatMap.mp member
    obtain ⟨there, kind⟩ := List.mem_filter.mp there
    obtain ⟨message, warned⟩ := conditionWarnings_eq s.dropped n
    rw [warned] at member
    split at member
    next dropped =>
      exact .inr (.inr ⟨n, there, by simpa [Node.isConditional] using kind, dropped, message,
        List.mem_singleton.mp member⟩)
    next => cases member

theorem exists_dangling (there : n ∈ nodes) (kind : n.kind = .action)
    (none : ref? nodes s.kept (first? edges n.id .actionResult) = none) :
    ∃ message, Check.warning "dangling_action" message (some n.id) ∈ warnings nodes edges s := by
  obtain ⟨message, warned⟩ := actionWarnings_eq nodes edges s.kept n
  refine ⟨message,
    List.mem_append_left _ (List.mem_append_left _ (List.mem_flatMap.mpr ⟨n, ?_, ?_⟩))⟩
  · exact List.mem_filter.mpr ⟨there, by simp [Node.isAction, kind]⟩
  · simp [warned, none]

theorem exists_dropped (there : n ∈ nodes) (kind : n.kind = .conditional)
    (dropped : (s.dropped.lookup n.id).isSome = true) :
    ∃ message, Check.warning "dropped_condition" message (some n.id) ∈ warnings nodes edges s := by
  obtain ⟨message, warned⟩ := conditionWarnings_eq s.dropped n
  refine ⟨message, List.mem_append_right _ (List.mem_flatMap.mpr ⟨n, ?_, ?_⟩)⟩
  · exact List.mem_filter.mpr ⟨there, by simp [Node.isConditional, kind]⟩
  · simp [warned, dropped]

/-- The ids of the conditionals that warnings name as dropped. -/
def droppedIds (ws : List Check) : List String :=
  (ws.filter (·.name == "dropped_condition")).filterMap (·.node)

/-- The warnings name exactly the conditionals that are not kept. -/
theorem mem_droppedIds : id ∈ droppedIds (warnings nodes edges (Survey.ofGraph nodes edges)) ↔
    id ∈ conditionals nodes ∧ id ∉ (Survey.ofGraph nodes edges).kept := by
  rw [← (Survey.ofGraph_fair nodes edges).dropped_iff, droppedIds, List.mem_filterMap]
  constructor
  · rintro ⟨c, member, pinned⟩
    obtain ⟨member, named⟩ := List.mem_filter.mp member
    have named : c.name = "dropped_condition" := by simpa using named
    rcases warnings_cases member with ⟨n, -, -, -, message, rfl⟩ |
      ⟨n, -, target, -, -, message, rfl⟩ | ⟨n, -, -, dropped, message, rfl⟩
    · exact absurd named (show "dangling_action" ≠ "dropped_condition" by decide)
    · exact absurd named (show "non_action_target" ≠ "dropped_condition" by decide)
    · exact Option.some.inj pinned ▸ dropped
  · intro dropped
    obtain ⟨n, there, rfl, kind⟩ :=
      mem_conditionals.mp (((Survey.ofGraph_fair nodes edges).dropped_iff id).mp dropped).1
    obtain ⟨message, member⟩ := exists_dropped there kind dropped
    exact ⟨_, List.mem_filter.mpr ⟨member, rfl⟩, rfl⟩

end Warnings

/-- The dialogue begins where the first edge of the first entry leads. -/
theorem initial_eq_ok {r : Ref} : initial nodes edges kept = .ok r ↔
    ∃ entry, nodes.find? Node.isEntry = some entry ∧
      ref? nodes kept (first? edges entry.id .initialTarget) = some r := by
  rw [initial]
  cases nodes.find? Node.isEntry with
  | none => simp
  | some entry =>
      simp only [Option.some.injEq, exists_eq_left']
      cases first? edges entry.id .initialTarget with
      | none => simp [ref?]
      | some target =>
          dsimp only
          cases ref? nodes kept (some target) <;> simp

/-- The document of a graph that begins at a reference. -/
def documentOf (nodes : List Node) (edges : List Edge) (npc : String)
    (interaction : Option Interaction) (initial : Ref) : Document where
  npc
  interaction
  actions := actionRows nodes edges (Survey.ofGraph nodes edges).kept
  results := resultRows nodes edges
  conditions := conditionRows nodes edges (Survey.ofGraph nodes edges)
  initial

theorem compile_eq_compiled {npc : String} {interaction : Option Interaction} {d : Document}
    {ws : List Check} : compile nodes edges npc interaction = .compiled d ws ↔
      ∃ r, initial nodes edges (Survey.ofGraph nodes edges).kept = .ok r ∧
        documentOf nodes edges npc interaction r = d ∧
        warnings nodes edges (Survey.ofGraph nodes edges) = ws := by
  unfold compile
  dsimp only
  cases initial nodes edges (Survey.ofGraph nodes edges).kept with
  | error reason => simp
  | ok r => simp [documentOf]

/-- There is no document where there is no entry, where it is not connected, and where it leads to a
node that has no row or to none. -/
theorem compile_eq_empty {npc : String} {interaction : Option Interaction} {reason : EmptyReason} :
    compile nodes edges npc interaction = .empty reason ↔
      nodes.find? Node.isEntry = none ∧ reason = .noEntry ∨
        ∃ entry, nodes.find? Node.isEntry = some entry ∧
          (first? edges entry.id .initialTarget = none ∧ reason = .notConnected ∨
            ∃ target, first? edges entry.id .initialTarget = some target ∧
              ref? nodes (Survey.ofGraph nodes edges).kept (some target) = none ∧
              reason = .unusable target) := by
  rw [compile, initial]
  cases nodes.find? Node.isEntry with
  | none => simp [eq_comm]
  | some entry =>
      simp only [reduceCtorEq, false_and, Option.some.injEq, exists_eq_left', false_or]
      cases first? edges entry.id .initialTarget with
      | none => simp [eq_comm]
      | some target =>
          simp only [reduceCtorEq, false_and, Option.some.injEq, exists_eq_left', false_or]
          cases ref? nodes (Survey.ofGraph nodes edges).kept (some target) <;> simp [eq_comm]

end Compile

end Parley
