import Parley.Check
import Parley.Document.Basic
import Parley.Node.Edge

/-!
# Compiling a graph into a document

Edges are only looked up here and never judged: the first edge on a port that holds one connection
wins, and of nodes with one id the last one.  What does not fit into the document is left out with
a warning, and only a graph without a usable entry gives no document.

A conditional is kept if both of its branches lead to a result or to a conditional that is kept.
`Survey.settle` finds the conditionals that are kept by dropping the others, one after the other,
until nothing changes; so conditionals that lead to each other in a circle are kept together.
-/

namespace Parley

namespace Compile

/-- The first node that an edge from a port of a node leads to. -/
def first? (edges : List Edge) (source : String) (port : Port) : Option String :=
  (edges.find? fun e => e.source == source && e.sourceHandle == port.name).map (·.target)

/-- All nodes that edges from a port of a node lead to. -/
def all (edges : List Edge) (source : String) (port : Port) : List String :=
  (edges.filter fun e => e.source == source && e.sourceHandle == port.name).map (·.target)

/-- The last node with an id. -/
def node? (nodes : List Node) (id : String) : Option Node :=
  nodes.reverse.find? (·.id == id)

/-- The kind of the last node with an id. -/
def kind? (nodes : List Node) (id : String) : Option Kind := (node? nodes id).map Node.kind

/-- Actions with the preferred one first, if it is among them, then those that an order lists, in
its order, and then the others as they come. -/
def orderActions (connected : List String) (preferred : Option String) (order : List String) :
    List String :=
  let others := (connected.filter (some · != preferred)).mergeSort fun a b =>
    decide (order.idxOf a ≤ order.idxOf b)
  match preferred with
  | some p => if connected.contains p then p :: others else others
  | none => others

/-- Why a conditional is dropped. -/
inductive DropReason where
  | notConnected (port : Port)
  | leadsToDropped (port : Port) (target : String)
  | unusable (port : Port)
deriving DecidableEq

/-- What is reported about a dropped conditional. -/
def DropReason.message : DropReason → String
  | .notConnected port => "'" ++ port.name ++ "' is not connected"
  | .leadsToDropped port target =>
    "'" ++ port.name ++ "' leads to dropped condition '" ++ target ++ "'"
  | .unusable port => "'" ++ port.name ++ "' does not lead to a result or condition"

/-- What is wrong with a branch of a conditional while the given ids are kept. -/
def branchFlaw? (nodes : List Node) (edges : List Edge) (kept : List String) (id : String)
    (port : Port) : Option DropReason :=
  match first? edges id port with
  | none => some (.notConnected port)
  | some target =>
    match kind? nodes target with
    | some .result => none
    | some .conditional =>
      if kept.contains target then none else some (.leadsToDropped port target)
    | _ => some (.unusable port)

/-- What is wrong with a conditional while the given ids are kept; the branch for "true" is looked
at first. -/
def flaw? (nodes : List Node) (edges : List Edge) (kept : List String) (id : String) :
    Option DropReason :=
  (branchFlaw? nodes edges kept id .conditionTrue).or
    (branchFlaw? nodes edges kept id .conditionFalse)

/-- The conditionals that are kept so far, and the dropped ones with their reasons. -/
structure Survey where
  kept : List String
  dropped : List (String × DropReason) := []

namespace Survey

/-- Looks at one conditional and drops it if something is wrong with it. -/
def visit (nodes : List Node) (edges : List Edge) (s : Survey) (id : String) : Survey :=
  if s.kept.contains id then
    match flaw? nodes edges s.kept id with
    | some reason => ⟨s.kept.filter (· != id), s.dropped ++ [(id, reason)]⟩
    | none => s
  else s

/-- Looks at all conditionals once. -/
def pass (nodes : List Node) (edges : List Edge) (ids : List String) (s : Survey) : Survey :=
  ids.foldl (visit nodes edges) s

/-- Looks at all conditionals again and again, until nothing is dropped. -/
def settle (nodes : List Node) (edges : List Edge) (ids : List String) (s : Survey) : Survey :=
  let next := pass nodes edges ids s
  if next.kept.length < s.kept.length then settle nodes edges ids next else next
termination_by s.kept.length

/-- The survey of a graph. -/
def ofGraph (nodes : List Node) (edges : List Edge) : Survey :=
  let ids := (nodes.filter Node.isConditional).map (·.id)
  settle nodes edges ids { kept := ids.eraseDups }

end Survey

/-- The reference to a node, if it has a row that can be referred to. -/
def ref? (nodes : List Node) (kept : List String) (target : Option String) : Option Ref :=
  match target with
  | none => none
  | some id =>
    match kind? nodes id with
    | some .result => some ⟨id, .result⟩
    | some .conditional => if kept.contains id then some ⟨id, .condition⟩ else none
    | _ => none

/-- The point of a place; a value that is no point stands for the origin. -/
def pointOf (n : Node) : Position :=
  match n.position.toPosition with
  | .ok p => p
  | .faults _ => {}

/-- The row of an action. -/
def actionRow (nodes : List Node) (edges : List Edge) (kept : List String) (n : Node)
    (d : ActionData) : ActionRow where
  id := n.id
  label := d.label
  target := ref? nodes kept (first? edges n.id .actionResult)
  position := pointOf n
  handle := d.handle

/-- The warning on an action that leads to nothing. -/
def actionWarnings (nodes : List Node) (edges : List Edge) (kept : List String) (n : Node) :
    List Check :=
  let target := first? edges n.id .actionResult
  if (ref? nodes kept target).isSome then []
  else
    let detail := match target with
      | none => "has no result"
      | some id => "leads to unusable node '" ++ id ++ "'"
    [Check.warning "dangling_action" ("Action '" ++ n.id ++ "' " ++ detail) (some n.id)]

/-- Whether the last node with an id is an action. -/
def leadsToAction (nodes : List Node) (id : String) : Bool :=
  kind? nodes id == some .action

/-- The actions that a result offers, each once, in the order of the edges. -/
def offered (nodes : List Node) (edges : List Edge) (id : String) : List String :=
  ((all edges id .resultActions).filter (leadsToAction nodes)).eraseDups

/-- The row of a result. -/
def resultRow (nodes : List Node) (edges : List Edge) (n : Node) (d : ResultData) : ResultRow where
  id := n.id
  message := d.message
  preferred := d.preferred
  actions := orderActions (offered nodes edges n.id) d.preferred d.order
  close := d.close
  executors := d.executors
  position := pointOf n
  handle := d.handle

/-- The warnings on what a result offers that is not an action. -/
def resultWarnings (nodes : List Node) (edges : List Edge) (n : Node) : List Check :=
  ((all edges n.id .resultActions).filter (!leadsToAction nodes ·)).map fun target =>
    Check.warning "non_action_target"
      ("Result '" ++ n.id ++ "' offers '" ++ target ++ "', which is not an action") (some n.id)

/-- The row of a conditional whose branches both lead somewhere. -/
def conditionRow? (nodes : List Node) (edges : List Edge) (kept : List String) (n : Node)
    (d : ConditionalData) : Option ConditionRow :=
  match ref? nodes kept (first? edges n.id .conditionTrue),
    ref? nodes kept (first? edges n.id .conditionFalse) with
  | some onTrue, some onFalse =>
    some {
      id := n.id
      value := d.value
      condition := d.condition
      objective := d.objective
      onTrue
      onFalse
      position := pointOf n
      handle := d.handle }
  | _, _ => none

/-- The warning on a dropped conditional. -/
def conditionWarnings (dropped : List (String × DropReason)) (n : Node) : List Check :=
  match dropped.lookup n.id with
  | some reason =>
    [Check.warning "dropped_condition"
      ("Condition '" ++ n.id ++ "' was left out: " ++ reason.message) (some n.id)]
  | none => []

/-- The action rows, in the order of the nodes. -/
def actionRows (nodes : List Node) (edges : List Edge) (kept : List String) : List ActionRow :=
  nodes.filterMap fun n =>
    match n.payload with
    | .action d => some (actionRow nodes edges kept n d)
    | _ => none

/-- The result rows, in the order of the nodes. -/
def resultRows (nodes : List Node) (edges : List Edge) : List ResultRow :=
  nodes.filterMap fun n =>
    match n.payload with
    | .result d => some (resultRow nodes edges n d)
    | _ => none

/-- The condition rows, in the order of the nodes. -/
def conditionRows (nodes : List Node) (edges : List Edge) (s : Survey) : List ConditionRow :=
  nodes.filterMap fun n =>
    match n.payload with
    | .conditional d =>
      if (s.dropped.lookup n.id).isSome then none else conditionRow? nodes edges s.kept n d
    | _ => none

/-- The warnings: on actions, on results and on conditionals, each in the order of the nodes. -/
def warnings (nodes : List Node) (edges : List Edge) (s : Survey) : List Check :=
  (nodes.filter Node.isAction).flatMap (actionWarnings nodes edges s.kept) ++
    (nodes.filter Node.isResult).flatMap (resultWarnings nodes edges) ++
    (nodes.filter Node.isConditional).flatMap (conditionWarnings s.dropped)

/-- Why there is nothing to export. -/
inductive EmptyReason where
  | noEntry
  | notConnected
  | unusable (target : String)
deriving DecidableEq

/-- What is reported about a graph without a usable entry. -/
def EmptyReason.message : EmptyReason → String
  | .noEntry => "graph has no entry node"
  | .notConnected => "entry node is not connected"
  | .unusable target =>
    "entry node leads to '" ++ target ++ "', which is not an exportable result or condition"

/-- Where the dialogue begins. -/
def initial (nodes : List Node) (edges : List Edge) (kept : List String) :
    Except EmptyReason Ref :=
  match nodes.find? Node.isEntry with
  | none => .error .noEntry
  | some entry =>
    match first? edges entry.id .initialTarget with
    | none => .error .notConnected
    | some target =>
      match ref? nodes kept (some target) with
      | none => .error (.unusable target)
      | some r => .ok r

end Compile

/-- What compiling a graph comes to. -/
inductive Outcome where
  /-- There is nothing to export. -/
  | empty (reason : Compile.EmptyReason)
  | compiled (document : Document) (warnings : List Check)
deriving DecidableEq

/-- Compiles nodes and edges into a document for a character. -/
def compile (nodes : List Node) (edges : List Edge) (npc : String)
    (interaction : Option Interaction) : Outcome :=
  let s := Compile.Survey.ofGraph nodes edges
  match Compile.initial nodes edges s.kept with
  | .error reason => .empty reason
  | .ok initial =>
    .compiled
      { npc
        interaction
        actions := Compile.actionRows nodes edges s.kept
        results := Compile.resultRows nodes edges
        conditions := Compile.conditionRows nodes edges s
        initial }
      (Compile.warnings nodes edges s)

namespace Compile

/-- The faults of the place of a node, as a row of the given name reports them. -/
def placeFault? (name : String) (n : Node) : Option Invalid :=
  match n.position.toPosition.under (.name "position") with
  | .ok _ => none
  | .faults found => some ⟨name, found⟩

/-- The faults of the first row whose place is a value that is no point. -/
def misplaced? (nodes : List Node) (s : Survey) : Option Invalid :=
  ((nodes.filter Node.isAction).findSome? (placeFault? "ActionRow")).or
    (((nodes.filter Node.isResult).findSome? (placeFault? "ResultRow")).or
      ((nodes.filter fun n => n.isConditional && (s.dropped.lookup n.id).isNone).findSome?
        (placeFault? "ConditionRow")))

end Compile

/-- Compiles nodes and edges for a character whose id is any value.  A row whose place is no point
and an id that is no text are faults of the document, if there is one. -/
def compileUnread (nodes : List Node) (edges : List Edge) (npc : Json)
    (interaction : Option Interaction) : Except Invalid Outcome :=
  match compile nodes edges "" interaction with
  | .empty reason => .ok (.empty reason)
  | .compiled document warnings =>
    match Compile.misplaced? nodes (Compile.Survey.ofGraph nodes edges) with
    | some e => .error e
    | none =>
      ((Checked.text npc).under (.name "npc")).titled Document.title |>.map fun npc =>
        .compiled { document with npc } warnings

end Parley
