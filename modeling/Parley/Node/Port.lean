import Parley.Node.Kind

/-!
# Ports and the connections between them

A port has a role and no place.  Each kind of node has fixed outputs and inputs, and each output
names the inputs that it may lead to.  `Port.problem?` explains why a connection is not allowed.
-/

namespace Parley

/-- A named end of a connection. -/
inductive Port where
  | initialTarget
  | actionOwner
  | actionResult
  | nodeTrigger
  | resultActions
  | conditionTrue
  | conditionFalse
deriving DecidableEq

namespace Port

/-- The name under which a port is stored. -/
def name : Port → String
  | .initialTarget => "initial_target"
  | .actionOwner => "action_owner"
  | .actionResult => "action_result"
  | .nodeTrigger => "node_trigger"
  | .resultActions => "result_actions"
  | .conditionTrue => "condition_true"
  | .conditionFalse => "condition_false"

/-- The ports from which connections leave a node of a kind. -/
def outputs : Kind → List Port
  | .entry => [.initialTarget]
  | .action => [.actionResult]
  | .result => [.resultActions]
  | .conditional => [.conditionTrue, .conditionFalse]

/-- The ports at which connections reach a node of a kind. -/
def inputs : Kind → List Port
  | .entry => []
  | .action => [.actionOwner]
  | .result => [.nodeTrigger]
  | .conditional => [.nodeTrigger]

/-- The inputs that an output may lead to. -/
def targets : Port → List Port
  | .initialTarget => [.nodeTrigger]
  | .actionResult => [.nodeTrigger]
  | .resultActions => [.actionOwner]
  | .conditionTrue => [.nodeTrigger]
  | .conditionFalse => [.nodeTrigger]
  | .actionOwner => []
  | .nodeTrigger => []

/-- The outputs that hold at most one connection in a sound graph. -/
def singles : List Port := [.initialTarget, .actionResult, .conditionTrue, .conditionFalse]

/-- Whether a name is that of an output which holds at most one connection. -/
def isSingle (handle : String) : Bool := singles.any (·.name == handle)

/-- Why two ports cannot be connected. -/
inductive Problem where
  | noOutput (kind : Kind) (handle : String)
  | noInput (kind : Kind) (handle : String)
  | mismatch (source target : String)
deriving DecidableEq

/-- What is reported about a connection that is not allowed. -/
def Problem.message : Problem → String
  | .noOutput kind handle => kind.word ++ " node has no output port '" ++ handle ++ "'"
  | .noInput kind handle => kind.word ++ " node has no input port '" ++ handle ++ "'"
  | .mismatch source target => "'" ++ source ++ "' cannot connect to '" ++ target ++ "'"

/-- Why a connection between two kinds of nodes is not allowed, if it is not. -/
def problem? (source : Kind) (sourceHandle : String) (target : Kind) (targetHandle : String) :
    Option Problem :=
  match (outputs source).find? (·.name == sourceHandle) with
  | none => some (.noOutput source sourceHandle)
  | some output =>
    if !(inputs target).any (·.name == targetHandle) then some (.noInput target targetHandle)
    else if !output.targets.any (·.name == targetHandle) then
      some (.mismatch sourceHandle targetHandle)
    else none

end Port

end Parley
