import Parley.Text.Digits
import Parley.Text.Similar

/-!
# Refused edits

The ways in which an edit would break a dialogue graph.  `message` states the cause in one line;
`describe` is the longer text that is shown to the author, with hints on what to do instead.
-/

namespace Parley

/-- The ends of a connection that do not exist. -/
inductive MissingEnd where
  | source
  | target
  | both
deriving DecidableEq

/-- The word under which the missing ends are reported. -/
def MissingEnd.word : MissingEnd → String
  | .source => "source"
  | .target => "target"
  | .both => "both"

/-- Why an edit of a graph is refused. -/
inductive GraphError where
  /-- There is no node with the id. -/
  | noNode (id : String) (available : List String) (context : String)
  /-- The id is taken. -/
  | taken (id : String)
  /-- The node is the entry, to which the operation is not applied. -/
  | fixed (id : String) (operation : String)
  /-- An end of a connection does not exist. -/
  | noEnd (source target : String) (missing : MissingEnd) (available : List String)
  /-- Two ports cannot be connected. -/
  | refused (source sourceHandle target targetHandle reason : String)
  /-- An entry is added to a graph, which has one. -/
  | secondEntry
  /-- A graph is built with more than one entry. -/
  | entries (count : Nat)
deriving DecidableEq

namespace GraphError

/-- The cause in one line. -/
def message : GraphError → String
  | .noNode id _ context =>
    "Node '" ++ id ++ "' not found" ++ (if context.isEmpty then "" else " (" ++ context ++ ")")
  | .taken id => "Node '" ++ id ++ "' already exists"
  | .fixed id operation => "Cannot " ++ operation ++ " protected node '" ++ id ++ "'"
  | .noEnd source target .both _ =>
    "Edge endpoints not found: '" ++ source ++ "' and '" ++ target ++ "'"
  | .noEnd source _ .source _ => "Edge source not found: '" ++ source ++ "'"
  | .noEnd _ target .target _ => "Edge target not found: '" ++ target ++ "'"
  | .refused source sourceHandle target targetHandle reason =>
    "Cannot connect " ++ source ++ "." ++ sourceHandle ++ " -> " ++ target ++ "." ++
      targetHandle ++ ": " ++ reason
  | .secondEntry => "Graph already has an entry node"
  | .entries count =>
    "Graph has " ++ Text.ofNat count ++ " entry nodes; exactly one is allowed"

/-- The ids that an author may have meant. -/
def suggestions : GraphError → List String
  | .noNode id available _ => Text.similar id available
  | _ => []

/-- The line on ids that are known, where no similar one was found. -/
def knownIds (available : List String) : String :=
  let shown := (available.mergeSort fun a b => decide (a ≤ b)).take 10
  let more := available.length - shown.length
  "Known ids: " ++ ", ".intercalate shown ++
    (if more = 0 then "" else " (+" ++ Text.ofNat more ++ " more)")

/-- The line on ids that are similar to a missing one, if there are any. -/
def meant (available : List String) (id : String) : List String :=
  match Text.similar id available with
  | [] => []
  | ids => ["'" ++ id ++ "' -> did you mean: " ++ ", ".intercalate ids ++ "?"]

/-- The cause with hints for the author. -/
def describe (e : GraphError) : String :=
  match e with
  | .noNode _ available _ =>
    let hint := match e.suggestions with
      | [] => if available.isEmpty then [] else [knownIds available]
      | ids => ["Did you mean: " ++ ", ".intercalate ids ++ "?"]
    "\n".intercalate ((e.message ++ ".") :: hint)
  | .taken id =>
    "A node with id '" ++ id ++ "' already exists.\n" ++
      "Omit the id to have one generated, or pick a different one."
  | .fixed id operation =>
    "The entry node '" ++ id ++ "' cannot be " ++ operation ++ "d.\n" ++
      "Every dialogue has exactly one entry node at the origin."
  | .noEnd source target missing available =>
    let ids := match missing with
      | .source => [source]
      | .target => [target]
      | .both => [source, target]
    "\n".intercalate ((e.message ++ ".") :: ids.flatMap (meant available) ++
      ["Create the nodes first, then connect them."])
  | .refused _ _ _ _ _ =>
    e.message ++ ".\n" ++
      "Actions lead to results or conditions (action_result -> node_trigger); " ++
      "results offer actions (result_actions -> action_owner); " ++
      "conditions branch to results or conditions (condition_true/false -> node_trigger)."
  | .secondEntry => e.message
  | .entries _ => e.message

end GraphError

end Parley
