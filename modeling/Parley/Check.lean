import Parley.Text.Digits

/-!
# Checks

What the compiler and the inspection have to say about a graph: single checks, each perhaps pinned
to a node, and roll-ups of a list of them.
-/

namespace Parley

/-- How a check came out. -/
inductive Severity where
  | pass
  | warn
  | fail
deriving DecidableEq

/-- The word under which a severity is reported. -/
def Severity.word : Severity → String
  | .pass => "pass"
  | .warn => "warn"
  | .fail => "fail"

/-- The outcome of one check. -/
structure Check where
  name : String
  severity : Severity
  message : String := ""
  /-- The id of the node that the check is about, if it is about one. -/
  node : Option String := none
deriving DecidableEq

namespace Check

/-- A check that came out well. -/
def passed (name message : String) : Check := ⟨name, .pass, message, none⟩

/-- A warning. -/
def warning (name message : String) (node : Option String) : Check := ⟨name, .warn, message, node⟩

/-- A failure. -/
def failure (name message : String) (node : Option String) : Check := ⟨name, .fail, message, node⟩

/-- Whether there is a failure among the checks. -/
def anyFailure (checks : List Check) : Bool := checks.any (·.severity == .fail)

/-- Whether there is a warning among the checks. -/
def anyWarning (checks : List Check) : Bool := checks.any (·.severity == .warn)

/-- The checks that are pinned to a node. -/
def ofNode (checks : List Check) (id : String) : List Check := checks.filter (·.node == some id)

/-- The number of checks of a severity with its label, if there are any. -/
def tally (checks : List Check) (severity : Severity) (label : String) : List String :=
  match checks.countP (·.severity == severity) with
  | 0 => []
  | n => [Text.ofNat n ++ " " ++ label]

/-- The numbers of failures, warnings and passes in one line; empty if there are no checks. -/
def summary (checks : List Check) : String :=
  ", ".intercalate (tally checks .fail "failed" ++ tally checks .warn "warnings" ++
    tally checks .pass "passed")

end Check

end Parley
