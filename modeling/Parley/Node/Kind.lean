import Parley.Record.Values

/-!
# Kinds of nodes, sides and operators

The three enumerations of a dialogue graph with the words under which they are stored.
-/

namespace Parley

/-- What a node of a dialogue is. -/
inductive Kind where
  /-- Where the dialogue begins. -/
  | entry
  /-- Something the player may choose. -/
  | action
  /-- Something the character answers. -/
  | result
  /-- A branch on a comparison. -/
  | conditional
deriving DecidableEq

namespace Kind

/-- The word under which a kind is stored. -/
def word : Kind → String
  | .entry => "initial"
  | .action => "action"
  | .result => "result"
  | .conditional => "conditional"

/-- All kinds, in the order in which they are listed. -/
def all : List Kind := [.entry, .action, .result, .conditional]

/-- The kind that a value names. -/
def ofJson? : Json → Option Kind
  | .str s => all.find? (·.word == s)
  | _ => none

theorem ofJson?_word (k : Kind) : ofJson? (.str k.word) = some k := by
  cases k <;> decide

end Kind

/-- The side of a node on which a port is drawn. -/
inductive Side where
  | left
  | right
deriving DecidableEq

namespace Side

/-- The word under which a side is stored. -/
def word : Side → String
  | .left => "left"
  | .right => "right"

/-- The sides by their words. -/
def words : List (String × Side) := [left, right].map fun s => (s.word, s)

/-- Reads a side. -/
def read : Json → Checked Side := Checked.word words

/-- The stored form of a side. -/
def toJson (s : Side) : Json := .str s.word

end Side

/-- The comparison of a conditional. -/
inductive Operator where
  | equal
  | notEqual
  | greaterThan
  | greaterThanOrEqual
  | lessThan
  | lessThanOrEqual
deriving DecidableEq

namespace Operator

/-- The word under which an operator is stored. -/
def word : Operator → String
  | .equal => "equal"
  | .notEqual => "not_equal"
  | .greaterThan => "greater_than"
  | .greaterThanOrEqual => "greater_than_or_equal"
  | .lessThan => "less_than"
  | .lessThanOrEqual => "less_than_or_equal"

/-- The operators by their words. -/
def words : List (String × Operator) :=
  [equal, notEqual, greaterThan, greaterThanOrEqual, lessThan, lessThanOrEqual].map fun o =>
    (o.word, o)

/-- Reads an operator. -/
def read : Json → Checked Operator := Checked.word words

/-- The stored form of an operator. -/
def toJson (o : Operator) : Json := .str o.word

end Operator

end Parley
