import Parley.Failure
import Parley.Node.Basic

/-!
# New nodes and executors

New nodes have the standard data of their kind.  An id that the caller does not give is drawn from
a supply, which goes on from draw to draw; nothing here looks at a graph.
-/

namespace Parley

/-- A supply of ids: the name of each draw, counted from zero, and the number of draws so far.  No
name is empty. -/
structure IdSupply where
  name : Nat → String
  name_ne : ∀ n, name n ≠ ""
  drawn : Nat := 0

namespace IdSupply

-- Powers of natural numbers are those of the core library, whatever else is imported.
attribute [local instance (2000)] instPowNat

/-- The written form of a universally unique id of the random kind that holds a number, of which
122 bits count. -/
def spell (n : Nat) : String :=
  let part (width bits shift : Nat) : List Char := Text.hex width (n / 2 ^ shift % 2 ^ bits)
  let marked (bits shift mark : Nat) : List Char :=
    Text.hex 4 (mark * 2 ^ bits + n / 2 ^ shift % 2 ^ bits)
  "-".intercalate ([part 8 32 90, part 4 16 74, marked 12 62 4, marked 14 48 2,
    part 12 48 0].map String.ofList)

theorem spell_ne (n : Nat) : spell n ≠ "" := by
  simp only [spell, List.map_cons, String.intercalate_cons_cons, ne_eq, String.append_eq_empty_iff]
  rintro ⟨⟨-, dash⟩, -⟩
  exact absurd dash (by decide)

/-- Ids that hold the numbers from a first one on. -/
def countingFrom (first : Nat) : IdSupply where
  name n := spell (first + n)
  name_ne n := spell_ne (first + n)

/-- The next id. -/
def next (s : IdSupply) : String := s.name s.drawn

/-- The supply after a draw. -/
def advance (s : IdSupply) : IdSupply := { s with drawn := s.drawn + 1 }

end IdSupply

/-- How a place is given. -/
inductive PlaceArgument where
  /-- Not at all: the origin. -/
  | omitted
  /-- By a row of coordinates. -/
  | coordinates (row : List Json)
  /-- By a value that is read as a point where a node is made, and taken on trust by a move. -/
  | value (v : Json)
  /-- By a point. -/
  | point (p : Position)

namespace PlaceArgument

/-- Reads the first two coordinates of a row. -/
def readCoordinates : List Json → Except Failure Position
  | x :: y :: _ =>
    (Checked.titled "Position" (Position.mk <$> (Checked.number x).under (.name "x")
      <*> (Checked.number y).under (.name "y"))).mapError .invalid
  | _ => .error .noCoordinate

/-- The place without a look at a value that has to be read. -/
def settle : PlaceArgument → Except Failure Placement
  | .omitted => .ok (.point {})
  | .coordinates row => (readCoordinates row).map .point
  | .value v => .ok (.unread v)
  | .point p => .ok (.point p)

end PlaceArgument

namespace Node

/-- Makes a node of a kind other than the entry. -/
def build (kind : Kind) (id : Json) (position : Placement) : Except Failure Node :=
  (Checked.titled (recordName kind)
    ((fun id (p : Position) => { id, position := .point p, payload := .ofKind kind }) <$>
      (Checked.nonemptyText id).under (.name "id") <*>
      position.toPosition.under (.name "position"))).mapError .invalid

/-- Makes a node of the kind that a value names.  The entry always is the same; for the other kinds
an id that is void is replaced by a drawn one.  The supply is answered after the draws, whether or
not there is a node. -/
def create (kind : Json) (position : PlaceArgument) (id : Json) (supply : IdSupply) :
    Except Failure Node × IdSupply :=
  match Kind.ofJson? kind with
  | none => (.error (.unknownKind kind), supply)
  | some .entry => (.ok entry, supply)
  | some kind =>
    match position.settle with
    | .error e => (.error e, supply)
    | .ok position =>
      if id.isVoid then (build kind (.str supply.next) position, supply.advance)
      else (build kind id position, supply)

end Node

namespace Executor

/-- Makes an executor of the type that a value names. -/
def create (type : Json) : Except Failure Executor :=
  match ExecutorType.ofJson? type with
  | none => .error (.unknownExecutor type)
  | some type => .ok (ofType type)

end Executor

end Parley
