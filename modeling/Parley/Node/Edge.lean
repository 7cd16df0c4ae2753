import Parley.Node.Port

/-!
# Edges

A connection from a port of one node to a port of another.  Its id is spelled from its four ends.
-/

namespace Parley

/-- A connection between two ports. -/
structure Edge where
  id : String
  source : String
  sourceHandle : String
  target : String
  targetHandle : String
deriving DecidableEq

namespace Edge

/-- The id of a connection with given ends. -/
def idOf (source sourceHandle target targetHandle : String) : String :=
  "xy-edge__" ++ source ++ sourceHandle ++ "-" ++ target ++ targetHandle

/-- The connection with given ends. -/
def make (source sourceHandle target targetHandle : String) : Edge :=
  ⟨idOf source sourceHandle target targetHandle, source, sourceHandle, target, targetHandle⟩

/-- The connection of two ports. -/
def join (source : String) (output : Port) (target : String) (input : Port) : Edge :=
  make source output.name target input.name

/-- The stored form of an edge. -/
def toJson (e : Edge) : Json :=
  .obj [("id", .str e.id), ("source", .str e.source), ("sourceHandle", .str e.sourceHandle),
    ("target", .str e.target), ("targetHandle", .str e.targetHandle)]

/-- Reads an edge.  The two handles may also come under their long keys. -/
def read : Json → Checked Edge := Checked.record "Edge" fun fields =>
  Edge.mk <$> Checked.needed fields "id" Checked.text
    <*> Checked.needed fields "source" Checked.text
    <*> Checked.needed fields (Checked.keyOf fields "sourceHandle" "source_handle") Checked.text
    <*> Checked.needed fields "target" Checked.text
    <*> Checked.needed fields (Checked.keyOf fields "targetHandle" "target_handle") Checked.text

/-- Reads the four ends of an edge and makes it. -/
def readEnds (source sourceHandle target targetHandle : Json) : Checked Edge :=
  make <$> (Checked.text source).under (.name "source")
    <*> (Checked.text sourceHandle).under (.name "source_handle")
    <*> (Checked.text target).under (.name "target")
    <*> (Checked.text targetHandle).under (.name "target_handle")

/-- The title under which faults of an edge are reported. -/
def title : String := "Edge"

/-- Whether an edge leaves or reaches a node. -/
def touches (id : String) (e : Edge) : Bool := e.source == id || e.target == id

end Edge

end Parley
