import Parley.Record.Fault

/-!
# Readings that gather faults

`Checked α` is a value or the faults that kept it from being read.  Readings are put together by
`<*>`, which keeps the faults of both sides in their order; a reading of a record thus reports the
faults of all its fields at once.
-/

namespace Parley

/-- A value, or all the faults of its source. -/
inductive Checked (α : Type) where
  | ok (value : α)
  | faults (found : List Fault)

namespace Checked

variable {α β : Type}

/-- A single fault at the value itself. -/
def fault (defect : Defect) : Checked α := .faults [.here defect]

/-- Changes the value that is read. -/
def map (f : α → β) : Checked α → Checked β
  | .ok a => .ok (f a)
  | .faults found => .faults found

/-- Applies a function that is read to a value that is read. -/
def ap : Checked (α → β) → Checked α → Checked β
  | .ok f, .ok a => .ok (f a)
  | .ok _, .faults found => .faults found
  | .faults found, .ok _ => .faults found
  | .faults found, .faults more => .faults (found ++ more)

instance : Functor Checked := ⟨map, fun a => map fun _ => a⟩

instance : Applicative Checked where
  pure := .ok
  seq f a := ap f (a ())

/-- Reads on with a value, or stops at the faults so far. -/
def andThen (x : Checked α) (f : α → Checked β) : Checked β :=
  match x with
  | .ok a => f a
  | .faults found => .faults found

/-- The same reading seen from one step further out. -/
def under (step : Step) : Checked α → Checked α
  | .ok a => .ok a
  | .faults found => .faults (found.map (Fault.under step))

/-- The faults of a reading, seen from one named step further out. -/
def faultsUnder (x : Checked α) (key : String) : List Fault :=
  match x.under (.name key) with
  | .ok _ => []
  | .faults found => found

/-- Gives the faults of a reading a title. -/
def titled (title : String) : Checked α → Except Invalid α
  | .ok a => .ok a
  | .faults found => .error ⟨title, found⟩

/-- Reads every item of a list, the first one at the given position. -/
def items (read : Json → Checked α) (position : Nat) : List Json → Checked (List α)
  | [] => .ok []
  | v :: vs => List.cons <$> (read v).under (.index position) <*> items read (position + 1) vs

/-- Reads a list. -/
def list (read : Json → Checked α) : Json → Checked (List α)
  | .arr vs => items read 0 vs
  | _ => fault .notList

/-- Reads a record of the given name from the fields of an object. -/
def record (name : String) (read : Fields → Checked α) : Json → Checked α
  | .obj fields => read fields
  | _ => fault (.notRecord name)

/-- Reads the field under a key, or takes a given value where there is none. -/
def field (fields : Fields) (key : String) (read : Json → Checked α) (absent : α) : Checked α :=
  match fields.get? key with
  | some v => (read v).under (.name key)
  | none => .ok absent

/-- Reads the field under a key, which has to be there. -/
def needed (fields : Fields) (key : String) (read : Json → Checked α) : Checked α :=
  match fields.get? key with
  | some v => (read v).under (.name key)
  | none => (fault .missing).under (.name key)

/-- The key under which a field with two keys is found, the first one if neither is there. -/
def keyOf (fields : Fields) (first second : String) : String :=
  if !fields.has first && fields.has second then second else first

/-- Reads null as nothing and all else by `read`. -/
def optional (read : Json → Checked α) : Json → Checked (Option α)
  | .null => .ok none
  | v => some <$> read v

end Checked

end Parley
