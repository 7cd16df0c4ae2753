import Parley.Graph.Draft
import Parley.Graph.Edit

/-!
# Editing sessions

A session edits a graph and, if it has a store, saves the graph there as it is opened and after
each change.  An edit that changes the graph counts as a change even if the save that follows it
fails; the answer then is the failure of the save.
-/

namespace Parley

/-- A graph under edit. -/
structure Session where
  graph : Graph
  supply : IdSupply
  /-- Where the graph is saved, if it is. -/
  store : Option DraftStore := none
  /-- The number of changes so far. -/
  changes : Nat := 0

namespace Session

/-- Saves the graph, if there is a store for it; answers what is reported. -/
def save (s : Session) : Session × Except Failure (List Log.Event) :=
  match s.store with
  | none => (s, .ok [])
  | some store =>
    let (store, r) := store.save s.graph.toJson
    ({ s with store := some store }, r)

/-- Opens a session on the graph in a store, or on an empty graph if nothing was saved there, and
saves it. -/
def start (store : DraftStore) (supply : IdSupply) :
    Except Failure (Session × Except Failure (List Log.Event)) :=
  store.open?.map fun graph => save { graph, supply, store := some store }

/-- Applies an edit and saves the graph if it changed.  Answers what the edit answers, or why the
save failed, and what is reported. -/
def edit (s : Session) (e : Edit) : Session × Except Failure (EditAnswer × List Log.Event) :=
  let done := s.graph.edit s.supply e
  let s := { s with graph := done.graph, supply := done.supply }
  if done.changed then
    match { s with changes := s.changes + 1 }.save with
    | (s, .error e) => (s, .error e)
    | (s, .ok events) => (s, done.answer.map (·, events))
  else (s, done.answer.map (·, []))

end Session

end Parley
