import Parley.Graph.Basic
import Parley.Json.Writer
import Parley.Log.Event

/-!
# Drafts

A working graph is kept as a draft: the stored form of the last state.  A draft lives in memory or
in a file.  The file is written beside its place and then moved onto it, so that a save that fails
leaves the former draft as it was.
-/

namespace Parley

/-- Where a draft is kept, with what is kept there. -/
inductive DraftStore where
  /-- In memory: the stored form, if there is one, and the number of saves. -/
  | memory (draft : Option Json) (saves : Nat)
  /-- In a file of a tree. -/
  | file (path : Path) (tree : FileTree)

namespace Draft

/-- Reads the draft in a file; nothing is there before the first save. -/
def load (tree : FileTree) (path : Path) : Except Failure (Option Json) :=
  if !tree.has path then .ok none
  else do
    let text ← tree.readText path
    match Json.read text with
    | .error e => .error (.notJson text e)
    | .ok (.obj fields) => pure (some (.obj fields))
    | .ok _ => .error (.notDraft path)

/-- The path at which a draft is written before it is moved into its place. -/
def besides (path : Path) : Path := path.addSuffix ".tmp"

/-- Writes a draft beside its place and moves it there. -/
def replace (tree : FileTree) (path : Path) (draft : Json) : FileTree × Except Failure FileTree :=
  match draft.text Json.Layout.document with
  | .error e => (tree, .error (.digits e))
  | .ok text =>
    match tree.write (besides path) text with
    | .error e => (tree, .error (.file e))
    | .ok written => (written, (written.move (besides path) path).mapError .file)

/-- Saves a draft in a file; answers the tree after it, in which a failed save leaves nothing
behind but the folders on the way, and what is reported. -/
def save (tree : FileTree) (path : Path) (draft : Json) :
    FileTree × Except Failure (List Log.Event) :=
  match tree.makeFolders path.parent with
  | (tree, .error e) => (tree, .error (.file e))
  | (tree, .ok ()) =>
    if path.names.isEmpty then (tree, .error (.noName path))
    else match replace tree path draft with
      | (_, .ok tree) => (tree, .ok [⟨Log.Logger.drafts, "draft_saved", .debug,
          [("path", .str path.text)]⟩])
      | (tree, .error e) =>
        if !tree.has (besides path) then (tree, .error e)
        else match tree.remove (besides path) with
          | .ok tree => (tree, .error e)
          | .error e => (tree, .error (.file e))

end Draft

namespace DraftStore

/-- The draft that is kept. -/
def load : DraftStore → Except Failure (Option Json)
  | .memory draft _ => .ok draft
  | .file path tree => Draft.load tree path

/-- Saves a draft; answers the store after it. -/
def save (draft : Json) : DraftStore → DraftStore × Except Failure (List Log.Event)
  | .memory _ saves => (.memory (some draft) (saves + 1), .ok [])
  | .file path tree =>
    let (tree, r) := Draft.save tree path draft
    (.file path tree, r)

/-- The graph whose draft is kept, or an empty one before the first save. -/
def open? (store : DraftStore) : Except Failure Graph := do
  match ← store.load with
  | none => pure Graph.empty
  | some draft => Graph.ofJson draft

end DraftStore

end Parley
