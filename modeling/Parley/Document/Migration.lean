import Parley.Document.Compile
import Parley.Failure
import Parley.Log.Event

/-!
# Older documents

Documents of two older versions are brought into the present form.  The version shows in the fields
that are there: the first one stored the graph of the editor, the second one placed the character
by a bare location.  Values that the present form keeps pass through as they came; whether they fit
is found out when the document is read.

In every version the entry may be spelled in several ways: as a reference, as a reference without a
type, as a bare id, or by a flag on a row.
-/

namespace Parley

/-- Why a document is of no known version. -/
inductive FormatError where
  | notObject (type : String)
  | noRows (key : String)
  | badLocation
  | noEditorGraph
  /-- A node of the graph of the editor, as it is shown, is no object. -/
  | badEditorNode (shown : String)
  /-- The graph of the editor cannot be read, for the reported reason. -/
  | unreadable (report : String)
  | emptyGraph (reason : Compile.EmptyReason)
  | noEntry
  | entryNotText (type : String)
  | unknownEntry (id : String)

namespace FormatError

/-- What is reported about a document of no known version. -/
def message : FormatError → String
  | .notObject type => "expected a JSON object, got " ++ type
  | .noRows key => "document has no '" ++ key ++ "' list"
  | .badLocation => "'location' must be an object with x, y and z"
  | .noEditorGraph => "'creator_data' must be an object with nodes and edges"
  | .badEditorNode shown => "editor node is not an object: " ++ shown
  | .unreadable report => "unreadable editor graph: " ++ report
  | .emptyGraph reason => "legacy editor graph has no entry: " ++ reason.message
  | .noEntry => "document has no entry reference"
  | .entryNotText type => "entry id must be a string, got " ++ type
  | .unknownEntry id => "entry '" ++ id ++ "' is not a result or condition"

end FormatError

/-- Why a document is not brought into the present form. -/
inductive MigrationError where
  /-- It is of no known version. -/
  | format (e : FormatError)
  /-- The placement or the id of the character in an old document has faults. -/
  | invalid (e : Invalid)
  /-- A whole number in the graph of the editor has too many digits to be shown. -/
  | digits (e : DigitLimit)

/-- The version of a document that is in the present form. -/
def currentVersion : Nat := 2

/-- The version in which a document was written. -/
def detectVersion (fields : Fields) : Nat :=
  if fields.has "creator_data" then 0
  else if !fields.has "interaction" && fields.has "location" then 1
  else currentVersion

namespace Migration

/-- The placement of the character that a bare location stands for. -/
def placement : Json → Except FormatError Json
  | .obj location =>
    let coordinate (key : String) : Json := (Fields.get? location key).getD (.int 0)
    .ok (.obj [
      ("location", .obj [("x", coordinate "x"), ("y", coordinate "y"), ("z", coordinate "z"),
        ("rotation", .int 0), ("world", .str Location.standardWorld)]),
      ("renderDistance", .int Interaction.standardDistance)])
  | _ => .error .badLocation

/-- The value, or another one if it is missing or void. -/
def orElse (v : Option Json) (other : Json) : Json :=
  match v with
  | some v => if v.isVoid then other else v
  | none => other

/-- Takes the value under a key out of an object. -/
def take (fields : Fields) (key : String) : Option Json × Fields :=
  (fields.get? key, fields.erase key)

/-- The data of an old result under their present keys. -/
def resultFields (fields : Fields) : Fields :=
  let (preferred, fields) := take fields "preferredId"
  let fields := fields.put "preferred" (orElse preferred .null)
  let (order, fields) := take fields "actionsOrder"
  let fields := fields.put "order" (orElse order (.arr []))
  let (enabled, fields) := take fields "closeOnFinish"
  let (delay, fields) := take fields "closeDelay"
  let delay := match delay with
    | none => .int CloseBehavior.standardDelay
    | some .null => .int CloseBehavior.standardDelay
    | some v => v
  fields.put "close" (.obj [("enabled", .bool (!(enabled.getD (.bool false)).isVoid)),
    ("delay", delay)])

/-- The graph of the editor cannot be read, for the reported reason. -/
def unreadable (report : String) : MigrationError := .format (.unreadable report)

/-- What comes of an old node that is no object: it is reported, unless it cannot be shown. -/
def shapeless (v : Json) : MigrationError :=
  match v.display with
  | .ok shown => .format (.badEditorNode shown)
  | .error e => .digits e

/-- Reads an old node; the flag says whether it is marked as the entry. -/
def node (v : Json) : Except MigrationError (Node × Bool) :=
  match v with
  | .obj fields =>
    match orElse (Fields.get? fields "data") (.obj []) with
    | .obj data =>
      let (flag, data) := take data "initial"
      let isEntry := match flag with
        | some (.bool true) => true
        | _ => false
      let isResult := match Fields.get? fields "type" with
        | some (.str "result") => true
        | _ => false
      let data := if isResult then resultFields data else data
      match (Node.read (.obj (Fields.put "data" (.obj data) fields))).titled Node.title with
      | .ok n => .ok (n, isEntry)
      | .error e => .error (unreadable e.report)
    | _ => .error (shapeless v)
  | _ => .error (shapeless v)

/-- The present name of a port.  A value that cannot be looked up in a table of names is refused. -/
def handle (v : Json) : Except FormatError Json :=
  match v with
  | .str "result_trigger" => .ok (.str Port.nodeTrigger.name)
  | .arr _ => .error (.unreadable "unhashable type: 'list'")
  | .obj _ => .error (.unreadable "unhashable type: 'dict'")
  | v => .ok v

/-- The value under a key that has to be there. -/
def needed (fields : Fields) (key : String) : Except FormatError Json :=
  match fields.get? key with
  | some v => .ok v
  | none => .error (.unreadable (Text.quoted key))

/-- The ends of an old edge: the source with its port, and the target with its port. -/
def ends (fields : Fields) : Except FormatError (Json × Json × Json × Json) := do
  let source ← needed fields "source"
  let sourceHandle ← handle (orElse (Fields.get? fields "sourceHandle") (.str ""))
  let target ← needed fields "target"
  let targetHandle ← handle (orElse (Fields.get? fields "targetHandle") (.str ""))
  pure (source, sourceHandle, target, targetHandle)

/-- The id that ends of any kind would give to an edge. -/
def idOfEnds (source sourceHandle target targetHandle : Json) : Except DigitLimit String := do
  pure (Edge.idOf (← source.label) (← sourceHandle.label) (← target.label) (← targetHandle.label))

/-- Reads an old edge.  Its id is spelled before a look at the kinds of its ends. -/
def edge (v : Json) : Except MigrationError Edge :=
  match v with
  | .obj fields => do
    let (source, sourceHandle, target, targetHandle) ← (ends fields).mapError .format
    let _ ← (idOfEnds source sourceHandle target targetHandle).mapError .digits
    match (Edge.readEnds source sourceHandle target targetHandle).titled Edge.title with
    | .ok e => .ok e
    | .error e => .error (unreadable e.report)
  | v => .error (unreadable (Failure.noAttribute v.typeName "get").message)

/-- The values under a key that may be missing or void. -/
def elements (fields : Fields) (key : String) : Except FormatError (List Json) :=
  let v := orElse (fields.get? key) (.arr [])
  match v.elements? with
  | some vs => .ok vs
  | none => .error (.unreadable (Failure.notIterable v.typeName).message)

/-- Reads the nodes and edges of an old graph.  An entry is added in front; the first node that is
marked as the entry is what it leads to. -/
def editorGraph (fields : Fields) : Except MigrationError (List Node × List Edge) := do
  let nodes ← (← (elements fields "nodes").mapError .format).mapM node
  let edges ← (← (elements fields "edges").mapError .format).mapM edge
  let start := (nodes.find? (·.2)).map fun n =>
    Edge.join Node.entryId .initialTarget n.1.id .nodeTrigger
  pure (Node.entry :: nodes.map (·.1), start.toList ++ edges)

/-- The document that a document of the first version stands for. -/
def ofEditorGraph (fields : Fields) : Except MigrationError Fields := do
  let graph ← match fields.get? "creator_data" with
    | some (.obj graph) => pure graph
    | _ => .error (.format .noEditorGraph)
  let (nodes, edges) ← editorGraph graph
  let interaction ← match fields.get? "location" with
    | none => pure none
    | some location => do
      let v ← (placement location).mapError .format
      some <$> ((Interaction.read v).titled Interaction.title).mapError .invalid
  let outcome ← (compileUnread nodes edges (orElse (fields.get? "npc") (.str ""))
    interaction).mapError .invalid
  match outcome with
  | .empty reason => .error (.format (.emptyGraph reason))
  | .compiled document _ => .ok document.fields

/-- The document that a document of the second version stands for. -/
def ofLocation (fields : Fields) : Except MigrationError Fields := do
  let location := (fields.get? "location").getD .null
  let v ← (placement location).mapError .format
  pure ((fields.erase "location").put "interaction" v)

/-- Takes the entry flag off a row that has an id; answers the row and the id if it was set. -/
def unflag (v : Json) : Json × Option String :=
  match v with
  | .obj fields =>
    match Fields.get? fields "id" with
    | some (.str id) =>
      let (flag, fields) := take fields "initial"
      (.obj fields, match flag with
        | some (.bool true) => some id
        | _ => none)
    | _ => (v, none)
  | _ => (v, none)

/-- The rows under a key, if there is a list of them. -/
def rows (fields : Fields) (key : String) : List Json :=
  match fields.get? key with
  | some (.arr vs) => vs
  | _ => []

/-- Takes the entry flags off the rows under a key. -/
def unflagRows (fields : Fields) (key : String) : Fields :=
  match fields.get? key with
  | some (.arr vs) => fields.put key (.arr (vs.map fun v => (unflag v).1))
  | _ => fields

/-- The ids of the rows under a key that are flagged as the entry. -/
def flagged (fields : Fields) (key : String) : List String :=
  (rows fields key).filterMap fun v => (unflag v).2

/-- Whether there is a row with an id under a key. -/
def hasRow (fields : Fields) (key id : String) : Bool :=
  (rows fields key).any fun v =>
    match v with
    | .obj row =>
      match Fields.get? row "id" with
      | some (.str s) => s == id
      | _ => false
    | _ => false

/-- The type of a reference to the row with an id. -/
def rowType? (fields : Fields) (id : String) : Option Json :=
  if hasRow fields "conditions" id then some (.str RefType.condition.word)
  else if hasRow fields "results" id then some (.str RefType.result.word)
  else none

/-- The entry as it is spelled: its id and its type, which may be missing. -/
def spelledEntry (fields : Fields) : Except FormatError (Json × Option Json) :=
  let named : Option (Json × Option Json) := match fields.get? "initial" with
    | some (.str id) => some (.str id, none)
    | some (.obj entry) => some ((Fields.get? entry "id").getD .null, Fields.get? entry "type")
    | _ => none
  match named.filter (!·.1.isVoid) with
  | some entry => .ok entry
  | none =>
    match flagged fields "results" ++ flagged fields "conditions" with
    | id :: _ => .ok (.str id, none)
    | [] => .error .noEntry

/-- The entry of a document as a reference with an id and a type. -/
def entry (fields : Fields) : Except FormatError Json :=
  match spelledEntry fields with
  | .error e => .error e
  | .ok (.str id, type) =>
    match (type.filter (!·.isVoid)).or (rowType? fields id) with
    | some type => .ok (.obj [("id", .str id), ("type", type)])
    | none => .error (.unknownEntry id)
  | .ok (v, _) => .error (.entryNotText v.typeName)

/-- Brings the spelling of the entry into the present form. -/
def resolveEntry (fields : Fields) : Except FormatError Fields := do
  let v ← entry fields
  pure ((unflagRows (unflagRows fields "results") "conditions").put "initial" v)

/-- Whether there is a list under a key. -/
def hasList (fields : Fields) (key : String) : Bool :=
  match fields.get? key with
  | some (.arr _) => true
  | _ => false

end Migration

/-- Brings a document into the present form; answers it with the version it was in. -/
def migrate (v : Json) : Except MigrationError (Fields × Nat) :=
  match v with
  | .obj fields => do
    let version := detectVersion fields
    let fields ← match version with
      | 0 => Migration.ofEditorGraph fields
      | 1 => Migration.ofLocation fields
      | _ => pure fields
    if !Migration.hasList fields "actions" then .error (.format (.noRows "actions"))
    if !Migration.hasList fields "results" then .error (.format (.noRows "results"))
    let fields ← (Migration.resolveEntry fields).mapError .format
    pure (fields, version)
  | v => .error (.format (.notObject v.typeName))

/-- What is reported about a document that was brought into the present form. -/
def migrationEvents (version : Nat) : List Log.Event :=
  if version = currentVersion then []
  else [⟨Log.Logger.migration, "document_migrated", .info,
    [("from_version", .int version), ("to_version", .int currentVersion)]⟩]

end Parley
