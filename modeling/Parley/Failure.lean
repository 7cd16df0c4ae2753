import Parley.Files.Tree
import Parley.Graph.Error
import Parley.Json.Reader
import Parley.Log.Template
import Parley.Node.Kind

/-!
# Failures

The causes for which an operation on a graph, on one of its parts or on a file that holds one ends
without a result.  `message` gives the wording of each.
-/

namespace Parley

/-- Why an operation has no result. -/
inductive Failure where
  /-- A value does not fit the record that it should fill. -/
  | invalid (e : Invalid)
  /-- An edit is refused. -/
  | graph (e : GraphError)
  /-- A value names no kind of node. -/
  | unknownKind (v : Json)
  /-- A value names no type of executor. -/
  | unknownExecutor (v : Json)
  /-- A node is not a result, where one is asked for. -/
  | notResult (id : String) (kind : Kind)
  /-- Fields that the data of a kind do not have. -/
  | unknownFields (kind : Kind) (names known : List String)
  /-- A field has the name of an argument that is given already. -/
  | doubleArgument (name : String)
  /-- A place is given by fewer than two coordinates. -/
  | noCoordinate
  /-- A result has no executor at an index. -/
  | noExecutor
  /-- A value of a type that is not a row of values is gone through. -/
  | notIterable (type : String)
  /-- A value of a type that has no such part is asked for it. -/
  | noAttribute (type name : String)
  /-- A binary number and a value of a type that is no number are added. -/
  | notAddable (type : String)
  /-- A whole number is beyond the binary numbers. -/
  | tooLarge
  /-- A whole number has too many digits. -/
  | digits (e : DigitLimit)
  /-- A log file is asked for without a folder for it. -/
  | noLogFolder
  /-- A number of requests for which there is no level of events to show. -/
  | noLogLevel
  /-- Values do not fit the template of a message. -/
  | template (e : Log.Template.Fault)
  /-- A path is put together with a value of a type that is no text. -/
  | noPathName (type : String)
  /-- An index is beyond those that a list can have. -/
  | oversizeIndex
  /-- The entry of a graph is gone. -/
  | noEntry
  /-- The system refuses a file operation. -/
  | file (e : FileError)
  /-- A file holds octets that are not a text. -/
  | notText (e : Text.Utf8Error)
  /-- A text is not in the data format. -/
  | notJson (text : String) (e : Json.ReadError)
  /-- A draft file holds a value other than an object. -/
  | notDraft (path : Path)
  /-- A path has no last name to which a suffix could be added. -/
  | noName (path : Path)
  /-- A text is printed that the console cannot show. -/
  | unshown (text reason : String)

namespace Failure

/-- A report in which a value is shown.  Of a value that cannot be shown, that is reported. -/
def showing (v : Json) (report : String → String) : String :=
  match v.display with
  | .ok shown => report shown
  | .error e => e.message

/-- What is reported about a failure. -/
def message : Failure → String
  | .invalid e => e.headline
  | .graph e => e.message
  | .unknownKind v => showing v (· ++ " is not a valid NodeKind")
  | .unknownExecutor v => showing v (· ++ " is not a valid ExecutorType")
  | .notResult id kind => "Node '" ++ id ++ "' is a " ++ kind.word ++ " node, not a result"
  | .unknownFields kind names known =>
    "Unknown " ++ kind.word ++ " field(s): " ++ ", ".intercalate names ++ ". Known: " ++
      ", ".intercalate known
  | .doubleArgument name =>
    "DialogueGraph.update_node_data() got multiple values for argument '" ++ name ++ "'"
  | .noCoordinate => "tuple index out of range"
  | .noExecutor => "list assignment index out of range"
  | .notIterable type => "'" ++ type ++ "' object is not iterable"
  | .noAttribute type name => "'" ++ type ++ "' object has no attribute '" ++ name ++ "'"
  | .notAddable type => "unsupported operand type(s) for +: 'float' and '" ++ type ++ "'"
  | .tooLarge => "int too large to convert to float"
  | .digits e => e.message
  | .noLogFolder => "project_path is required when log_to_file=True"
  | .noLogLevel => "tuple index out of range"
  | .template e => e.message
  | .noPathName type => "unsupported operand type(s) for /: 'PosixPath' and '" ++ type ++ "'"
  | .oversizeIndex => "cannot fit 'int' into an index-sized integer"
  | .noEntry => ""
  | .file e => e.message
  | .notText e => e.message
  | .notJson text e => e.message text
  | .notDraft path => "Draft file " ++ path.text ++ " does not contain a JSON object"
  | .noName path => "PosixPath(" ++ Text.quoted path.text ++ ") has an empty name"
  | .unshown _ reason => reason

/-- The full report of a failure, over several lines for a record with faults. -/
def report : Failure → String
  | .invalid e => e.report
  | e => e.message

end Failure

/-- Reads the text of a file. -/
def FileTree.readText (tree : FileTree) (path : Path) : Except Failure String := do
  let content ← (tree.content path).mapError .file
  content.read.mapError .notText

end Parley
