import Parley.Document.Basic
import Parley.Failure
import Parley.Json.Writer

/-!
# Document files

A document is written to a folder under the name of its dialogue.  Files of documents are read
without a look at what the fields hold, so that a document of any version can be read; a file that
holds no object is `Unreadable`.
-/

namespace Parley

namespace DocumentFile

/-- Why a file is not a document. -/
inductive Unreadable where
  /-- The file cannot be read as a text. -/
  | noText (path : Path) (cause : Failure)
  /-- The file holds nothing but white space. -/
  | blank (path : Path)
  /-- The text is not in the data format. -/
  | malformed (path : Path) (text : String) (e : Json.ReadError)
  /-- The file holds a value other than an object. -/
  | noObject (path : Path)

/-- What is reported about a file that is not a document. -/
def Unreadable.message : Unreadable → String
  | .noText path cause => "cannot read " ++ path.text ++ ": " ++ cause.message
  | .blank path => path.text ++ " is empty"
  | .malformed path text e => path.text ++ " is not valid JSON: " ++ e.message text
  | .noObject path => path.text ++ " does not contain a JSON object"

/-- Reads the fields of a document from a text.  A whole number that is too long ends the reading
with a failure of its own. -/
def parse (path : Path) (text : String) : Except Failure (Except Unreadable Fields) :=
  if text.toList.all Text.isBlank then .ok (.error (.blank path))
  else match Json.read text with
    | .error (.tooLong limit) => .error (.notJson text (.tooLong limit))
    | .error e => .ok (.error (.malformed path text e))
    | .ok (.obj fields) => .ok (.ok fields)
    | .ok _ => .ok (.error (.noObject path))

/-- Reads the fields of a document from a file. -/
def read (tree : FileTree) (path : Path) : Except Failure (Except Unreadable Fields) :=
  match tree.readText path with
  | .error e => .ok (.error (.noText path e))
  | .ok text => parse path text

/-- The file of a dialogue in a folder. -/
def place (folder : Path) (name : String) : Path := folder.child (name ++ ".json")

/-- Writes a document to a folder, which is made if it is missing.  Answers the tree after it, in
which the folders that are made stay even if the document is not written, and the file. -/
def write (tree : FileTree) (folder : Path) (name : String) (d : Document) :
    FileTree × Except Failure Path :=
  match tree.makeFolders folder with
  | (tree, .error e) => (tree, .error (.file e))
  | (tree, .ok ()) =>
    match d.toJson.text Json.Layout.document with
    | .error e => (tree, .error (.digits e))
    | .ok text =>
      match tree.write (place folder name) text with
      | .error e => (tree, .error (.file e))
      | .ok tree => (tree, .ok (place folder name))

end DocumentFile

end Parley
