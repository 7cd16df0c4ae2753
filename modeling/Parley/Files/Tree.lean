import Parley.Json.Basic
import Parley.Text.Parts
import Parley.Text.Utf8

/-!
# File trees

The files and folders that a program works on, as a value.  A path is a row of names; the folder in
which the program runs has the empty row.  Every operation answers the tree after it, or the reason
why the system refuses it, in which case the tree stays as it was.  Making several folders answers
both, for those that are made before one is refused stay.
-/

namespace Parley

/-- A path: a row of names from the working folder on, or from a folder with a full name. -/
structure Path where
  /-- The full name of the folder at which the path starts, the working folder if there is none; it
  is empty for the root of the system. -/
  base : Option String := none
  names : List String
deriving DecidableEq

namespace Path

/-- The path that a text spells; single points and doubled separators have no effect. -/
def ofText (s : String) : Path where
  base := if Text.startsWith "/" s then some "" else none
  names := (Text.parts '/' s).filter fun name => name != "" && name != "."

/-- The text of a path. -/
def text (p : Path) : String :=
  match p.base with
  | some base =>
    if p.names.isEmpty then (if base.isEmpty then "/" else base)
    else "/".intercalate (base :: p.names)
  | none => if p.names.isEmpty then "." else "/".intercalate p.names

/-- The path of what another path names from here. -/
def join (p q : Path) : Path :=
  if q.base.isSome then q else { p with names := p.names ++ q.names }

/-- The path of a name in a folder. -/
def child (p : Path) (name : String) : Path := p.join (ofText name)

/-- The folder that a path is in. -/
def parent (p : Path) : Path := { p with names := p.names.dropLast }

/-- The last name; empty for the working folder. -/
def name (p : Path) : String := p.names.getLast?.getD ""

/-- The same path by its full name, where the full name of the working folder is given. -/
def absolute (home : String) (p : Path) : Path :=
  if p.base.isSome then p else { p with base := some home }

/-- The path with something added to its last name. -/
def addSuffix (p : Path) (suffix : String) : Path :=
  { p with names := p.names.dropLast ++ [p.name ++ suffix] }

end Path

/-- Why the system refuses a file operation. -/
inductive FileError where
  | missing (path : Path)
  | present (path : Path)
  | notFolder (path : Path)
  | isFolder (path : Path)
  /-- A file cannot be moved onto a folder. -/
  | ontoFolder (source target : Path)
deriving DecidableEq

namespace FileError

/-- What is reported about a refused operation. -/
def message : FileError → String
  | .missing p => "[Errno 2] No such file or directory: " ++ Text.quoted p.text
  | .present p => "[Errno 17] File exists: " ++ Text.quoted p.text
  | .notFolder p => "[Errno 20] Not a directory: " ++ Text.quoted p.text
  | .isFolder p => "[Errno 21] Is a directory: " ++ Text.quoted p.text
  | .ontoFolder s t =>
    "[Errno 21] Is a directory: " ++ Text.quoted s.text ++ " -> " ++ Text.quoted t.text

end FileError

/-- What a file holds: a text, or octets that nobody has read yet. -/
inductive Content where
  | text (s : String)
  | octets (bs : List UInt8)
deriving DecidableEq

/-- The text of a content, with line ends in their one form. -/
def Content.read : Content → Except Text.Utf8Error String
  | .text s => .ok (String.ofList (Text.plainLines s.toList))
  | .octets bs => (Text.decode bs).map fun s => String.ofList (Text.plainLines s.toList)

/-- A content with a text behind it; what is there stays as it is, whether it is a text or not. -/
def Content.append : Content → String → Content
  | .text s, more => .text (s ++ more)
  | .octets bs, more => .octets (bs ++ more.toUTF8.data.toList)

/-- A file or a folder. -/
inductive FileEntry where
  | file (content : Content)
  | folder
deriving DecidableEq

/-- A tree of files and folders: the entries by their places, in the order in which they came. -/
structure FileTree where
  entries : List (List String × FileEntry) := []
deriving DecidableEq

namespace FileTree

/-- Takes steps to parent folders out of a row of names, but for those that lead out of the folder
where the row starts. -/
def resolve (names : List String) : List String :=
  names.foldl (fun done name =>
    if name == ".." && done.any (· != "..") then done.dropLast else done ++ [name]) []

/-- The place that a path leads to: the names on the way there from the working folder, or from the
root of the system, for which a slash stands in front. -/
def place (p : Path) : List String :=
  let names := resolve p.names
  if p.base == some "" then "/" :: names.dropWhile (· == "..") else names

/-- The entry at a place.  The working folder, those that it is in, and the root of the system are
folders; else nothing is known of what is not in the tree. -/
def at? (t : FileTree) (place : List String) : Option FileEntry :=
  if place == ["/"] || place.all (· == "..") then some .folder else t.entries.lookup place

/-- Whether every step to a parent folder on a path is taken from a folder. -/
def passable (t : FileTree) (p : Path) : Bool :=
  (List.range p.names.length).all fun n =>
    p.names[n]? != some ".." || t.at? (place { p with names := p.names.take n }) == some .folder

/-- The entry at a path. -/
def entry? (t : FileTree) (p : Path) : Option FileEntry :=
  if t.passable p then t.at? (place p) else none

/-- Whether there is something at a path. -/
def has (t : FileTree) (p : Path) : Bool := (t.entry? p).isSome

/-- Whether there is a folder at a path. -/
def hasFolder (t : FileTree) (p : Path) : Bool := t.entry? p == some .folder

/-- Sets the entry at a path. -/
def put (t : FileTree) (p : Path) (e : FileEntry) : FileTree :=
  let names := place p
  if t.entries.any (·.1 == names) then
    ⟨t.entries.map fun x => if x.1 == names then (names, e) else x⟩
  else ⟨t.entries ++ [(names, e)]⟩

/-- Leaves out the entry at a path. -/
def erase (t : FileTree) (p : Path) : FileTree :=
  let names := place p
  ⟨t.entries.filter (·.1 != names)⟩

/-- Why nothing can be put at a path: the folder that it is in is missing or is none. -/
def refusal? (t : FileTree) (p : Path) : Option FileError :=
  let folders := (List.range p.names.length).map fun n => { p with names := p.names.take n }
  match folders.find? fun folder => !t.hasFolder folder with
  | none => none
  | some folder => if t.has folder then some (.notFolder p) else some (.missing p)

/-- Makes a folder in a folder that exists. -/
def makeFolder (t : FileTree) (p : Path) : Except FileError FileTree :=
  match t.refusal? p with
  | some e => .error e
  | none => if t.has p then .error (.present p) else .ok (t.put p .folder)

/-- Makes a folder in a folder that exists, or finds it there. -/
def ensureFolder (t : FileTree) (p : Path) : Except FileError FileTree :=
  match t.makeFolder p with
  | .ok t => .ok t
  | .error e => if t.hasFolder p then .ok t else .error e

/-- The tree after an operation, with the reason if it is refused. -/
def after (t : FileTree) : Except FileError FileTree → FileTree × Except FileError Unit
  | .ok t => (t, .ok ())
  | .error e => (t, .error e)

/-- Makes the folder of the first `n` names of a path, after those that it is in. -/
def makeFoldersTo (t : FileTree) (p : Path) : Nat → FileTree × Except FileError Unit
  | 0 => (t, .ok ())
  | n + 1 =>
    let folder := { p with names := p.names.take (n + 1) }
    match t.ensureFolder folder with
    | .error (.missing _) =>
      match t.makeFoldersTo p n with
      | (t, .ok ()) => t.after (t.ensureFolder folder)
      | refused => refused
    | r => t.after r

/-- Makes a folder and those that it is in, as far as they do not exist. -/
def makeFolders (t : FileTree) (p : Path) : FileTree × Except FileError Unit :=
  t.makeFoldersTo p p.names.length

/-- Makes a folder that does not exist yet, after those that it is in. -/
def makeNewFolder (t : FileTree) (p : Path) : FileTree × Except FileError Unit :=
  match t.makeFolder p with
  | .error (.missing _) =>
    match t.makeFolders p.parent with
    | (t, .ok ()) => t.after (t.makeFolder p)
    | refused => refused
  | r => t.after r

/-- Writes a text to a file. -/
def write (t : FileTree) (p : Path) (s : String) : Except FileError FileTree :=
  match t.refusal? p with
  | some e => .error e
  | none =>
    if t.hasFolder p then .error (.isFolder p) else .ok (t.put p (.file (.text s)))

/-- Writes a text behind what a file holds, or to a new file. -/
def append (t : FileTree) (p : Path) (s : String) : Except FileError FileTree :=
  match t.refusal? p with
  | some e => .error e
  | none =>
    match t.entry? p with
    | some .folder => .error (.isFolder p)
    | some (.file c) => .ok (t.put p (.file (c.append s)))
    | none => .ok (t.put p (.file (.text s)))

/-- Moves a file to a path, where it takes the place of a file that is there. -/
def move (t : FileTree) (source target : Path) : Except FileError FileTree :=
  match t.entry? source with
  | none => .error (.missing source)
  | some e =>
    if t.hasFolder target then .error (.ontoFolder source target)
    else .ok ((t.erase source).put target e)

/-- Removes a file. -/
def remove (t : FileTree) (p : Path) : Except FileError FileTree :=
  match t.entry? p with
  | none => .error (.missing p)
  | some .folder => .error (.isFolder p)
  | some (.file _) => .ok (t.erase p)

/-- What a file holds. -/
def content (t : FileTree) (p : Path) : Except FileError Content :=
  match t.entry? p with
  | some (.file c) => .ok c
  | some .folder => .error (.isFolder p)
  | none => .error ((t.refusal? p).getD (.missing p))

/-- The files below the working folder, and the folders there that hold nothing. -/
def leaves (t : FileTree) : List (List String × FileEntry) :=
  t.entries.filter fun e =>
    !e.1.head?.any (fun name => name == "/" || name == "..") &&
    match e.2 with
    | .file _ => true
    | .folder => !t.entries.any fun other => other.1 != e.1 && e.1.isPrefixOf other.1

end FileTree

end Parley
