import Parley.Failure
import Parley.Json.Writer
import Parley.Log.Event

/-!
# Logging sessions

What becomes of the events that are reported: those of a sufficient level are appended to a log
file, one line of JSON for each, if there is one.  A session says which levels are let through,
where the log file is, and which project the events of the program belong to.

Closing a session only ends what it says of itself; a log file stays in use until logging is set up
anew.
-/

namespace Parley.Log

/-- How logging is set up. -/
structure Session where
  /-- The least rank of the events that are let through. -/
  rank : Nat := Level.warning.rank
  /-- The least rank of the events that are shown. -/
  shown : Nat := Level.warning.rank
  /-- The log file, if there is one. -/
  file : Option Path := none
  /-- Whether the log file has been opened and not been closed since. -/
  isOpen : Bool := false
  /-- The folder of the log file, as the session names it. -/
  folder : Option Path := none
  /-- The project that events belong to. -/
  project : Option String := none

namespace Session

/-- The levels from which on events are shown, by the number of requests to show more. -/
def shownLevels : List Level := [.warning, .info, .debug]

/-- The rank from which on events are shown.  A number of requests beyond the levels asks for the
last one, and one below zero counts from the end. -/
def shownRank? (verbosity : Int) : Option Nat :=
  let level := match min verbosity (shownLevels.length - 1) with
    | .ofNat n => shownLevels[n]?
    | .negSucc n => shownLevels.reverse[n]?
  level.map Level.rank

/-- The number of places to which events go. -/
def places (s : Session) : Nat := if s.file.isSome then 2 else 1

/-- Closes the log file. -/
def close (s : Session) : Session :=
  if s.isOpen then { s with isOpen := false, folder := none } else s

/-- Says which project the following events belong to. -/
def bind (s : Session) (project : String) : Session := { s with project := some project }

/-- The folder of the logs of a project. -/
def folderOf (project : Path) : Path := project.child "logs"

/-- The file of the logs of a project. -/
def fileOf (project : Path) : Path := (folderOf project).child "debug.jsonl"

/-- Makes sure that there is a file.  A folder in its place is reported by its full name. -/
def openFile (tree : FileTree) (home : String) (file : Path) : Except FileError FileTree :=
  if tree.hasFolder file then .error (.isFolder (file.absolute home)) else tree.append file ""

/-- Sets logging up for a number of requests to show more, and with a file in a project folder if
one is asked for. -/
def configure (s : Session) (tree : FileTree) (home : String) (verbosity : Int) (toFile : Bool)
    (project : Option Path) : Session × FileTree × Except Failure Unit :=
  match toFile, project, shownRank? verbosity with
  | true, none, _ => (s, tree, .error .noLogFolder)
  | _, _, none => (s.close, tree, .error .noLogLevel)
  | true, some project, some shown =>
    let s := { s.close with folder := some (folderOf project) }
    match tree.makeFolders (folderOf project) with
    | (tree, .error e) => (s, tree, .error (.file e))
    | (tree, .ok ()) =>
      match openFile tree home (fileOf project) with
      | .error e => (s, tree, .error (.file e))
      | .ok tree =>
        ({ s with
          rank := Level.debug.rank
          shown
          file := some (fileOf project)
          isOpen := true }, tree, .ok ())
  | false, _, some shown =>
    ({ s.close with
      rank := if 0 < verbosity then Level.debug.rank else Level.warning.rank
      shown
      file := none }, tree, .ok ())

/-- Appends a line to the log file, if there is one. -/
def append (s : Session) (tree : FileTree) (fields : Fields) : FileTree :=
  match s.file with
  | none => tree
  | some file =>
    match (Json.obj fields).text Json.Layout.line with
    | .ok line => (tree.append file (line ++ "\n")).toOption.getD tree
    | .error _ => tree

/-- What every line of a log file starts with. -/
def heading (now : String) (level : Level) (logger : String) : Fields :=
  [("timestamp", .str now), ("level", .str level.fileWord), ("logger", .str logger)]

/-- The fields of the line of an event: its own, and behind them the project that it belongs to,
unless it names one itself. -/
def eventFields (s : Session) (now : String) (e : Event) : Fields :=
  let project : Fields := (s.project.map fun p => ("project", Json.str p)).toList
  let own := e.fields.filter fun f => f.1 != "level" && f.1 != "timestamp"
  Fields.ofPairs (heading now e.level e.logger ++ [("message", .str e.name)] ++ own ++
    if Fields.has own "project" then [] else project)

/-- Whether an event is shown while the program runs. -/
def shows (s : Session) (e : Event) : Bool := s.rank ≤ e.level.rank && s.shown ≤ e.level.rank

/-- Records an event of the program. -/
def record (s : Session) (now : String) (tree : FileTree) (e : Event) : FileTree :=
  if e.level.rank < s.rank then tree else s.append tree (s.eventFields now e)

/-- Records events in their order. -/
def recordAll (s : Session) (now : String) (tree : FileTree) (events : List Event) : FileTree :=
  events.foldl (s.record now) tree

/-- Records a message of another part, a template with values.  It is shown first, which fails if
they do not fit; one that is only written is left out then. -/
def recordMessage (s : Session) (now : String) (tree : FileTree) (level : Level) (logger : String)
    (template : String) (values : List Json) : FileTree × Except Failure Unit :=
  if level.rank < s.rank then (tree, .ok ())
  else match Template.message template values with
    | .ok message =>
      (s.append tree (heading now level logger ++ [("message", .str message)]), .ok ())
    | .error e => (tree, if s.shown ≤ level.rank then .error (.template e) else .ok ())

end Session

end Parley.Log
