import Parley.Command.Edit
import Parley.Document.Compile
import Parley.Document.File
import Parley.Document.Load
import Parley.Graph.Inspection
import Parley.Log.Session
import Parley.Project.File

/-!
# Running commands

A command works on the files of a project: it loads the configuration, opens the graph, which is
saved as it is opened and after each change, and does what it is asked for.  What it prints goes to
the console, and where that cannot show it, the command fails.  `run` takes a command line and
answers the state after it, with what was printed and how the command ended.
-/

namespace Parley.Command

/-- Why a command ends early. -/
inductive Stop where
  /-- It has said what is wrong. -/
  | reported
  /-- Something failed that it does not report. -/
  | failed (e : Failure)

/-- What commands find and leave. -/
structure World where
  files : FileTree
  log : Log.Session := {}
  supply : IdSupply
  console : Console
  /-- The full name of the working folder. -/
  home : String
  /-- The present time, as log files write it. -/
  now : String
  printed : List Printed := []
  /-- The events that are shown while commands run. -/
  noticed : List Log.Event := []

/-- A command at work, which may end early. -/
abbrev Job := ExceptT Stop (StateM World)

namespace Job

/-- Prints something, if the console can show it. -/
def print (p : Printed) : Job Unit := do
  match (← get).console.problem? p with
  | none => modify fun w => { w with printed := w.printed ++ [p] }
  | some reason => throw (.failed (.unshown p.heading reason))

/-- Prints a line. -/
def say (text : String) : Job Unit := print (.line text)

/-- Ends with an error. -/
def refuse {α : Type} (text : String) : Job α := do
  print (errorLine text)
  throw .reported

/-- Goes on with a result, or ends with the failure in its place. -/
def ofExcept {α : Type} : Except Failure α → Job α
  | .ok a => pure a
  | .error e => throw (.failed e)

/-- Records events. -/
def report (events : List Log.Event) : Job Unit :=
  modify fun w => { w with
    files := w.log.recordAll w.now w.files events
    noticed := w.noticed ++ events.filter w.log.shows }

/-- Changes the files. -/
def setFiles (files : FileTree) : Job Unit := modify fun w => { w with files }

/-- Changes the files by an operation; what it has done before it is refused stays. -/
def changeFiles (f : FileTree → FileTree × Except FileError Unit) : Job Unit := do
  let (files, r) := f (← get).files
  setFiles files
  ofExcept (r.mapError .file)

/-- Sets logging up. -/
def configureLog (verbosity : Nat) (toFile : Bool) (project : Option Path) : Job Unit := do
  let w ← get
  let (log, files, r) := w.log.configure w.files w.home verbosity toFile project
  set { w with log, files }
  ofExcept r

/-- The folder of a project: the working folder if none is named, the folder of the name if it
exists, or the one of that name among the projects. -/
def projectFolder (files : FileTree) (projects : Path) : Option Path → Path
  | none => ⟨none, []⟩
  | some project =>
    let inside := projects.join project
    if !files.has project && project.names.length == 1 && files.has inside then inside else project

/-- Finds a project and loads its configuration.  Events belong to the project from here on. -/
def requireProject (i : Invocation) (project : Option Path) : Job (Path × Config) := do
  let w ← get
  let folder := projectFolder w.files i.projects project
  if !w.files.has (Project.configPath folder) then
    refuse ("No " ++ Project.configName ++
      " found. Run 'dlg init <name>' first, or use --project.")
  match Project.loadConfig w.files folder with
  | .error e => refuse e.message
  | .ok config =>
    if i.toFile then configureLog i.verbosity true (some folder)
    let name := if config.name.isEmpty then folder.name else config.name
    modify fun w => { w with log := w.log.bind name }
    pure (folder, config)

/-- Takes over the files and the supply of ids that a session leaves. -/
def leaveSession (s : Session) : Job Unit :=
  modify fun w => { w with
    supply := s.supply
    files := match s.store with
      | some (.file _ files) => files
      | _ => w.files }

/-- Opens the graph of a project and saves it. -/
def openGraph (folder : Path) : Job Session := do
  let w ← get
  let path := Project.draftPath folder
  match Session.start (.file path w.files) w.supply with
  | .error (.graph e) => throw (.failed (.graph e))
  | .error e =>
    if isReported e then refuse ("Cannot read " ++ path.text ++ ": " ++ e.report)
    else throw (.failed e)
  | .ok (session, saved) =>
    leaveSession session
    report (← ofExcept saved)
    pure { session with store := some (.file path (← get).files) }

/-- Says what has come of a piece of work, and ends as it did. -/
def finish : Except Obstacle String → Job Unit
  | .ok text => print (successLine text)
  | .error (.told p) => do
    print p
    throw .reported
  | .error (.failed e) => throw (.failed e)

/-- Runs an edit command on the graph of a project. -/
def runEdit (i : Invocation) (project : Option Path) (e : EditCommand) : Job Unit := do
  let (folder, _) ← requireProject i project
  let session ← openGraph folder
  let (r, desk) := (e.work.run { session }).run
  leaveSession desk.session
  report desk.events
  finish r

/-- The version of the program. -/
def versionText : String := "DialogForge v0.4.0"

/-- Makes the folder of a new project with a configuration and an empty graph. -/
def makeProject (name : String) (parent : Path) (npc : String) : Job Path := do
  let folder := parent.child name
  changeFiles (·.makeFolders parent)
  if (← get).files.has folder then refuse ("Directory '" ++ folder.text ++ "' already exists")
  changeFiles (·.makeNewFolder folder)
  setFiles (← ofExcept (Project.saveConfig (← get).files folder { name, npc }))
  let (files, saved) := Draft.save (← get).files (Project.draftPath folder) Graph.empty.toJson
  setFiles files
  report (← ofExcept saved)
  pure folder

/-- Makes a new project. -/
def init (i : Invocation) (name : String) (parent : Option Path) (npc : String) : Job Unit := do
  let folder ← makeProject name (parent.getD i.projects) npc
  print (successLine ("Created project: [bold]" ++ name ++ "[/bold]"))
  say ("  Location: " ++ (folder.absolute (← get).home).text)
  say ""
  say "Next steps:"
  say ("  dlg add-node result -p " ++ folder.text ++ " --text 'Hello, traveller!'")

/-- The folder for the documents of a project. -/
def outputFolder (folder : Path) (config : Config) : Except Failure Path :=
  match config.outputFolder with
  | .text s => .ok (folder.child s)
  | v => .error (.noPathName v.typeName)

/-- Compiles the graph of a project and writes the document. -/
def exportDocument (i : Invocation) (project output : Option Path) : Job Unit := do
  let (folder, config) ← requireProject i project
  let session ← openGraph folder
  if config.name.isEmpty then
    refuse ("Set 'name' in " ++ Project.configName ++ " before exporting")
  let interaction ← ofExcept (config.documentInteraction.mapError .invalid)
  match compile session.graph.nodes session.graph.edges config.npc interaction with
  | .empty reason => refuse ("Nothing to export: " ++ reason.message)
  | .compiled document warnings =>
    warnings.forM fun w => say ("[yellow]⚠[/yellow] " ++ w.message)
    let target ← match output with
      | some target => pure target
      | none => ofExcept (outputFolder folder config)
    let (files, written) := DocumentFile.write (← get).files target config.name document
    setFiles files
    let file ← ofExcept written
    report [⟨Log.Logger.commands, "document_exported", .info,
      [("path", .str file.text), ("warnings", .int warnings.length)]⟩]
    print (successLine ("Exported " ++ Text.ofNat document.results.length ++ " result(s), " ++
      Text.ofNat document.actions.length ++ " action(s), " ++
      Text.ofNat document.conditions.length ++ " condition(s)"))
    say ("  File: " ++ file.text)

/-- Loads a document as a graph. -/
def readDialogue (file : Path) : Job Loaded := do
  let cannot (reason : String) : Job Loaded :=
    refuse ("Cannot import " ++ file.text ++ ": " ++ reason)
  match ← ofExcept (DocumentFile.read (← get).files file) with
  | .error e => cannot e.message
  | .ok fields =>
    let (r, events) := load (.obj fields)
    report events
    match ← ofExcept r with
    | .error e => cannot e.message
    | .ok loaded => pure loaded

/-- Replaces the graph of a project by one that is loaded from a document. -/
def importDocument (i : Invocation) (project : Option Path) (file : Path) (force : Bool) :
    Job Unit := do
  let (folder, config) ← requireProject i project
  let session ← openGraph folder
  if 1 < session.graph.nodes.length && !force then
    refuse "The graph is not empty. Use --force to replace it."
  let loaded ← readDialogue file
  let (files, saved) :=
    Draft.save (← get).files (Project.draftPath folder) loaded.graph.toJson
  setFiles files
  report (← ofExcept saved)
  let config := { config.applyInteraction loaded.interaction with npc := loaded.npc }
  setFiles (← ofExcept (Project.saveConfig (← get).files folder config))
  report [⟨Log.Logger.commands, "document_imported", .info,
    [("path", .str file.text), ("schema_version", .int loaded.version)]⟩]
  print (successLine ("Imported " ++ Text.ofNat loaded.graph.nodes.length ++ " node(s) and " ++
    Text.ofNat loaded.graph.edges.length ++ " edge(s) (schema v" ++
    Text.ofNat loaded.version ++ ")"))

/-- How the severity of a check is shown. -/
def severityText : Severity → String
  | .pass => "[green]✓[/green] pass"
  | .warn => "[yellow]⚠[/yellow] warn"
  | .fail => "[red]✗[/red] fail"

/-- The counts of an inspection on one line, the kinds in the order of their words. -/
def countsLine (i : Inspection) : String :=
  let counts := i.counts.mergeSort fun a b => decide (a.1.word ≤ b.1.word)
  "  " ++ ", ".intercalate (counts.map fun c => Text.ofNat c.2 ++ " " ++ c.1.word) ++ ", " ++
    Text.ofNat i.edgeCount ++ " edge(s)"

/-- What is said of an inspection. -/
def inspectionReport (name : String) (i : Inspection) : List Printed := [
  .line "",
  .line ("[bold]" ++ name ++ "[/bold]"),
  .line (countsLine i),
  .line "",
  .table "Checks" ["Check", "Status", "Detail"]
    (i.checks.map fun c => [c.name, severityText c.severity, c.message]),
  .line (Check.summary i.checks)]

/-- Inspects the graph of a project. -/
def check (i : Invocation) (project : Option Path) : Job Unit := do
  let (folder, config) ← requireProject i project
  let session ← openGraph folder
  let found := Inspection.ofGraph session.graph
  report found.events
  let name := if config.name.isEmpty then folder.name else config.name
  (inspectionReport name found).forM print
  if Check.anyFailure found.checks then throw .reported

/-- Runs a command. -/
def runInvocation (i : Invocation) : Job Unit := do
  configureLog i.verbosity false none
  match i.command with
  | .version => say versionText
  | .init name parent npc => init i name parent npc
  | .edit project e => runEdit i project e
  | .exportDocument project output => exportDocument i project output
  | .importDocument project file force => importDocument i project file force
  | .check project => check i project

end Job

/-- How a command line ended. -/
structure Ending where
  exitCode : Nat
  /-- The failure that ended it without a report. -/
  failure : Option Failure := none

/-- The exit code of a command line that is not understood. -/
def usageExit : Nat := 2

/-- Runs a command line.  What was printed and shown before is gone from the state. -/
def run (surroundings : Option String) (args : List String) (w : World) : Ending × World :=
  let w := { w with printed := [], noticed := [] }
  match Request.read surroundings args with
  | .error _ => (⟨usageExit, none⟩, w)
  | .ok .help => (⟨0, none⟩, w)
  | .ok (.run i) =>
    match (Job.runInvocation i).run.run w with
    | (.ok (), w) => (⟨0, none⟩, w)
    | (.error .reported, w) => (⟨1, none⟩, w)
    | (.error (.failed e), w) => (⟨1, some e⟩, w)

end Parley.Command
