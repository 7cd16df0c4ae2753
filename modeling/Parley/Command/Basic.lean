import Parley.Command.Arguments

/-!
# Commands

What the program can be asked to do, and how a command line asks for it.  `Invocation.read` reads a
command line: first the options of the program, then the name of a command, then what belongs to the
command.
-/

namespace Parley.Command

/-- A command that edits the graph of a project. -/
inductive EditCommand where
  | addNode (kind : String) (id : Option String) (x y : Binary64) (text : Option String)
  /-- Connects two nodes at the ports that their kinds have; a conditional needs a branch. -/
  | connect (source target : String) (branch : Option Bool)
  | disconnect (source target : String)
  | removeNode (id : String)
  | setField (id field value : String)
  | addExecutor (result type value : String) (key : Option String)
deriving DecidableEq

end Command

/-- A command. -/
inductive Command where
  | version
  | init (name : String) (parent : Option Path) (npc : String)
  | edit (project : Option Path) (e : Command.EditCommand)
  | exportDocument (project output : Option Path)
  | importDocument (project : Option Path) (file : Path) (force : Bool)
  | check (project : Option Path)
deriving DecidableEq

namespace Command

/-- The option that asks for help. -/
def helpChoice : Choice := ⟨["--help"], "help", some ""⟩

/-- The option that names a project. -/
def projectChoice : Choice := ⟨["--project", "-p"], "project", none⟩

/-- The options of the program. -/
def programChoices : List Choice := [
  ⟨["--verbose", "-v"], "verbose", some ""⟩,
  ⟨["--log"], "log", some ""⟩,
  ⟨["--projects-dir", "-d"], "projects", none⟩,
  helpChoice]

/-- The words of a command line: those that it needs, and at most one more. -/
structure Form where
  choices : List Choice
  needed : Nat := 0
  optional : Nat := 0
  /-- The command that settings and words ask for. -/
  build : List Setting → List String → Except UsageError Command

/-- A word, which the form makes sure of. -/
def word (words : List String) (n : Nat) : String := words[n]?.getD ""

/-- The branch that settings choose. -/
def branch? (settings : List Setting) : Option Bool :=
  (setting? settings "branch").map (· == "true")

/-- The form of a command that edits the graph of a project. -/
def editForm (choices : List Choice) (needed optional : Nat)
    (build : List Setting → List String → Except UsageError EditCommand) : Form where
  choices := projectChoice :: choices
  needed
  optional
  build settings words :=
    (build settings words).map (.edit (pathSetting? settings "project"))

/-- The commands by their names. -/
def forms : List (String × Form) := [
  ("version", {
    choices := []
    build := fun _ _ => .ok .version }),
  ("init", {
    choices := [⟨["--path"], "path", none⟩, ⟨["--npc"], "npc", none⟩]
    needed := 1
    build := fun s w => .ok (.init (word w 0) (pathSetting? s "path")
      ((setting? s "npc").getD "")) }),
  ("add-node", editForm
    [⟨["--id"], "id", none⟩, ⟨["--x"], "x", none⟩, ⟨["--y"], "y", none⟩,
      ⟨["--text"], "text", none⟩] 1 0 fun s w => do
    let x ← numberSetting s "x"
    let y ← numberSetting s "y"
    pure (.addNode (word w 0) (setting? s "id") x y (setting? s "text"))),
  ("connect", editForm
    [⟨["--true"], "branch", some "true"⟩, ⟨["--false"], "branch", some "false"⟩] 2 0 fun s w =>
    .ok (.connect (word w 0) (word w 1) (branch? s))),
  ("disconnect", editForm [] 2 0 fun _ w => .ok (.disconnect (word w 0) (word w 1))),
  ("remove-node", editForm [] 1 0 fun _ w => .ok (.removeNode (word w 0))),
  ("set", editForm [] 3 0 fun _ w => .ok (.setField (word w 0) (word w 1) (word w 2))),
  ("add-executor", editForm [⟨["--key"], "key", none⟩] 2 1 fun s w =>
    .ok (.addExecutor (word w 0) (word w 1) (word w 2) (setting? s "key"))),
  ("export", {
    choices := [projectChoice, ⟨["--output", "-o"], "output", none⟩]
    build := fun s _ => .ok (.exportDocument (pathSetting? s "project")
      (pathSetting? s "output")) }),
  ("import", {
    choices := [projectChoice, ⟨["--force", "-f"], "force", some ""⟩]
    needed := 1
    build := fun s w => .ok (.importDocument (pathSetting? s "project") (Path.ofText (word w 0))
      (setting? s "force").isSome) }),
  ("check", {
    choices := [projectChoice]
    build := fun s _ => .ok (.check (pathSetting? s "project")) })]

/-- A command with the options of the program. -/
structure Invocation where
  /-- The number of requests to show more events. -/
  verbosity : Nat
  /-- Whether events are logged to a file of the project. -/
  toFile : Bool
  /-- The folder in which projects are looked up by their names. -/
  projects : Path
  command : Command
deriving DecidableEq

/-- What a command line asks for. -/
inductive Request where
  | help
  | run (invocation : Invocation)
deriving DecidableEq

/-- The folder for projects where none is given. -/
def standardProjects : String := "projects"

/-- Reads what belongs to a command. -/
def readCommand (form : Form) (args : List String) : Except UsageError (Option Command) := do
  let (settings, words) ← scan (helpChoice :: form.choices) true args
  if (setting? settings "help").isSome then pure none
  else if words.length < form.needed then .error .noWord
  else match words.drop (form.needed + form.optional) with
    | extra :: _ => .error (.needlessWord extra)
    | [] => (form.build settings words).map some

/-- Reads a command line, where the surroundings may name a folder for projects. -/
def Request.read (surroundings : Option String) (args : List String) :
    Except UsageError Request := do
  let (settings, words) ← scan programChoices false args
  if (setting? settings "help").isSome then pure .help
  else match words with
    | [] => .error .noCommand
    | name :: args =>
      match forms.lookup name with
      | none => do
        -- A word behind two dashes may still spell the option that asks for help.
        let (settings, _) ← scan programChoices false (name :: args)
        if (setting? settings "help").isSome then pure .help else .error (.unknownCommand name)
      | some form =>
        match ← readCommand form args with
        | none => pure .help
        | some command =>
          let projects := (setting? settings "projects").getD
            ((surroundings.filter (!·.isEmpty)).getD standardProjects)
          pure (.run {
            verbosity := settingCount settings "verbose"
            toFile := (setting? settings "log").isSome
            projects := Path.ofText projects
            command })

end Command

end Parley
