import Parley.Command.Run

/-!
# Footprints

Which files and folders a command may look at.  A program that runs commands on real files needs to
know no more of them than the footprint; what it does not list is as good as missing.
-/

namespace Parley

namespace Command

/-- The project that a command is told to work on; nothing if it works on none. -/
def project? : Command → Option (Option Path)
  | .edit project _ | .exportDocument project _ | .importDocument project _ _ | .check project =>
    some project
  | .version | .init _ _ _ => none

/-- The folders in which a project may be. -/
def projectFolders (projects : Path) : Option Path → List Path
  | none => [⟨none, []⟩]
  | some project => [project, projects.join project]

/-- The files that belong to a project itself. -/
def projectFiles (folder : Path) : List Path :=
  [Project.configPath folder, Project.draftPath folder, Draft.besides (Project.draftPath folder),
    Log.Session.fileOf folder]

/-- The file to which the document of a project is exported, if the configuration says so. -/
def exportFile? (files : FileTree) (folder : Path) (output : Option Path) : Option Path := do
  let config ← (Project.loadConfig files folder).toOption
  let target ← output.or (Job.outputFolder folder config).toOption
  pure (DocumentFile.place target config.name)

/-- A path with all that it is in, the outermost folder first. -/
def wayTo (p : Path) : List Path :=
  (List.range (p.names.length + 1)).map fun n => { p with names := p.names.take n }

/-- The paths that a command may look at, as far as the files that are known so far tell; each comes
behind the folders that it is in. -/
def footprint (i : Invocation) (files : FileTree) : List Path :=
  let folders := (project? i.command).elim [] (projectFolders i.projects)
  let own := folders.flatMap projectFiles
  let others := match i.command with
    | .init name parent _ => [(parent.getD i.projects).child name]
    | .importDocument _ file _ => [file]
    | .exportDocument _ output => folders.filterMap (exportFile? files · output)
    | _ => []
  (own ++ others).flatMap wayTo

end Command

end Parley
