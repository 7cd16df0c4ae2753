import Parley.Project.Config
import Parley.Yaml.Writer

/-!
# Project files

A project is a folder with two files: the configuration and the draft of the graph.
-/

namespace Parley.Project

/-- The name of the configuration file. -/
def configName : String := "dialogue.yaml"

/-- The name of the draft file. -/
def draftName : String := "graph.json"

/-- The configuration file of a project folder. -/
def configPath (folder : Path) : Path := folder.child configName

/-- The draft file of a project folder. -/
def draftPath (folder : Path) : Path := folder.child draftName

/-- Why a configuration is not loaded. -/
inductive ConfigCause where
  | missing
  | empty
  /-- The value of the file is no map. -/
  | notMap
  /-- The file is no configuration text. -/
  | unreadable (e : Yaml.ReadError)
  | failure (e : Failure)

/-- What is reported about a cause. -/
def ConfigCause.message : ConfigCause → String
  | .missing => "File not found"
  | .empty => "Empty file"
  | .notMap => "Expected a mapping at the top level"
  | .unreadable e => e.message
  | .failure e => e.report

/-- A configuration that is not loaded, and why. -/
structure ConfigError where
  path : Path
  cause : ConfigCause

/-- What is reported about a configuration that is not loaded. -/
def ConfigError.message (e : ConfigError) : String :=
  "Failed to load project config at " ++ e.path.text ++ ": " ++ e.cause.message

/-- Reads the text of a configuration. -/
def parseConfig (text : String) : Except ConfigCause Config :=
  match Yaml.read text with
  | .error e => .error (.unreadable e)
  | .ok .null => .error .empty
  | .ok (.map _ entries) => (Config.ofEntries entries).mapError .failure
  | .ok _ => .error .notMap

/-- Loads the configuration of a project folder. -/
def loadConfig (tree : FileTree) (folder : Path) : Except ConfigError Config :=
  let path := configPath folder
  let config : Except ConfigCause Config :=
    if !tree.has path then .error .missing
    else ((tree.readText path).mapError .failure).bind parseConfig
  config.mapError (⟨path, ·⟩)

/-- The text of a configuration. -/
def configText (c : Config) : String :=
  match c.toYaml with
  | .map _ entries => Yaml.write entries
  | _ => ""

/-- Saves the configuration of a project folder. -/
def saveConfig (tree : FileTree) (folder : Path) (c : Config) : Except Failure FileTree :=
  (tree.write (configPath folder) (configText c)).mapError .file

end Parley.Project
