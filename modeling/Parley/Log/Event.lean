import Parley.Json.Basic

/-!
# Events

What is reported while the program works: the part that reports, a name, a level and fields.  An
operation that reports answers its events besides its result, in the order in which they came.
-/

namespace Parley.Log

/-- How important an event is. -/
inductive Level where
  | debug
  | info
  | warning
  | error
  | critical
deriving DecidableEq

namespace Level

/-- The word under which a level is reported. -/
def word : Level → String
  | .debug => "debug"
  | .info => "info"
  | .warning => "warning"
  | .error => "error"
  | .critical => "critical"

/-- The word under which a level is written to a log file. -/
def fileWord : Level → String
  | .debug => "DEBUG"
  | .info => "INFO"
  | .warning => "WARNING"
  | .error => "ERROR"
  | .critical => "CRITICAL"

/-- The rank of a level; a more important one has the greater rank. -/
def rank : Level → Nat
  | .debug => 10
  | .info => 20
  | .warning => 30
  | .error => 40
  | .critical => 50

/-- All levels, the least important one first. -/
def all : List Level := [.debug, .info, .warning, .error, .critical]

end Level

/-- A reported event. -/
structure Event where
  /-- The part of the program that reports. -/
  logger : String
  name : String
  level : Level
  fields : Fields := []

namespace Logger

/-- The part that saves drafts. -/
def drafts : String := "dialogforge.graph.drafts"

/-- The part that brings documents up to the current version. -/
def migration : String := "dialogforge.export.migration"

/-- The part that turns documents into graphs. -/
def loader : String := "dialogforge.export.loader"

/-- The part that inspects graphs. -/
def inspection : String := "dialogforge.inspection"

/-- The commands. -/
def commands : String := "dialogforge.cli"

end Logger

end Parley.Log
