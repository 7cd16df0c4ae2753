import Parley.Command.Arguments
import Parley.Command.Console
import Parley.Failure
import Parley.Log.Event

/-!
# Display

How what a command prints looks where no colours can be shown: markup is left out, and the columns
of a table are lined up.  Command lines that are not understood are explained.
-/

namespace Parley.Command

/-- What is shown of a part of a text. -/
def Markup.Piece.shown : Markup.Piece → List Char
  | .text shown => shown
  | .tag _ _ => []

/-- A text as it is shown. -/
def shownText (s : String) : String :=
  String.ofList ((Markup.pieces 0 0 0 s.toList).flatMap Markup.Piece.shown)

/-- The widths that the columns of a table need. -/
def columnWidths (rows : List (List String)) : List Nat :=
  rows.foldr (fun row widths =>
    (List.range (max row.length widths.length)).map fun n =>
      max ((row[n]?.map String.length).getD 0) (widths[n]?.getD 0)) []

/-- A row of a table, with its cells filled up to their widths. -/
def shownRow (widths : List Nat) (row : List String) : String :=
  "  ".intercalate ((row.zip widths).map fun (cell, width) =>
    cell ++ String.ofList (List.replicate (width - cell.length) ' '))

/-- The lines of something that is printed. -/
def Printed.lines : Printed → List String
  | .line text => [shownText text]
  | .table title columns rows =>
    let rows := (columns :: rows).map (·.map shownText)
    shownText title :: rows.map (shownRow (columnWidths rows))

/-- What is reported about a command line that is not understood. -/
def UsageError.message : UsageError → String
  | .unknownOption name => "No such option: " ++ name
  | .noValue option => "The option for '" ++ option ++ "' requires a value."
  | .needlessValue option => "The option '" ++ option ++ "' does not take a value."
  | .noWord => "An argument is missing."
  | .needlessWord word => "An argument is too much: " ++ word
  | .noCommand => "No command is given."
  | .unknownCommand name => "No such command: " ++ name
  | .noNumber text => "'" ++ text ++ "' is not a number."

/-- How the program is called. -/
def usageLines : List String := [
  "Usage: dlg [-v] [--log] [--projects-dir FOLDER] COMMAND ...",
  "",
  "Author dialogue graphs and export them for a game.",
  "",
  "Commands:",
  "  version",
  "  init NAME [--path FOLDER] [--npc NAME]",
  "  add-node KIND [--id ID] [--x X] [--y Y] [--text TEXT]",
  "  connect SOURCE TARGET [--true | --false]",
  "  disconnect SOURCE TARGET",
  "  remove-node ID",
  "  set ID FIELD VALUE",
  "  add-executor RESULT TYPE [VALUE] [--key KEY]",
  "  export [--output FOLDER]",
  "  import FILE [--force]",
  "  check",
  "",
  "Commands on a project take --project FOLDER or -p FOLDER."]

/-- The line that shows an event. -/
def shownEvent (e : Log.Event) : String :=
  let field (f : String × Json) : String := " " ++ f.1 ++ "=" ++ Failure.showing f.2 id
  "[" ++ e.level.word ++ "] " ++ e.name ++ String.join (e.fields.map field)

end Parley.Command
