import Std.Time
import Parley.Command.Display
import Parley.Command.Footprint

/-!
# The program

Runs a command line on the files of the system: what the command may look at is read, the command is
run on it, and what it has changed is written.
-/

namespace Parley.Program

open Command

/-- Adds what the system has at a path.  A path that leads through a file or through nothing has
nothing at it. -/
def probe (files : FileTree) (path : Path) : IO FileTree := do
  if files.has path || (files.refusal? path).isSome then return files
  try
    let octets ← IO.FS.readBinFile path.text
    return files.put path (.file (.octets octets.toList))
  catch
    | .noFileOrDirectory .. => return files
    | .inappropriateType .. => return files.put path .folder
    | e => throw e

/-- The files that a command may look at.  The configuration says where documents go, so they are
looked for in a second round. -/
def gather (i : Invocation) : IO FileTree := do
  let files ← (footprint i {}).foldlM probe {}
  (footprint i files).foldlM probe files

/-- The path to a place in a tree. -/
def pathTo : List String → Path
  | "/" :: names => ⟨some "", names⟩
  | names => ⟨none, names⟩

/-- Writes an entry. -/
def writeEntry (place : List String) : FileEntry → IO Unit
  | .folder => IO.FS.createDirAll (pathTo place).text
  | .file (.text s) => IO.FS.writeFile (pathTo place).text s
  | .file (.octets octets) => IO.FS.writeBinFile (pathTo place).text ⟨octets.toArray⟩

/-- Writes what is new and removes what is gone. -/
def writeChanges (before after : FileTree) : IO Unit := do
  for (place, entry) in before.entries do
    if (after.at? place).isNone && entry != .folder then
      IO.FS.removeFile (pathTo place).text
  for (place, entry) in after.entries do
    if before.at? place != some entry then writeEntry place entry

/-- The present time, as log files write it. -/
def presentTime : IO String := do
  let time := Std.Time.DateTime.ofTimestamp (← Std.Time.Timestamp.now) .UTC
  return time.format "uuuu-MM-dd'T'HH:mm:ss.SSSSSS" ++ "+00:00"

/-- A number that no other run draws. -/
def freshNumber : IO Nat := do
  return (← IO.getRandomBytes 16).foldl (fun n octet => 256 * n + octet.toNat) 0

/-- Runs a command line that asks for a command. -/
def runCommand (surroundings : Option String) (args : List String) (i : Invocation) :
    IO UInt32 := do
  let files ← gather i
  let (ending, world) := Command.run surroundings args {
    files
    supply := .countingFrom (← freshNumber)
    console := .markup
    home := toString (← IO.currentDir)
    now := ← presentTime }
  writeChanges files world.files
  for e in world.noticed do IO.eprintln (shownEvent e)
  for p in world.printed do p.lines.forM IO.println
  for e in ending.failure do IO.eprintln e.report
  return ending.exitCode.toUInt32

end Parley.Program

open Parley Parley.Command in
/-- Runs the command line. -/
def main (args : List String) : IO UInt32 := do
  let surroundings ← IO.getEnv "DLG_PROJECTS_DIR"
  match Request.read surroundings args with
  | .ok (.run i) => Program.runCommand surroundings args i
  | .ok .help =>
    usageLines.forM IO.println
    return 0
  | .error e =>
    IO.eprintln e.message
    usageLines.forM IO.eprintln
    return usageExit.toUInt32
