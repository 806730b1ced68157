import Rowbase.Files.Edit
import Rowbase.Shell

/-! # The command line

The shell over standard input and a directory of the real file system. The files of the directory
are read at the start, and what a line changes is written before its answer is printed. -/
namespace Rowbase

/-- How deep directories inside the directory are read. -/
def directoryDepth : Nat := 16

/-- The files with what stands at a real path. -/
def readPlace (path : String) (fs : Files) : IO Files := do
  let real := (← IO.currentDir) / path
  if ← real.isDir then return (fs.makeAll (fs.start path) (Files.stepsOf path).reverse).2
  else if ← real.pathExists then
    return (fs.write path (← IO.FS.readBinFile real)).toOption.getD fs
  else return fs

/-- The files with all that stands on the way along these names from a real path. -/
def readWay (path : String) (fs : Files) : List String → IO Files
  | [] => pure fs
  | name :: names => do
    let path := joinPath path name
    readWay path (← readPlace path fs) names

/-- The files with all that stands at a real path and below it. -/
def readTree (path : String) : (depth : Nat) → Files → IO Files
  | 0, fs => pure fs
  | depth + 1, fs => do
    let real := (← IO.currentDir) / path
    let mut fs ← readPlace path fs
    if ← real.isDir then
      for entry in ← real.readDir do
        fs ← readTree (joinPath path entry.fileName) depth fs
    return fs

/-- Does to the real files what was done to their copy. -/
def writeEdits (old new : Files) : IO Unit := do
  let real := fun (names : List String) => "/" ++ "/".intercalate names
  for edit in old.edits new do
    match edit with
    | .makeDirectory names => IO.FS.createDirAll (real names)
    | .write names bytes => IO.FS.writeBinFile (real names) bytes
    | .remove names => IO.FS.removeFile (real names)

end Rowbase

open Rowbase

/-- The shell on the directory that the first argument or the environment names. -/
def main (args : List String) : IO UInt32 := do
  let location := Shell.locate args.head? (← IO.getEnv Shell.directoryVariable)
  let stdin ← IO.getStdin
  let stdout ← IO.getStdout
  stdout.putStr (Shell.banner location)
  let start := if Files.isAbsolute location.directory then "/" else ""
  let files ← readWay start (.fresh (Files.stepsOf (← IO.currentDir).toString))
    (Files.stepsOf location.directory)
  let mut state : Shell.State :=
    { session := { location }, files := ← readTree location.directory directoryDepth files }
  let mut ending : Option Shell.Ending := none
  while ending.isNone do
    if ← stdin.isTty then
      stdout.putStr "SQL> "
      stdout.flush
    let line ← stdin.getLine
    let (answer, next) := if line.isEmpty then (.error .left, state)
      else (Shell.answerLine line).run state
    writeEdits state.files next.files
    state := next
    match answer with
    | .error e => ending := some e
    | .ok text => stdout.putStr text
  if ending = some .left then writeEdits state.files state.remember
  return (ending.getD .left).code
