import AsmLens.CommandLine.Run
import AsmLens.Terminal.Color
import Std.Time.Format

/-!
# The program

Reads the files that the command line may mean, runs the command on them, and writes
what it printed and the files that it changed. There is no network to reach the service
through: each request is answered by that.
-/

namespace AsmLens.Program

/-- The paths that an argument may hold: itself, and the value within an option. -/
def pathsIn (arg : String) : List String :=
  [arg, "=".intercalate ((arg.splitOn "=").drop 1), (arg.drop 2).toString].filter (!·.isEmpty)

/-- A path and the paths of the folders on the way to it. -/
def wayTo (path : String) : List String :=
  let parts := path.splitOn "/"
  (List.range parts.length).map fun n => "/".intercalate (parts.take (n + 1))

/-- The files that a command line may mean: those in its arguments, and the settings. -/
def meantPaths (args : List String) : List String :=
  (Settings.fileName :: args.flatMap pathsIn).flatMap wayTo

/-- The folder with what is at a path, if anything is. -/
def look (f : Folder) (path : String) : IO Folder := do
  let place := (← IO.currentDir) / path
  if ← place.isDir then return f.addFolder path
  if !(← place.pathExists) then return f
  match ← (IO.FS.readBinFile place).toBaseIO with
  | .ok content => return f.add path content
  | .error _ => return f

/-- The current folder, as far as a command line may mean its files. -/
def currentFolder (args : List String) : IO Folder := do
  (meantPaths args).foldlM look (.empty (← IO.currentDir).toString)

/-- The time of a log line. -/
def timeStamp : IO String := do
  return (← Std.Time.DateTime.now).format "uuuu-MM-dd HH:mm:ss"

/-- The console that a command line starts with. -/
def console (args : List String) : IO CommandLine.Console := do
  let noColor ← IO.getEnv "NO_COLOR"
  return {
    folder := ← currentFolder args
    color := Terminal.showsColor (← (← IO.getStdout).isTty) noColor
    errorColor := Terminal.showsColor (← (← IO.getStderr).isTty) noColor
    serviceUrl := ← IO.getEnv "SOLBOLT_SERVICE_URL"
    replies := [], closing := .unreachable "no network", timePasses := true
    time := ← timeStamp
    log := {}, output := "", errors := "", requests := [], threads := true }

/-- Writes the files of a folder that differ from what they were. -/
def writeChanges (before after : Folder) : IO Unit := do
  for (place, content) in after.files.toList do
    if before.files.find? place != some content then
      IO.FS.writeBinFile (after.pathOf place) content

end AsmLens.Program

open AsmLens in
/-- Runs a command line; the code says how it ended. -/
def main (args : List String) : IO UInt32 := do
  let before ← Program.console args
  let (after, result) := CommandLine.run args before
  Program.writeChanges before.folder after.folder
  (← IO.getStdout).putStr after.output
  (← IO.getStderr).putStr after.errors
  match result with
  | .ok code => return code.toUInt32
  | .error (.problem p) => (← IO.getStderr).putStrLn p.report.text
  | .error (.fault f) => (← IO.getStderr).putStrLn (f.kind.name ++ ": " ++ f.message)
  return 1
