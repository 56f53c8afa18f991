import AsmLens.Log.Format

/-!
# Where notes go

A run logs to the console unless it is quiet, and to a file if there is one. Each of the
two takes notes from a level of its own on. With neither, warnings and what is worse
still reach the console, as bare text.
-/

namespace AsmLens

/-- What a run was asked to log. -/
structure LogSetup where
  quiet : Bool := false
  debug : Bool := false
  verbose : Bool := false
  file : Option String := none

namespace LogSetup

/-- The level from which on the console takes notes. -/
def consoleLevel (s : LogSetup) : LogLevel :=
  if s.verbose then LogLevel.trace else if s.debug then LogLevel.debug else LogLevel.warning

/-- The log file; an empty name is none. -/
def logFile? (s : LogSetup) : Option String := s.file.filter fun f => !f.isEmpty

/-- The level from which on notes are taken at all. -/
def level (s : LogSetup) : LogLevel :=
  if s.logFile?.isSome then min s.consoleLevel LogLevel.debug else s.consoleLevel

/-- The level from which on libraries for the network are listened to. -/
def libraryLevel (s : LogSetup) : LogLevel :=
  if s.verbose then LogLevel.debug else LogLevel.warning

/-- The levels of the console and the file, as far as they take notes. -/
def handlerLevels (s : LogSetup) : List LogLevel :=
  (if s.quiet then [] else [s.consoleLevel]) ++ if s.logFile?.isSome then [LogLevel.debug] else []

/-- What the console shows of a note. -/
def consoleLine (s : LogSetup) (on : Bool) (n : Note) : String :=
  if n.level < s.level then ""
  else if s.quiet then
    if s.logFile?.isNone && LogLevel.warning ≤ n.level then n.message ++ "\n" else ""
  else if n.level < s.consoleLevel then ""
  else n.consoleText on ++ "\n"

/-- What the console shows of some notes. -/
def consoleLines (s : LogSetup) (on : Bool) (ns : List Note) : String :=
  String.join (ns.map (s.consoleLine on))

/-- What the file holds of a note. -/
def fileLine (s : LogSetup) (time : String) (n : Note) : String :=
  if n.level < s.level || n.level < LogLevel.debug then "" else n.fileText time ++ "\n"

/-- What the file holds of some notes. -/
def fileLines (s : LogSetup) (time : String) (ns : List Note) : String :=
  String.join (ns.map (s.fileLine time))

end LogSetup

end AsmLens
