/-!
# Notes for the log

A note is one line that a part of the program has for the log: how important it is,
which part it comes from, and its text.
-/

namespace AsmLens

/-- How important a note is; higher is more. -/
abbrev LogLevel := Nat

namespace LogLevel

def trace : LogLevel := 5
def debug : LogLevel := 10
def info : LogLevel := 20
def warning : LogLevel := 30
def error : LogLevel := 40
def critical : LogLevel := 50

/-- The name of a level. -/
def name (l : LogLevel) : String :=
  if l = 0 then "NOTSET"
  else if l = trace then "TRACE"
  else if l = debug then "DEBUG"
  else if l = info then "INFO"
  else if l = warning then "WARNING"
  else if l = error then "ERROR"
  else if l = critical then "CRITICAL"
  else "Level " ++ toString l

end LogLevel

/-- One line for the log. -/
structure Note where
  level : LogLevel
  /-- The part of the program that the note comes from; empty for the program as a whole. -/
  origin : String
  message : String
deriving DecidableEq, Repr

end AsmLens
