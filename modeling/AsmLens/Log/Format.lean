import AsmLens.Document.Basic
import AsmLens.Log.Note
import AsmLens.Terminal.Color

/-!
# Log lines

How a note is written: on the console as its level and its text, the level in color if
colors are on; in a file also with its time, and with the part of the program that it
comes from.
-/

namespace AsmLens

open Terminal (Tone)

/-- The name of the program in its own output. -/
def programName : String := "solbolt"

/-- The tones in which the console shows a level. -/
def LogLevel.tones (l : LogLevel) : List Tone :=
  if l = LogLevel.trace then [.dim]
  else if l = LogLevel.debug then [.dim]
  else if l = LogLevel.info then [.info]
  else if l = LogLevel.warning then [.warning]
  else if l = LogLevel.error then [.error]
  else if l = LogLevel.critical then [.bold, .error]
  else []

/-- The name of a level as the console shows it. -/
def LogLevel.shown (l : LogLevel) (on : Bool) : String :=
  if on && !l.tones.isEmpty then
    String.join (l.tones.map Tone.start) ++ l.name ++ Terminal.reset
  else l.name

namespace Note

/-- A note as the console shows it. -/
def consoleText (n : Note) (on : Bool) : String := n.level.shown on ++ ": " ++ n.message

/-- The part of the program that a note comes from, in full. -/
def source (n : Note) : String :=
  if n.origin.isEmpty then programName else programName ++ "." ++ n.origin

/-- The thread that all notes come from. -/
def thread : String := "MainThread"

/-- A note as a log file holds it. -/
def fileText (n : Note) (time : String) : String :=
  " - ".intercalate [time, thread, n.source, n.level.name, n.message]

end Note

/-! ## Templates -/

namespace LogTemplate

/-- A value put in for a mark: a text for `s`, its quoted form for `r`, a whole number for `d`. -/
def fill (mark : Char) (v : Doc) : String :=
  match mark, v with
  | 'r', v => v.inspect
  | 'd', .bool b => if b then "1" else "0"
  | 'd', .number n => (n.truncate.toOption.map Text.intText).getD n.plain
  | _, v => v.display

/-- A template with values put in for its marks; two percent signs stand for one. -/
def expand : List Char → List Doc → String
  | '%' :: '%' :: cs, vs => "%" ++ expand cs vs
  | '%' :: mark :: cs, v :: vs => fill mark v ++ expand cs vs
  | c :: cs, vs => String.singleton c ++ expand cs vs
  | [], _ => ""

/-- The message that a template and values make; without values the template is the message. -/
def message (template : String) (values : List Doc) : String :=
  if values.isEmpty then template else expand template.toList values

end LogTemplate

end AsmLens
