/-!
# Colors on a terminal

Text may be set off by escape sequences. That is done on a terminal only, and not if
the environment asks for no color.
-/

namespace AsmLens.Terminal

/-- What a text is set off as. -/
inductive Tone
  | bold | dim | error | success | warning | info | gas | key
deriving DecidableEq, Repr

/-- The sequence that starts with the escape character. -/
def sequence (code : String) : String := "\x1b[" ++ code ++ "m"

/-- The sequence that ends a tone. -/
def reset : String := sequence "0"

namespace Tone

/-- The sequence that starts a tone. -/
def start : Tone → String
  | bold => sequence "1"
  | dim => sequence "2"
  | error => sequence "91"
  | success => sequence "92"
  | warning => sequence "93"
  | info => sequence "96"
  | gas => sequence "33"
  | key => sequence "35"

/-- A text in a tone, if colors are on. -/
def paint (tone : Tone) (on : Bool) (text : String) : String :=
  if on then tone.start ++ text ++ reset else text

end Tone

/-- Whether colors are shown: on a terminal, unless the environment names a reason not to. -/
def showsColor (isTerminal : Bool) (noColor : Option String) : Bool :=
  isTerminal && (noColor.getD "").isEmpty

end AsmLens.Terminal
