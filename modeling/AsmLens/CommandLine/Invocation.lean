import AsmLens.Arguments.Grammar
import AsmLens.Log.Setup
import AsmLens.Number.Reader
import AsmLens.View.Resolve

/-!
# Invocations

What the program can be asked to do, and the command lines that ask for it.

    annotate   map source regions to assembly lines
    resolve    find the region under a position
    compile    have a source compiled, and executed symbolically, by the service
-/

namespace AsmLens.CommandLine

open Arguments

/-- The options of `annotate`. -/
structure AnnotateOptions where
  source : String
  compiled : String
  symexec : Option String
  contract : Option String
  listing : Bool
  json : Bool

/-- The options of `resolve`. -/
structure ResolveOptions where
  source : String
  compiled : String
  view : View
  cursor : Cursor
  symexec : Option String
  contract : Option String
  json : Bool

/-- The options of `compile`. -/
structure CompileOptions where
  source : String
  /-- The contract to execute symbolically. -/
  symexec : Option String
  settings : Option String
  serviceUrl : Option String
  saveSettings : Bool
  /-- How long each job may take, in seconds. -/
  timeout : Number
  json : Bool

/-- What the program is asked to do. -/
inductive Command
  | annotate (o : AnnotateOptions)
  | resolve (o : ResolveOptions)
  | compile (o : CompileOptions)

/-- A command, and what to log on the way. -/
structure Invocation where
  log : LogSetup
  command : Command

/-! ## Grammars -/

/-- The complaint on a text that is no integer. -/
def integerComplaint (s : String) : Option String :=
  match Text.readInt? s with
  | some _ => none
  | none => some ("invalid int value: " ++ Text.quoted s)

/-- The complaint on a text that is no number. -/
def numberComplaint (s : String) : Option String :=
  match Binary64.read? s with
  | some _ => none
  | none => some ("invalid float value: " ++ Text.quoted s)

/-- The complaint on a text that is none of some choices. -/
def choiceComplaint (choices : List String) (s : String) : Option String :=
  if choices.contains s then none
  else some ("invalid choice: " ++ Text.quoted s ++ " (choose from " ++
    ", ".intercalate (choices.map Text.quoted) ++ ")")

/-- An option that takes any value. -/
def anyValue : Effect := .value fun _ => none

/-- The option that asks for help. -/
def helpRule : OptionRule := ⟨["-h", "--help"], .notice⟩

/-- The names of the commands. -/
def commandNames : List String := ["annotate", "resolve", "compile"]

/-- The program's own options; the rest belongs to the command. -/
def mainGrammar : Grammar where
  program := programName
  options := [helpRule, ⟨["--version", "-v"], .notice⟩, ⟨["--debug"], .flag⟩, ⟨["--verbose"], .flag⟩,
    ⟨["--quiet", "-q"], .flag⟩, ⟨["--log-file"], anyValue⟩]
  operands := [{ name := "command", arity := .remainder, complaint := choiceComplaint commandNames }]

/-- The command line of `annotate`. -/
def annotateGrammar : Grammar where
  program := programName ++ " annotate"
  options := [helpRule, ⟨["--symexec", "-s"], anyValue⟩, ⟨["--contract", "-c"], anyValue⟩,
    ⟨["--listing"], .flag⟩, ⟨["--json"], .flag⟩]
  operands := [{ name := "source" }, { name := "compiled" }]

/-- The command line of `resolve`. -/
def resolveGrammar : Grammar where
  program := programName ++ " resolve"
  options := [helpRule, ⟨["--view"], .value (choiceComplaint ["source", "compiled"])⟩,
    ⟨["--contract", "-c"], anyValue⟩, ⟨["--symexec", "-s"], anyValue⟩, ⟨["--json"], .flag⟩]
  operands := [{ name := "source" }, { name := "compiled" },
    { name := "line", complaint := integerComplaint },
    { name := "column", arity := .optional, complaint := integerComplaint }]

/-- The command line of `compile`. -/
def compileGrammar : Grammar where
  program := programName ++ " compile"
  options := [helpRule, ⟨["--symexec", "-s"], anyValue⟩, ⟨["--config"], anyValue⟩,
    ⟨["--service-url"], anyValue⟩, ⟨["--save-config"], .flag⟩, ⟨["--timeout"], .value numberComplaint⟩,
    ⟨["--json"], .flag⟩]
  operands := [{ name := "source" }]

/-! ## Reading -/

/-- Why there is nothing to do. -/
inductive Refusal
  /-- The command line is wrong; the text names the command. -/
  | usage (text : String)
  | version
  | help (g : Grammar)

/-- What is read from the arguments of a command. -/
def readWith (g : Grammar) (args : List String) : Except Refusal Parsed :=
  match g.parse args with
  | .ok p => .ok p
  | .error (.complaint text) => .error (.usage (g.program ++ ": error: " ++ text))
  | .error (.notice option) => .error (if option = "--version" then .version else .help g)

/-- An operand that has been read. -/
def operand (p : Parsed) (name : String) : String := (p.value? name).getD ""

/-- An integer that has been read. -/
def integer (p : Parsed) (name : String) (default : Int) : Int :=
  ((p.value? name).bind Text.readInt?).getD default

/-- The options of `annotate` that were read. -/
def annotateOptions (p : Parsed) : AnnotateOptions where
  source := operand p "source"
  compiled := operand p "compiled"
  symexec := p.value? "--symexec"
  contract := p.value? "--contract"
  listing := p.has "--listing"
  json := p.has "--json"

/-- The options of `resolve` that were read. -/
def resolveOptions (p : Parsed) : ResolveOptions where
  source := operand p "source"
  compiled := operand p "compiled"
  view := ((p.value? "--view").bind View.ofName?).getD .source
  cursor := ⟨integer p "line" 1, integer p "column" 1⟩
  symexec := p.value? "--symexec"
  contract := p.value? "--contract"
  json := p.has "--json"

/-- How long a job may take if nothing else is said, in seconds. -/
def defaultTimeout : Number := .int 300

/-- The options of `compile` that were read. -/
def compileOptions (p : Parsed) : CompileOptions where
  source := operand p "source"
  symexec := p.value? "--symexec"
  settings := p.value? "--config"
  serviceUrl := p.value? "--service-url"
  saveSettings := p.has "--save-config"
  timeout := (((p.value? "--timeout").bind Binary64.read?).map Number.float).getD defaultTimeout
  json := p.has "--json"

/-- The command that arguments ask for, and the arguments that belong to nothing. -/
def readCommand : List String → Except Refusal (Command × List String)
  | "annotate" :: args => do
    let p ← readWith annotateGrammar args
    return (.annotate (annotateOptions p), p.extras)
  | "resolve" :: args => do
    let p ← readWith resolveGrammar args
    return (.resolve (resolveOptions p), p.extras)
  | _ :: args => do
    let p ← readWith compileGrammar args
    return (.compile (compileOptions p), p.extras)
  | [] => throw (.help mainGrammar)

/-- The invocation that a command line asks for. -/
def Invocation.read (args : List String) : Except Refusal Invocation := do
  let p ← readWith mainGrammar args
  let (command, extras) ← readCommand p.remainder
  let extras := p.extras ++ extras
  if !extras.isEmpty then
    throw (.usage (mainGrammar.program ++ ": error: unrecognized arguments: " ++
      " ".intercalate extras))
  let log : LogSetup := {
    quiet := p.has "--quiet", debug := p.has "--debug", verbose := p.has "--verbose"
    file := p.value? "--log-file" }
  return { log, command }

end AsmLens.CommandLine
