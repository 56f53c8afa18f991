import AsmLens.CommandLine.Annotate
import AsmLens.CommandLine.Compile
import AsmLens.CommandLine.Resolve

/-!
# Running a command line

The program as a function: from the arguments and a console to the console afterwards
and how the program ended.
-/

namespace AsmLens.CommandLine

/-- The version of the program. -/
def version : String := "0.1.0"

/-- The code with which the program ends on a wrong command line. -/
def usageCode : Nat := 2

/-- The log file opened; it is there from then on. -/
def openLog (log : LogSetup) : Action Unit := do
  Action.change fun c => { c with log := { log with file := none } }
  match log.logFile? with
  | none => pure ()
  | some path =>
    let c ← Action.look
    let path := c.folder.absolute path
    match Console.append c.folder path "" with
    | .error o => Action.ofResult (.error (.fault (o.fault path)))
    | .ok folder => Action.change fun c => { c with folder, log }

/-- A command. -/
def runCommand : Command → Action Nat
  | .annotate o => annotate o
  | .resolve o => resolve o
  | .compile o => compile o

/-- An invocation. -/
def Invocation.run (i : Invocation) : Action Nat := do
  openLog i.log
  runCommand i.command

/-- The operand in the line on a command's usage. -/
def operandUsage (o : Arguments.OperandRule) : String :=
  match o.arity with
  | .one => o.name
  | .optional => "[" ++ o.name ++ "]"
  | .remainder => o.name ++ " ..."

/-- The line on a command's usage. -/
def usage (g : Arguments.Grammar) : String :=
  " ".intercalate ("usage:" :: g.program :: g.options.map (fun r => "[" ++ r.label ++ "]") ++
    g.operands.map operandUsage)

/-- A command line. -/
def run (args : List String) : Action Nat :=
  match Invocation.read args with
  | .ok i => i.run
  | .error .version => do
    Action.print (programName ++ " " ++ version)
    return 0
  | .error (.help g) => do
    Action.print (usage g)
    return 0
  | .error (.usage text) => do
    Action.change (·.complain text)
    return usageCode

end AsmLens.CommandLine
