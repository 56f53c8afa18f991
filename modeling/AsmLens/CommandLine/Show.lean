import AsmLens.CommandLine.Console
import AsmLens.Terminal.Row

/-!
# Tables on the standard output
-/

namespace AsmLens.CommandLine

open Terminal (Tone)

/-- Lines on the standard output; the first that has no text ends the command. -/
def printLines : List (Except Fault String) → Action Unit
  | [] => pure ()
  | line :: lines => do
    Action.print (← line)
    printLines lines

/-- A table, its regions by their place in the source. -/
def printTable (t : RegionTable) : Action Unit := do
  let on := (← Action.look).color
  Action.print (t.titleRow on)
  printLines (t.byPosition.map fun r => r.row on)

/-- How many regions of a table are in which class, and what its functions take. -/
def printSummary (t : RegionTable) : Action Unit := do
  let on := (← Action.look).color
  Action.print (t.summaryTitle on)
  printLines (t.histogram.map fun p => .ok (RegionTable.classRow p))
  let functions := t.functionGas
  if !functions.isEmpty then
    Action.print (Tone.bold.paint on "Functions")
    printLines (functions.map (RegionTable.functionRow on))

/-- A table, and a summary if it has measurements. -/
def printWithSummary (t : RegionTable) : Action Unit := do
  printTable t
  if t.measured then printSummary t

end AsmLens.CommandLine
