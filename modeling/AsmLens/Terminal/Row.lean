import AsmLens.Gas.Amount
import AsmLens.Gas.Summary
import AsmLens.Terminal.Color

/-!
# Rows of text

Regions, gas means, tables and gas summaries as lines on a terminal. `on` says
whether colors are on.
-/

namespace AsmLens

open AsmLens.Text (padRight intText)
open AsmLens.Terminal (Tone)

/-- A span: its only line, or its first and last line. -/
def Span.row (s : Span) : String :=
  if s.first = s.last then intText s.first else intText s.first ++ "-" ++ intText s.last

/-- An extent: its start and its end. -/
def Position.row (p : Position) : String :=
  intText p.start.line ++ ":" ++ intText p.start.column ++ "-" ++ intText p.stop.line ++ ":" ++
    intText p.stop.column

namespace Region

/-- The spans of a region; a dash if it has none. -/
def spanRow (r : Region) : String :=
  if r.spans.isEmpty then "-" else ",".intercalate (r.spans.map Span.row)

/-- What a row says about a region's gas. -/
def gasRow (on : Bool) : Option GasRecord → Except Fault String
  | none => .ok ""
  | some g => do
    return "  gas " ++ Tone.gas.paint on (← Gas.amount g.worstCase) ++ " " ++
      Tone.dim.paint on g.gasClass.style

/-- What a row says about the function of a region. -/
def functionRow (r : Region) : String :=
  if r.functionName.isBlank then ""
  else
    let selector := r.functionSelector.getD ""
    "  fn " ++ r.functionName.display ++ (if selector.isEmpty then "" else " " ++ selector)

/-- The row of a region: key, source extent, listing lines, and gas where there is some. -/
def row (r : Region) (on : Bool) : Except Fault String := do
  let place := "  " ++ padRight 12 (Tone.key.paint on r.key) ++ " source " ++
    padRight 14 r.position.row ++ " compiled " ++ r.spanRow
  return place ++ (← gasRow on r.gas) ++ r.functionRow

end Region

/-- The means of a record, line by line. -/
def GasRecord.rows (g : GasRecord) : Except Fault (List String) := do
  let m ← g.means
  let from_to (a b : Number) : Except Fault String := do return (← a.pretty) ++ " - " ++ (← b.pretty)
  return [
    "  " ++ g.gasClass.label ++ " over " ++ intText g.samples ++ " sample(s)",
    "  mean total   " ++ (← from_to m.minTotal m.maxTotal),
    "  mean opcode  " ++ (← from_to m.minOpcode m.maxOpcode),
    "  mean storage " ++ (← from_to m.minStorage m.maxStorage),
    "  mean memory  " ++ (← m.memory.pretty)]

namespace RegionTable

/-- The line above the regions of a table. -/
def titleRow (t : RegionTable) (on : Bool) : String :=
  Tone.bold.paint on ("Contract " ++ t.contract) ++ " (" ++ toString t.regions.size ++
    " regions, " ++ toString t.lines.size ++ " listing lines)"

/-- The line above a gas summary. -/
def summaryTitle (t : RegionTable) (on : Bool) : String :=
  Tone.bold.paint on "Gas summary" ++
    match t.coverage? with
    | some c => " (coverage " ++ c.fixedText 2 false ++ "%)"
    | none => ""

/-- The row of one class in a gas summary. -/
def classRow (p : GasClass × Nat) : String := "  " ++ padRight 18 p.1.label ++ " " ++ toString p.2

/-- The row of one function in a gas summary. -/
def functionRow (on : Bool) (f : FunctionGas) : Except Fault String := do
  let shown ← (f.name.orElse (.text f.key)).displayPadded 18
  return "  " ++ shown ++ " " ++ Tone.gas.paint on (← f.gas.pretty)

end RegionTable

end AsmLens
