import AsmLens.CommandLine.Input
import AsmLens.CommandLine.Invocation
import AsmLens.CommandLine.Show
import AsmLens.View.Wire

/-!
# Annotate

Shows how the regions of a source map to the lines of the assembly, from files alone;
with measurements also the gas that they take.
-/

namespace AsmLens.CommandLine

/-- What `annotate` shows of a table. -/
def showAnnotated (o : AnnotateOptions) (c : Compilation) (t : RegionTable) : Action Nat := do
  Action.note .debug ("Annotating " ++ t.summary)
  if o.json then Action.printJson (← c.toDoc (some t.contract) o.listing)
  else if o.listing then Action.print t.listing
  else printWithSummary t
  return 0

/-- The command `annotate`. -/
def annotate (o : AnnotateOptions) : Action Nat :=
  Action.guarded o.json (loadTable o.source o.compiled o.contract o.symexec) fun (c, t) =>
    showAnnotated o c t

end AsmLens.CommandLine
