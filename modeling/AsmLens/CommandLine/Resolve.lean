import AsmLens.CommandLine.Input
import AsmLens.CommandLine.Invocation
import AsmLens.CommandLine.Show
import AsmLens.View.Wire

/-!
# Resolve

Shows the most specific region under a position of the source or of the listing; with
measurements also the means of the gas that it takes.
-/

namespace AsmLens.CommandLine

open Terminal (Tone)

/-- The members that a document on a resolved position has for its region. -/
def regionMembers (r : Region) : Except Fault (List (String × Doc)) := do
  let spans := r.spans.map fun s =>
    Doc.object [("startLine", .int s.first), ("endLine", .int s.last)]
  let place := [("sourceMap", r.position.toDoc), ("compiledMaps", Doc.list spans)]
  match r.gas with
  | none => return place
  | some g => return place ++ [("gasMap", g.toDoc), ("gasStatistics", (← g.means).toDoc)]

/-- The document on a resolved position. -/
def resolvedDoc (o : ResolveOptions) (t : RegionTable) (r : Option Region) : Except Fault Doc := do
  let more ← match r with
    | some r => regionMembers r
    | none => pure []
  return .object ([("contract", .text t.contract), ("view", .text o.view.name),
    ("line", .int o.cursor.line), ("column", .int o.cursor.column),
    ("key", Doc.ofOption (fun r => .text r.key) r)] ++ more)

/-- The line on a position without a region. -/
def nowhere (o : ResolveOptions) : String :=
  "No region at " ++ o.view.name ++ " line " ++ Text.intText o.cursor.line ++ " column " ++
    Text.intText o.cursor.column

/-- A region with its means. -/
def printRegion (r : Region) : Action Unit := do
  let on := (← Action.look).color
  Action.print (Tone.bold.paint on ("Region " ++ r.key))
  Action.print (← r.row on)
  if let some g := r.gas then printLines ((← g.rows).map .ok)

/-- What `resolve` shows of a table. -/
def showResolved (o : ResolveOptions) (t : RegionTable) : Action Nat := do
  let r := t.resolve o.view o.cursor
  if o.json then Action.printJson (← resolvedDoc o t r)
  else
    match r with
    | some r => printRegion r
    | none => Action.print (Tone.warning.paint (← Action.look).color (nowhere o))
  return 0

/-- The command `resolve`. -/
def resolve (o : ResolveOptions) : Action Nat :=
  Action.guarded o.json (loadTable o.source o.compiled o.contract o.symexec) fun (_, t) =>
    showResolved o t

end AsmLens.CommandLine
