import AsmLens.Compilation

/-!
# Tables as documents

The form in which tables go to the explorer's web page: for each contract its
regions by key, the listing if it is wanted, and how much of it has gas.
-/

namespace AsmLens

/-- An extent as a document. -/
def Position.toDoc (p : Position) : Doc :=
  .object [("startLine", .int p.start.line), ("startChar", .int p.start.column),
    ("endLine", .int p.stop.line), ("endChar", .int p.stop.column), ("length", .int p.length)]

/-- A span of a region of the given length as a document. -/
def Span.toDoc (s : Span) (length : Int) : Doc :=
  .object [("startLine", .int s.first), ("startChar", .int 1), ("endLine", .int s.last),
    ("endChar", .int 1), ("length", .int length)]

namespace GasRecord

/-- A number that may be missing. -/
def numberDoc (n : Option Number) : Doc := Doc.ofOption .number n

/-- A number that is left out if it is missing. -/
def optionalMember (name : String) : Option Number → List (String × Doc)
  | some n => [(name, .number n)]
  | none => []

/-- The totals of a record. -/
def members (g : GasRecord) : List (String × Doc) :=
  [("class", .text g.gasClass.style), ("numSamples", .int g.samples),
   ("minOpcodeGas", .number g.minOpcode), ("maxOpcodeGas", .number g.maxOpcode),
   ("minStorageGas", .number g.minStorage), ("maxStorageGas", .number g.maxStorage),
   ("memGas", .number g.memory), ("meanWcGas", numberDoc g.worstCase)] ++
    optionalMember "meanOpcodeGas" g.meanOpcode

/-- The totals of a record as a document. -/
def toDoc (g : GasRecord) : Doc := .object g.members

/-- The loops of a record by ascending program counter. -/
def sortedLoops (g : GasRecord) : List (Int × LoopGas) :=
  g.loops.toList.mergeSort fun a b => a.1 ≤ b.1

/-- The loops of a record, left out if there are none. -/
def loopMembers (g : GasRecord) : List (String × Doc) :=
  if g.loops.isEmpty then []
  else
    [("loopGas", .object (g.sortedLoops.map fun p =>
      (Text.intText p.1, .object [("gas", .number p.2.gas), ("isHidden", .bool p.2.hidden)])))]

/-- The issues of a record, left out if there are none. -/
def issueMembers (g : GasRecord) : List (String × Doc) :=
  if g.issues.isEmpty then [] else [("detectedIssues", .list (g.issues.map .text))]

end GasRecord

/-- Means as a document. -/
def GasMeans.toDoc (m : GasMeans) : Doc :=
  .object [("meanMinTotalGas", .number m.minTotal), ("meanMaxTotalGas", .number m.maxTotal),
    ("meanMinOpcodeGas", .number m.minOpcode), ("meanMaxOpcodeGas", .number m.maxOpcode),
    ("meanMinStorageGas", .number m.minStorage), ("meanMaxStorageGas", .number m.maxStorage),
    ("meanMemGas", .number m.memory)]

/-- A region as a document. -/
def Region.toDoc (r : Region) : Doc :=
  let place := [("sourceMap", r.position.toDoc),
    ("compiledMaps", Doc.list (r.spans.map fun s => s.toDoc r.length))]
  match r.gas with
  | none => .object place
  | some g =>
    let named := Report.unlessBlank "functionName" r.functionName ++
      Report.unlessBlank "functionSelector" (Doc.ofOption .text r.functionSelector)
    .object (place ++ ("gasMap", g.toDoc) :: g.loopMembers ++
      GasRecord.optionalMember "functionGas" g.functionGas ++ named ++ g.issueMembers)

/-- A table as a document. -/
def RegionTable.toDoc (t : RegionTable) (withListing : Bool) : Doc :=
  let regions := t.regions.toList.map fun p => (p.1, p.2.toDoc)
  let listing := if withListing then [("filteredLines", Doc.text t.listing)] else []
  let coverage := match t.coverage? with
    | some c => [("covPercentage", Doc.float (c.roundPlaces 2))]
    | none => []
  .object ([("mappings", .object regions), ("hasSymExec", .bool t.measured)] ++ listing ++ coverage)

/-- The tables of a compilation, or of one contract if its name is given, as a document. -/
def Compilation.toDoc (c : Compilation) (contract : Option String) (withListing : Bool) :
    Except Fault Doc := do
  match contract.filter fun n => !n.isEmpty with
  | none => return .object (c.tables.toList.map fun p => (p.1, p.2.toDoc withListing))
  | some name =>
    match c.find? name with
    | some t => return .object [(name, t.toDoc withListing)]
    | none => throw (.noEntry name)

end AsmLens
