import AsmLens.Region.Basic

/-!
# Region tables

The regions of one compiled contract, by key, in the order in which the assembly
first mentions them, together with the listing. A table belongs to a generation, the
number of the compilation that made it; a table is *retired* once a newer
compilation has replaced it.
-/

namespace AsmLens

/-- The regions and the listing of one contract. -/
structure RegionTable where
  contract : String
  generation : Int
  regions : Ledger String Region
  /-- The listing, line by line. -/
  lines : Array String
  /-- Whether measurements have been attached. -/
  measured : Bool
  retired : Bool

namespace RegionTable

/-- A table without regions. -/
def new (contract : String) (generation : Int) : RegionTable :=
  ⟨contract, generation, ∅, #[], false, false⟩

/-- The region under a key. -/
def find? (t : RegionTable) (key : String) : Option Region := t.regions.find? key

/-- The table with a region, unless a region with that range is there. -/
def ensure (t : RegionTable) (range : SourceRange) (position : Position) : RegionTable :=
  if t.regions.contains range.key then t
  else { t with regions := t.regions.insert range.key (Region.new range position) }

/-- The table with one more listing line for the region under a key. -/
def addLine (t : RegionTable) (key : String) (line : Int) : RegionTable :=
  { t with regions := t.regions.update key fun r => r.addLine line }

/-- The listing as one text. -/
def listing (t : RegionTable) : String := "\n".intercalate t.lines.toList

/-- The regions, the most specific first. -/
def bySpecificity (t : RegionTable) : List Region := t.regions.values.mergeSort Region.specificLE

/-- The regions in the order in which they are painted. -/
def byPainting (t : RegionTable) : List Region := t.regions.values.mergeSort Region.paintLE

/-- The regions by place. -/
def byPosition (t : RegionTable) : List Region := t.regions.values.mergeSort Region.positionLE

/-- How many regions carry gas. -/
def coveredCount (t : RegionTable) : Nat := t.regions.values.countP fun r => r.gas.isSome

/-- The percentage of regions that carry gas; none before measurements are attached. -/
def coverage? (t : RegionTable) : Option Binary64 :=
  if !t.measured then none
  else if t.regions.isEmpty then some (Binary64.zero false)
  else
    let hundredfold := (Binary64.ofInt t.coveredCount).mul (Binary64.ofInt 100)
    some (hundredfold.div (Binary64.ofInt t.regions.size))

/-- The table after its replacement. -/
def retire (t : RegionTable) : RegionTable := { t with retired := true }

/-- A table in short. -/
def summary (t : RegionTable) : String :=
  "MappingTable(contract=" ++ Text.quoted t.contract ++ ", generation=" ++
    Text.intText t.generation ++ ", entries=" ++ toString t.regions.size ++ ", lines=" ++
    toString t.lines.size ++ ")"

end RegionTable

end AsmLens
