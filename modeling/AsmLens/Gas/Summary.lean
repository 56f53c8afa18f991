import AsmLens.Region.Table

/-!
# Gas summaries

How many regions each class of the heat map has, and the gas of whole functions in
the order of their place in the source.
-/

namespace AsmLens.RegionTable

/-- How many regions each class has, the class without a measurement first. -/
def histogram (t : RegionTable) : List (GasClass × Nat) :=
  GasClass.all.map fun c => (c, t.regions.values.countP fun r => r.gasClass = c)

/-- The gas of one function. -/
structure FunctionGas where
  key : String
  name : Doc
  gas : Number

/-- The gas of functions by place. -/
def functionGas (t : RegionTable) : List FunctionGas :=
  t.byPosition.filterMap fun r => do
    let g ← r.gas
    return ⟨r.key, r.functionName, ← g.functionGas⟩

end AsmLens.RegionTable
