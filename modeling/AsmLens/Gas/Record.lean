import AsmLens.Gas.Class
import AsmLens.Ledger

/-!
# Gas records

What symbolic execution measured for one source range: totals over its samples, the
mean worst case, and what is known of loops, of the whole function, and of issues.
-/

namespace AsmLens

/-- The gas of one loop; a hidden loop was not fully explored. -/
structure LoopGas where
  gas : Number
  hidden : Bool
deriving DecidableEq

/-- The measurement of one source range. -/
structure GasRecord where
  gasClass : GasClass
  samples : Int
  minOpcode : Number
  maxOpcode : Number
  minStorage : Number
  maxStorage : Number
  memory : Number
  /-- The mean worst case over the samples. -/
  worstCase : Option Number
  meanOpcode : Option Number
  functionGas : Option Number
  /-- Loops by program counter, in the order in which they were first named. -/
  loops : Ledger Int LoopGas
  issues : List String

/-- Means over the samples of a record. -/
structure GasMeans where
  minTotal : Number
  maxTotal : Number
  minOpcode : Number
  maxOpcode : Number
  minStorage : Number
  maxStorage : Number
  memory : Number
deriving DecidableEq

namespace GasRecord

/-- What totals are divided by: the number of samples, or one if there are none. -/
def divisor (g : GasRecord) : Int := if g.samples = 0 then 1 else g.samples

/-- A total divided by the number of samples. -/
def mean (g : GasRecord) (total : Number) : Except Fault Number :=
  (total.div (.int g.divisor)).map .float

/-- The sum of three totals, from the left. -/
def sum3 (a b c : Number) : Except Fault Number := do (← a.add b).add c

/-- The means over the samples. The worst case, where it is known, is the greatest mean. -/
def means (g : GasRecord) : Except Fault GasMeans := do
  let minTotal ← g.mean (← sum3 g.minOpcode g.minStorage g.memory)
  let maxTotal ← match g.worstCase with
    | some w => pure w
    | none => do g.mean (← sum3 g.maxOpcode g.maxStorage g.memory)
  return {
    minTotal, maxTotal
    minOpcode := ← g.mean g.minOpcode
    maxOpcode := ← g.mean g.maxOpcode
    minStorage := ← g.mean g.minStorage
    maxStorage := ← g.mean g.maxStorage
    memory := ← g.mean g.memory }

end GasRecord

end AsmLens
