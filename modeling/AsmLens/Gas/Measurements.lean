import AsmLens.Document.Field
import AsmLens.Gas.Record
import AsmLens.Source.Range

/-!
# Measurement documents

The result of a symbolic execution: for each of the two phases, creation and
runtime, an object that maps range keys to measurements. Keys have to denote
ranges but are kept as they are written.

Some members have two names, of which the first that is there counts. A worst case
that is not given is the mean of the greatest totals; without samples there is none.
-/

namespace AsmLens

open AsmLens.Doc (field? requireNumber)

/-- The phases of a contract's life, in the order in which their gas is applied. -/
inductive Phase
  | creation | runtime
deriving DecidableEq, Repr

/-- The name of a phase. -/
def Phase.name : Phase → String
  | .creation => "creation"
  | .runtime => "runtime"

namespace GasRecord

/-- A number that may be missing. -/
def optionalNumber (item : Doc) (name path : String) : Except Problem (Option Number) :=
  match item.field? name with
  | none => .ok none
  | some _ => (requireNumber item name path).map some

/-- The first number that is there among some members. -/
def firstNumber (item : Doc) (path : String) : List String → Except Problem (Option Number)
  | [] => .ok none
  | name :: names =>
    match item.field? name with
    | none => firstNumber item path names
    | some _ => (requireNumber item name path).map some

/-- The number of samples. -/
def readSamples (item : Doc) (path : String) : Result Int := do
  match ← firstNumber item path ["numSamples", "numTx"] with
  | some n => n.truncate
  | none => Failure.raise (.missingField (path ++ ".numSamples"))

/-- One loop: its program counter and its gas. -/
def readLoop (path counter : String) (estimate : Doc) : Except Problem (Int × LoopGas) := do
  let at_ := path ++ "." ++ counter
  match Text.readInt? counter with
  | none => throw (.invalidCounter counter at_)
  | some pc =>
    match estimate with
    | .object _ =>
      let gas ← requireNumber estimate "gas" at_
      return (pc, ⟨gas, !(estimate.get "isHidden").isBlank⟩)
    | _ => throw (.expectedObject at_)

/-- The loops of a measurement; a later mention of a program counter replaces an earlier one. -/
def readLoops (raw : Doc) (path : String) : Except Problem (Ledger Int LoopGas) :=
  match raw with
  | .null => .ok ∅
  | .object ms => do
    return Ledger.ofList (← ms.mapM fun m => readLoop path m.1 m.2)
  | _ => .error (.expectedObject path)

/-- The issues of a measurement, each as text. -/
def readIssues (item : Doc) (path : String) : List String → Except Problem (List String)
  | [] => .ok []
  | name :: names =>
    let issues := item.get name
    if issues.isBlank then readIssues item path names
    else
      match issues with
      | .list xs => .ok (xs.map Doc.display)
      | _ => .error (.expectedList (path ++ "." ++ name))

/-- The record of one measurement. -/
def read (item : Doc) (path : String) : Result GasRecord := do
  match item with
  | .object _ => pure ()
  | _ => Failure.raise (.expectedMeasurement path)
  let samples ← readSamples item path
  let minOpcode ← requireNumber item "minOpcodeGas" path
  let maxOpcode ← requireNumber item "maxOpcodeGas" path
  let minStorage ← requireNumber item "minStorageGas" path
  let maxStorage ← requireNumber item "maxStorageGas" path
  let memory ← requireNumber item "memGas" path
  let given ← firstNumber item path ["meanWcGas", "meanMaxTotalGas"]
  let computed ← match given with
    | some w => pure (some w)
    | none =>
      if 0 < samples then do
        let total ← sum3 maxOpcode maxStorage memory
        pure (some (.float (← total.div (.int samples))))
      else pure none
  let worstCase := if samples ≤ 0 then none else computed
  let meanOpcode ← optionalNumber item "meanOpcodeGas" path
  let functionGas ← optionalNumber item "functionGas" path
  let loops ← readLoops (item.get "loopGas") (path ++ ".loopGas")
  let issues ← readIssues item path ["detectedIssues", "issues"]
  return {
    gasClass := GasClass.ofMeasured worstCase
    samples, minOpcode, maxOpcode, minStorage, maxStorage, memory, worstCase, meanOpcode
    functionGas, loops, issues }

end GasRecord

/-- The measurements of one symbolic execution, by the keys as they are written. -/
structure Measurements where
  creation : List (String × GasRecord)
  runtime : List (String × GasRecord)

namespace Measurements

/-- The measurements of the phases, in the order in which they are applied. -/
def phases (m : Measurements) : List (Phase × List (String × GasRecord)) :=
  [(.creation, m.creation), (.runtime, m.runtime)]

/-- The number of measurements. -/
def size (m : Measurements) : Nat := m.creation.length + m.runtime.length

/-- The measurements of one phase. -/
def readPhase (document : Doc) (phase : Phase) : Result (List (String × GasRecord)) :=
  match document.field? phase.name with
  | none => Failure.raise (.missingField phase.name)
  | some (.object ms) =>
    ms.mapM fun m => do
      let _ ← SourceRange.ofKey m.1
      return (m.1, ← GasRecord.read m.2 (phase.name ++ "." ++ m.1))
  | some _ => Failure.raise (.expectedObject phase.name)

/-- The measurements that a document holds. -/
def read (document : Doc) : Result Measurements := do
  match document with
  | .object _ => return ⟨← readPhase document .creation, ← readPhase document .runtime⟩
  | _ => Failure.raise .expectedResult

end Measurements

end AsmLens
