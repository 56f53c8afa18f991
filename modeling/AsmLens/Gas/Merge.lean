import AsmLens.Gas.Functions
import AsmLens.Gas.Measurements
import AsmLens.Log.InPlace
import AsmLens.Region.Table

/-!
# Attaching gas

Measurements are attached to a table phase by phase, creation before runtime. A
measurement goes to the region under its key, replaces what is there, and brings the
name and selector of its function if it measures one; measurements without a region
are left out.

Everything that can fail comes before the first change, so a table that is not
merged is not changed: what is written measurement by measurement (`mergeInPlace`) is a
whole new table or none (`mergeInPlace_eq`).
-/

namespace AsmLens

/-- A region with a measurement attached; `label` is the label of the function under its key. -/
def Region.attach (r : Region) (label : Option FunctionLabel) (g : GasRecord) : Region :=
  let label := if g.functionGas.isSome then label else none
  { r with
    gas := some g
    functionName := (label.map (·.name)).getD .null
    functionSelector := label.bind (·.selector) }

namespace RegionTable

/-- The table with one measurement attached. -/
def attach (labels : Ledger String FunctionLabel) (t : RegionTable) (m : String × GasRecord) :
    RegionTable :=
  { t with regions := t.regions.update m.1 fun r => r.attach (labels.find? m.1) m.2 }

/-- The table with the measurements of both phases attached. -/
def attachAll (t : RegionTable) (labels : Ledger String FunctionLabel) (ms : Measurements) :
    RegionTable :=
  { (ms.creation ++ ms.runtime).foldl (attach labels) t with measured := true }

/-- How many measurements have a region. -/
def matched (t : RegionTable) (ms : List (String × GasRecord)) : Nat :=
  ms.countP fun m => t.regions.contains m.1

/-- The notes on a merge. -/
def mergeNotes (t : RegionTable) (ms : Measurements) : List Note :=
  let phase (p : Phase × List (String × GasRecord)) : Note :=
    ⟨.debug, "gas", "Merged " ++ p.1.name ++ " phase: " ++ toString p.2.length ++ " measurements"⟩
  let applied := t.matched (ms.creation ++ ms.runtime)
  ms.phases.map phase ++
    [⟨.info, "gas", "Attached gas to " ++ toString applied ++ " region(s) of " ++ t.contract ++ " (" ++
      toString (ms.size - applied) ++ " unmatched)"⟩]

/-- A table with measurements attached; `tree` and `ids` name the functions. -/
def merge (t : RegionTable) (ms : Measurements) (tree ids : Doc) : Result RegionTable := do
  if t.retired then Failure.raise (.retiredTable t.contract t.generation)
  let labels ← functionIndex tree ids
  return t.attachAll labels ms

/-- A merge with its notes. -/
def runMerge (t : RegionTable) (ms : Measurements) (tree ids : Doc) : Traced RegionTable := do
  let t' ← t.merge ms tree ids
  Traced.tell (t.mergeNotes ms)
  return t'

/-- A merge in place: the measurements are written one after another. -/
def mergeInPlace (ms : Measurements) (tree ids : Doc) : InPlace RegionTable Unit := do
  let t ← InPlace.get
  if t.retired then InPlace.check (Traced.fail (.retiredTable t.contract t.generation))
  let labels ← InPlace.check (Traced.ofResult (functionIndex tree ids))
  InPlace.writeAll (attach labels) (ms.creation ++ ms.runtime)
  InPlace.write fun t => { t with measured := true }
  InPlace.check (Traced.tell (t.mergeNotes ms))

/-- A table is merged in full or not at all. -/
theorem mergeInPlace_eq (t : RegionTable) (ms : Measurements) (tree ids : Doc) :
    (mergeInPlace ms tree ids).run t = (t.runMerge ms tree ids).settle t := by
  rw [mergeInPlace, InPlace.run_get_bind, runMerge, merge]
  cases ht : t.retired with
  | true => exact InPlace.run_bind_error rfl
  | false =>
    cases hl : functionIndex tree ids with
    | error e => exact InPlace.run_bind_error rfl
    | ok labels =>
      -- no step can fail from the first write on
      have hwrites : (do
          InPlace.writeAll (attach labels) (ms.creation ++ ms.runtime)
          InPlace.write fun t => { t with measured := true }
          InPlace.check (Traced.tell (t.mergeNotes ms)) : InPlace RegionTable Unit).run t =
          (t.attachAll labels ms, Traced.tell (t.mergeNotes ms)) := by
        rw [InPlace.run_writeAll_bind, InPlace.run_write_bind]
        rfl
      refine (InPlace.run_bind_ok rfl).trans ?_
      rw [hwrites]
      rfl

end RegionTable

namespace Measurements

/-- The note on measurements that were read. -/
def readNote (ms : Measurements) : Note :=
  ⟨.debug, "symexec", "Parsed symexec result: " ++ toString ms.creation.length ++ " creation, " ++
    toString ms.runtime.length ++ " runtime measurements"⟩

/-- The measurements of a document, with their note. -/
def runRead (document : Doc) : Traced Measurements := do
  let ms ← read document
  Traced.tell [ms.readNote]
  return ms

end Measurements

end AsmLens
