import AsmLens.Assembly.Section
import AsmLens.Log.Traced
import AsmLens.Region.Table

/-!
# Building a listing

A builder takes the instructions of a contract in the order in which they are
emitted and makes two things at once: the listing, one line per instruction, and the
regions that the lines belong to.

What becomes of an instruction does not depend on what came before it (`fate`): it
is dropped if it stands for the declaration of the contract itself, it belongs to no
region if it has no range in the primary file, it fails if its range runs out of
the source, and else it is mapped to the region of its range. All but a dropped one
take a listing line, a failing one too.
-/

namespace AsmLens

/-- A listing under construction. -/
structure Builder where
  index : LineIndex
  /-- The range whose instructions are left out. -/
  excluded : Option SourceRange
  table : RegionTable
  emitted : Nat
  dropped : Nat
  unmapped : Nat

/-- What becomes of an instruction. -/
inductive Fate
  | dropped
  | unmapped
  | failed (p : Problem)
  | mapped (range : SourceRange) (position : Position)

/-- The problem of an instruction that fails. -/
def Fate.problem? : Fate → Option Problem
  | failed p => some p
  | _ => none

namespace Builder

/-- A builder before the first instruction. -/
def new (index : LineIndex) (contract : String) (excluded : Option SourceRange)
    (generation : Int) : Builder :=
  ⟨index, excluded, RegionTable.new contract generation, 0, 0, 0⟩

/-- The number of the last listing line, or 0. -/
def line (b : Builder) : Nat := b.table.lines.size

/-- What becomes of an instruction. -/
def fate (b : Builder) (i : Instruction) : Fate :=
  match i.range? with
  | none => .unmapped
  | some r =>
    if b.excluded = some r then .dropped
    else
      match b.index.position r with
      | .ok p => .mapped r p
      | .error e => .failed e

/-- The builder with one more listing line. -/
def emit (b : Builder) (text : String) : Builder :=
  { b with table := { b.table with lines := b.table.lines.push text } }

/-- The builder after an instruction. -/
def add (b : Builder) (i : Instruction) : Builder :=
  match b.fate i with
  | .dropped => { b with dropped := b.dropped + 1 }
  | .unmapped => { b.emit i.render with emitted := b.emitted + 1, unmapped := b.unmapped + 1 }
  | .failed _ => { b.emit i.render with emitted := b.emitted + 1 }
  | .mapped r p =>
    let b' := b.emit i.render
    { b' with
      emitted := b.emitted + 1
      table := (b'.table.ensure r p).addLine r.key b'.line }

/-- The builder after instructions up to the first that fails, and its problem. -/
def addAll (b : Builder) : List Instruction → Builder × Option Problem
  | [] => (b, none)
  | i :: is =>
    match (b.fate i).problem? with
    | some p => (b.add i, some p)
    | none => addAll (b.add i) is

/-- The builder after a section: its header and its instructions. -/
def addSection (b : Builder) (s : Section) (is : List Instruction) : Builder × Option Problem :=
  (b.emit s.header).addAll is

/-! ## Notes -/

/-- The part of the program that building notes come from. -/
def origin : String := "assembly"

/-- The notes on instructions: each line that is mapped. -/
def lineNotes (b : Builder) : List Instruction → List Note
  | [] => []
  | i :: is =>
    match b.fate i with
    | .failed _ => []
    | .mapped r _ =>
      ⟨.trace, origin, "line " ++ toString (b.line + 1) ++ " -> " ++ r.key ++ " (" ++ i.name ++ ")"⟩
        :: lineNotes (b.add i) is
    | _ => lineNotes (b.add i) is

/-- The note on a section that is complete. -/
def sectionNote (b : Builder) (s : Section) (is : List Instruction) : Note :=
  ⟨.debug, origin, b.table.contract ++ ": " ++ toString is.length ++ " instructions in " ++ s.name ++
    " section"⟩

/-- The note on a listing that is complete. -/
def finalNote (b : Builder) : Note :=
  ⟨.debug, origin, b.table.contract ++ ": emitted " ++ toString b.emitted ++ " lines, " ++
    toString b.unmapped ++ " unmapped, " ++ toString b.dropped ++ " dropped, " ++
    toString b.table.regions.size ++ " regions"⟩

/-- A section added, with its notes. -/
def runSection (b : Builder) (s : Section) (is : List Instruction) : Traced Builder := do
  Traced.tell ((b.emit s.header).lineNotes is)
  match b.addSection s is with
  | (b', none) => do
    Traced.tell [b'.sectionNote s is]
    return b'
  | (_, some p) => Traced.fail p

end Builder

/-- The table of a contract's assembly. -/
def Assembly.tabulate (a : Assembly) (b : Builder) : Traced RegionTable := do
  let b ← b.runSection .constructor a.constructor
  let b ← b.runSection .runtime a.runtime
  Traced.tell [b.finalNote]
  return b.table

end AsmLens
