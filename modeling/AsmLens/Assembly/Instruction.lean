import AsmLens.Source.Range

/-!
# Assembly instructions

One instruction of a contract's legacy assembly: its name, its operand, and the
range of a source file that it was compiled from. Source 0 is the primary file.
-/

namespace AsmLens

/-- An assembly instruction. -/
structure Instruction where
  name : String
  value : Option String
  source : Option Int
  first : Option Int
  last : Option Int
deriving DecidableEq, Repr

namespace Instruction

/-- An integer member that may be missing; `base` comes before its name in messages. -/
def readInteger (d : Doc) (name base : String) : Except Problem (Option Int) :=
  match d.get name with
  | .null => .ok none
  | .number (.int n) => .ok (some n)
  | v => .error (.expectedInteger v.shape (base ++ name))

/-- The instruction that a value describes. -/
def read (d : Doc) (path : String) : Except Problem Instruction := do
  let base := if path.isEmpty then "" else path ++ "."
  let name := d.get "name"
  if name.isBlank then throw (.missingField (base ++ "name"))
  match name with
  | .text name =>
    return {
      name
      value := (d.field? "value").map Doc.display
      source := ← readInteger d "source" base
      first := ← readInteger d "begin" base
      last := ← readInteger d "end" base }
  | _ => throw (.instructionName (base ++ "name"))

/-- Whether an instruction only marks a jump target. -/
def isTag (i : Instruction) : Bool := i.name = "tag"

/-- The range of the primary file that an instruction comes from, if any. -/
def range? (i : Instruction) : Option SourceRange :=
  match i.source, i.first, i.last with
  | some 0, some first, some last => if first < 0 ∨ last < first then none else some ⟨first, last⟩
  | _, _, _ => none

/-- The range of an instruction starts in the file and does not end before it starts. -/
theorem le_of_range? {i : Instruction} {r : SourceRange} (h : i.range? = some r) :
    0 ≤ r.first ∧ r.first ≤ r.last := by
  unfold range? at h
  split at h
  · split at h
    · simp at h
    · simp only [Option.some.injEq] at h
      subst h
      simp only
      omega
  · simp at h

/-- The listing line of an instruction. -/
def render (i : Instruction) : String :=
  if i.isTag then "\t\tTAG " ++ i.value.getD "None" ++ ":"
  else
    match i.value with
    | some v => if v.isEmpty then "\t\t\t\t" ++ i.name else "\t\t\t\t" ++ i.name ++ " " ++ v
    | none => "\t\t\t\t" ++ i.name

end Instruction

end AsmLens
