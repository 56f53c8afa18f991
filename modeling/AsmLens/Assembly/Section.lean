import AsmLens.Assembly.Instruction
import AsmLens.Document.Field

/-!
# Sections of legacy assembly

The assembly of a contract has two sections: the constructor, and the runtime code
that the constructor leaves behind. The compiler writes the code of a section under
one of two names, and the runtime code inside the data of the constructor.
-/

namespace AsmLens

/-- A section of a contract's assembly. -/
inductive Section
  | constructor | runtime
deriving DecidableEq, Repr

namespace Section

/-- The name of a section. -/
def name : Section → String
  | constructor => "constructor"
  | runtime => "runtime"

/-- The listing line above a section. -/
def header : Section → String
  | constructor => "CONSTRUCTOR:"
  | runtime => "SUBROUTINES:"

/-- The section with a name. -/
def ofName? (s : String) : Option Section := [constructor, runtime].find? fun k => k.name = s

end Section

/-- The instructions of a contract, by section. -/
structure Assembly where
  constructor : List Instruction
  runtime : List Instruction
deriving DecidableEq, Repr

namespace Assembly

/-- The first of some members that is there. -/
def firstField (d : Doc) (names : List String) (path : String) : Except Problem Doc :=
  match names.findSome? d.field? with
  | some v => .ok v
  | none => .error (.missingField (path ++ "." ++ "|".intercalate names))

/-- The instructions of a list, whose first has index `i`. -/
def readFrom (path : String) : (i : Nat) → List Doc → Except Problem (List Instruction)
  | _, [] => .ok []
  | i, d :: ds => do
    let first ← Instruction.read d (path ++ "[" ++ toString i ++ "]")
    return first :: (← readFrom path (i + 1) ds)

/-- The instructions of one section's code. -/
def readCode (raw : Doc) (path : String) : Except Problem (List Instruction) :=
  match raw with
  | .list ds => readFrom path 0 ds
  | _ => .error (.expectedInstructions path)

/-- The assembly of a contract. -/
def read (d : Doc) (path : String := "legacyAssembly") : Except Problem Assembly := do
  let constructor ← readCode (← firstField d [".code", "code"] path) (path ++ ".code")
  let data ← firstField d [".data", "data"] path
  let runtimePath := path ++ ".data.0"
  match data.field? "0" with
  | none => throw (.missingField runtimePath)
  | some sub =>
    let runtime ← readCode (← firstField sub [".code", "code"] runtimePath) (runtimePath ++ ".code")
    return ⟨constructor, runtime⟩

end Assembly

end AsmLens
