/-!
# Kinds of remote jobs
-/

namespace AsmLens

/-- What a remote job does: compile a source, or execute a contract symbolically. -/
inductive JobKind
  | compile | symexec
deriving DecidableEq, Repr

namespace JobKind

/-- The name of a kind. -/
def name : JobKind → String
  | compile => "compile"
  | symexec => "symexec"

/-- The name of a kind at the start of a sentence. -/
def title : JobKind → String
  | compile => "Compile"
  | symexec => "Symexec"

/-- The kind with a name. -/
def ofName? (s : String) : Option JobKind := [compile, symexec].find? fun k => k.name = s

end JobKind

end AsmLens
