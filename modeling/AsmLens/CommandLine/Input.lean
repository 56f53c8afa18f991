import AsmLens.CommandLine.Console
import AsmLens.Compilation
import AsmLens.Gas.Merge

/-!
# Input files

The files that a command reads: sources exactly as they are, documents with any kind of
line ends. A compiler output may be wrapped in a response of the service.

A document with half of a surrogate pair in a text is a fault as soon as it is read, not
only where the text is encoded: to be hashed or to be printed.
-/

namespace AsmLens.CommandLine

namespace Action

/-- The text of a source. -/
def readSource (path : String) : Action String := do
  match (← look).folder.read path with
  | .error o => fail (.unreadableSource (o.message path) path)
  | .ok content => Folder.decode content

/-- The document in a file. -/
def readDocument (path : String) : Action Doc := do
  match (← look).folder.read path with
  | .error o => fail (.unreadableFile (o.message path) path)
  | .ok content =>
    let text ← Folder.decode content
    match Json.read (Folder.unifyLines text.toList) with
    | .ok d => return d
    | .error e =>
      match e.complaint.fault? with
      | some f => ofResult (.error (.fault f))
      | none => fail (.notADocument path e)

end Action

/-- The compiler output in a document, which may be a response around it. -/
def unwrapped (d : Doc) : Doc :=
  match d, d.member? "contracts", d.get "result" with
  | .object _, none, .object ms => .object ms
  | d, _, _ => d

/-- The note on input files. -/
def loadedText (source text compiled : String) : String :=
  "Loaded " ++ source ++ " (" ++ toString text.utf8ByteSize ++ " bytes) and " ++ compiled

/-- The compilation that a source and a compiler output in files make. -/
def loadCompilation (source compiled : String) : Action Compilation := do
  let text ← Action.readSource source
  let output := unwrapped (← Action.readDocument compiled)
  Action.note .debug (loadedText source text compiled)
  Compilation.runBuild text output 0

/-- The compilation with the measurements in a file attached to a table. -/
def attachMeasurements (c : Compilation) (t : RegionTable) (path : String) :
    Action (Compilation × RegionTable) := do
  let ms ← Measurements.runRead (← Action.readDocument path)
  let t ← t.runMerge ms c.tree (c.selectorsOf t.contract)
  return ({ c with tables := c.tables.update t.contract fun _ => t }, t)

/-- A compilation from files and its table of a contract, with the measurements in a third file. -/
def loadTable (source compiled : String) (contract symexec : Option String) :
    Action (Compilation × RegionTable) := do
  let c ← loadCompilation source compiled
  let t ← c.choose contract
  match symexec.filter fun path => !path.isEmpty with
  | some path => attachMeasurements c t path
  | none => return (c, t)

end AsmLens.CommandLine
