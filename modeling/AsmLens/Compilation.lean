import AsmLens.Assembly.Listing
import AsmLens.Syntax.Declaration

/-!
# Compilations

A compiler output turned into region tables, one for each contract that has
assembly; interfaces and abstract contracts have none. Contracts go by their bare
names: a later contract takes the table of an earlier one of the same name.
-/

namespace AsmLens

/-- The tables of one compiler output, with what names the functions in them. -/
structure Compilation where
  tables : Ledger String RegionTable
  generation : Int
  /-- The syntax tree of the primary source; null if there is none. -/
  tree : Doc
  /-- The compiler's selectors, by contract. -/
  selectors : Ledger String Doc

namespace Compilation

/-- The names of the contracts, oldest first. -/
def contracts (c : Compilation) : List String := c.tables.keys

/-- The table of a contract. -/
def find? (c : Compilation) (contract : String) : Option RegionTable := c.tables.find? contract

/-- The table at a place in the order of contracts. -/
def byIndex? (c : Compilation) (i : Int) : Option RegionTable :=
  if i < 0 then none else c.tables.values[i.toNat]?

/-- The listed selectors of a contract; null if it has none. -/
def selectorsOf (c : Compilation) (contract : String) : Doc :=
  (c.selectors.find? contract).getD .null

/-- The table of a contract that was asked for by name, or of the first if none was. -/
def choose (c : Compilation) (contract : Option String) : Except Problem RegionTable :=
  match contract.filter fun n => !n.isEmpty with
  | some name =>
    match c.find? name with
    | some t => .ok t
    | none => .error (.unknownContract name c.contracts)
  | none =>
    match c.byIndex? 0 with
    | some t => .ok t
    | none => .error .noContract

/-! ## Building -/

/-- Whether a source has the number of the primary source. -/
def isPrimary (info : Doc) : Bool :=
  match info.get "id" with
  | .number n => n.isZero
  | .bool b => !b
  | _ => false

/-- The syntax tree of the primary source: of the source numbered 0, or else of the first. -/
def primaryTree (sources : List (String × Doc)) : Doc :=
  let infos := (sources.map Prod.snd).filter fun d => d.shape = .object
  match infos.find? isPrimary with
  | some info => info.get "ast"
  | none => (infos.head?.map fun info => info.get "ast").getD .null

/-- What is known of a compilation while its contracts are gone through. -/
structure Progress where
  tables : Ledger String RegionTable
  selectors : Ledger String Doc

/-- The notes on a contract whose declaration was not found. -/
def undeclaredNotes (name : String) (range : Option SourceRange) : List Note :=
  if range.isNone then
    [⟨.warning, Builder.origin,
      "No ContractDefinition found for " ++ name ++ "; nothing will be excluded"⟩]
  else []

/-- The range of a contract's declaration, or of the first contract's. -/
def declarationRange (tree : Doc) (name : String) : Except Problem (Option SourceRange) := do
  match ← Syntax.findContract tree (some name) with
  | some r => return some r
  | none => Syntax.findContract tree

/-- The compilation with one more contract of a file. -/
def addContract (index : LineIndex) (sources : Doc) (generation : Int) (file : String)
    (p : Progress) (contract : String × Doc) : Traced Progress := do
  let (name, output) := contract
  let path := "contracts." ++ file ++ "." ++ name
  let evm ← output.requireAt ["evm"] path
  let assembly ← evm.getMember "legacyAssembly"
  if assembly.isBlank then
    Traced.note .debug Builder.origin
      ("Skipping " ++ name ++ ": no legacy assembly (interface or abstract)")
    return p
  let tree ← sources.requireAt [file, "ast"] "sources"
  let excluded ← declarationRange tree name
  Traced.tell (undeclaredNotes name excluded)
  let assembly ← Assembly.read assembly (path ++ ".evm.legacyAssembly")
  let table ← assembly.tabulate (Builder.new index name excluded generation)
  return ⟨p.tables.insert name table,
    p.selectors.insert name ((evm.get "methodIdentifiers").orElse (.object []))⟩

/-- The compilation with the contracts of one more file. -/
def addFile (index : LineIndex) (sources : Doc) (generation : Int) (p : Progress)
    (file : String × Doc) : Traced Progress :=
  match file.2 with
  | .object ms => ms.foldlM (addContract index sources generation file.1) p
  | _ => Traced.fail (.expectedContracts file.1)

/-- The note on a compilation that is complete. -/
def builtNote (tables : Ledger String RegionTable) : Note :=
  let names := ", ".intercalate tables.keys
  ⟨.info, Builder.origin, "Built mappings for " ++ toString tables.size ++ " contract(s): " ++
    (if names.isEmpty then "-" else names)⟩

/-- The compilation of a source from the compiler's output, with its notes. -/
def runBuild (source : String) (output : Doc) (generation : Int) : Traced Compilation := do
  let contracts ← output.requireAt ["contracts"]
  let sources ← output.requireAt ["sources"]
  let index := LineIndex.ofText source
  let files ← contracts.membersFor "items"
  let p ← files.foldlM (addFile index sources generation) (⟨∅, ∅⟩ : Progress)
  Traced.tell [builtNote p.tables]
  let infos ← sources.membersFor "values"
  return ⟨p.tables, generation, primaryTree infos, p.selectors⟩

/-- The compilation of a source from the compiler's output. -/
def build (source : String) (output : Doc) (generation : Int := 0) : Result Compilation :=
  (runBuild source output generation).outcome

end Compilation

end AsmLens
