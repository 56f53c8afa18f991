import AsmLens.Settings.Section

/-!
# Compiler settings

What the service is asked to compile with. Only the number of optimizer runs is
checked; all other values are passed on as they are.
-/

namespace AsmLens

open Yaml Settings

/-- The steps of the optimizer, which count only if the settings have them enabled. -/
structure OptimizerDetails where
  peephole : Value := .bool true
  inliner : Value := .bool true
  jumpdestRemover : Value := .bool true
  orderLiterals : Value := .bool false
  deduplicate : Value := .bool false
  cse : Value := .bool false
  constantOptimizer : Value := .bool false
  yul : Value := .bool false

namespace OptimizerDetails

/-- The steps without a choice made. -/
def default : OptimizerDetails := {}

/-- The names and values of the steps. -/
def members (d : OptimizerDetails) : List (String × Value) :=
  [("peephole", d.peephole), ("inliner", d.inliner), ("jumpdestRemover", d.jumpdestRemover),
    ("orderLiterals", d.orderLiterals), ("deduplicate", d.deduplicate), ("cse", d.cse),
    ("constantOptimizer", d.constantOptimizer), ("yul", d.yul)]

/-- The names of the steps. -/
def names : List String := default.members.map Prod.fst

/-- The steps as entries set them. -/
def ofEntries (es : List (Value × Value)) : OptimizerDetails where
  peephole := setting es "peephole" default.peephole
  inliner := setting es "inliner" default.inliner
  jumpdestRemover := setting es "jumpdestRemover" default.jumpdestRemover
  orderLiterals := setting es "orderLiterals" default.orderLiterals
  deduplicate := setting es "deduplicate" default.deduplicate
  cse := setting es "cse" default.cse
  constantOptimizer := setting es "constantOptimizer" default.constantOptimizer
  yul := setting es "yul" default.yul

/-- The steps as a value. -/
def toValue (d : OptimizerDetails) : Value := .mapping (entriesFrom d.members)

/-- The steps that a value sets. -/
def read (v : Value) : Traced OptimizerDetails := do
  return ofEntries (← knownEntries "optimizer details" names v)

end OptimizerDetails

/-- The settings of a compilation. -/
structure CompilerSettings where
  version : Value := .text "v0.8.13+commit.abaa5c0e"
  evmVersion : Value := .text "Default"
  optimizeRuns : Value := .int 200
  enableOptimizer : Value := .bool true
  viaIR : Value := .bool false
  detailsEnabled : Value := .bool false
  details : OptimizerDetails := {}

namespace CompilerSettings

/-- The settings without a choice made. -/
def default : CompilerSettings := {}

/-- The names and values of the settings, the optimizer's steps apart. -/
def members (s : CompilerSettings) : List (String × Value) :=
  [("version", s.version), ("evmVersion", s.evmVersion), ("optimize_runs", s.optimizeRuns),
    ("enable_optimizer", s.enableOptimizer), ("viaIR", s.viaIR),
    ("details_enabled", s.detailsEnabled)]

/-- The names of the settings, the optimizer's steps apart. -/
def names : List String := default.members.map Prod.fst

/-- The name of the optimizer's steps. -/
def detailsName : String := "details"

/-- The settings as entries set them. -/
def ofEntries (es : List (Value × Value)) (details : OptimizerDetails) : CompilerSettings where
  version := setting es "version" default.version
  evmVersion := setting es "evmVersion" default.evmVersion
  optimizeRuns := setting es "optimize_runs" default.optimizeRuns
  enableOptimizer := setting es "enable_optimizer" default.enableOptimizer
  viaIR := setting es "viaIR" default.viaIR
  detailsEnabled := setting es "details_enabled" default.detailsEnabled
  details := details

/-- The settings as a value. -/
def toValue (s : CompilerSettings) : Value :=
  .mapping (entriesFrom (s.members ++ [(detailsName, s.details.toValue)]))

/-- The settings as the service takes them. -/
def toDoc (s : CompilerSettings) : Doc := s.toValue.toDoc

/-- The number of optimizer runs has to be an integer that is not negative. -/
def check (s : CompilerSettings) : Result Unit :=
  match s.optimizeRuns with
  | .bool _ => .ok ()
  | .number (.int n) => if 0 ≤ n then .ok () else refuse s.optimizeRuns .invalidRuns
  | v => refuse v .invalidRuns

/-- The settings that a value makes. -/
def read (v : Value) : Traced CompilerSettings := do
  let es ← entriesOf (v.orElse (.mapping []))
  let steps := (setting es detailsName .null).orElse (.mapping [])
  let own ← knownEntries "compiler" names (.mapping (es.filter fun e => !isNamed [detailsName] e.1))
  let s := ofEntries own (← OptimizerDetails.read steps)
  s.check
  return s

end CompilerSettings

end AsmLens
