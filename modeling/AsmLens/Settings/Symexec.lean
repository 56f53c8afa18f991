import AsmLens.Settings.Section

/-!
# Symbolic-execution settings

What the service is asked to execute a contract with. The strategy, the limits and the
address of on-chain data are checked.
-/

namespace AsmLens

open Yaml Settings

/-- The settings of a symbolic execution. -/
structure SymexecSettings where
  maxDepth : Value := .int 128
  callDepthLimit : Value := .int 10
  strategy : Value := .text "bfs"
  loopBound : Value := .int 10
  transactionCount : Value := .int 2
  enableOnchain : Value := .bool false
  onchainAddress : Value := .text ""

namespace SymexecSettings

/-- The settings without a choice made. -/
def default : SymexecSettings := {}

/-- The names and values of the settings. -/
def members (s : SymexecSettings) : List (String × Value) :=
  [("max_depth", s.maxDepth), ("call_depth_limit", s.callDepthLimit), ("strategy", s.strategy),
    ("loop_bound", s.loopBound), ("transaction_count", s.transactionCount),
    ("enable_onchain", s.enableOnchain), ("onchain_address", s.onchainAddress)]

/-- The names of the settings. -/
def names : List String := default.members.map Prod.fst

/-- The settings as entries set them. -/
def ofEntries (es : List (Value × Value)) : SymexecSettings where
  maxDepth := setting es "max_depth" default.maxDepth
  callDepthLimit := setting es "call_depth_limit" default.callDepthLimit
  strategy := setting es "strategy" default.strategy
  loopBound := setting es "loop_bound" default.loopBound
  transactionCount := setting es "transaction_count" default.transactionCount
  enableOnchain := setting es "enable_onchain" default.enableOnchain
  onchainAddress := setting es "onchain_address" default.onchainAddress

/-- The settings as a value. -/
def toValue (s : SymexecSettings) : Value := .mapping (entriesFrom s.members)

/-- The settings as the service takes them. -/
def toDoc (s : SymexecSettings) : Doc := s.toValue.toDoc

/-! ## Checks -/

/-- The known strategies. -/
def strategies : List String := ["bfs", "dfs", "naive-random", "weighted-random"]

/-- Whether a value is a known strategy. -/
def isStrategy : Value → Bool
  | .text s => strategies.contains s
  | _ => false

/-- Whether a value is an integer above zero; a truth value counts as 1 or 0. -/
def isPositive : Value → Bool
  | .bool b => b
  | .number (.int n) => 1 ≤ n
  | _ => false

/-- The limits, by name. -/
def limits (s : SymexecSettings) : List (String × Value) :=
  [("max_depth", s.maxDepth), ("call_depth_limit", s.callDepthLimit), ("loop_bound", s.loopBound),
    ("transaction_count", s.transactionCount)]

/-- The strategy has to be a known one. -/
def checkStrategy (s : SymexecSettings) : Result Unit :=
  if isStrategy s.strategy then .ok ()
  else refuse s.strategy fun shown => .unknownStrategy shown strategies

/-- The limits have to be integers above zero; the first that is not is reported. -/
def checkLimits (s : SymexecSettings) : Result Unit :=
  match s.limits.find? fun l => !isPositive l.2 with
  | some (name, v) => refuse v (.invalidLimit name)
  | none => .ok ()

/-- On-chain data needs an address. -/
def checkAddress (s : SymexecSettings) : Result Unit :=
  if !s.enableOnchain.isBlank && s.onchainAddress.isBlank then Failure.raise .missingAddress
  else .ok ()

/-- The strategy is checked, then the limits, then the address of on-chain data. -/
def check (s : SymexecSettings) : Result Unit := do
  s.checkStrategy
  s.checkLimits
  s.checkAddress

/-- The settings that a value makes. -/
def read (v : Value) : Traced SymexecSettings := do
  let s := ofEntries (← knownEntries "symexec" names (.mapping (← entriesOf (v.orElse (.mapping [])))))
  s.check
  return s

end SymexecSettings

end AsmLens
