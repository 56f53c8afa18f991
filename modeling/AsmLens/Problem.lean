import AsmLens.Document.Reader
import AsmLens.Job.Kind
import AsmLens.Report

/-!
# Problems

Everything that can be wrong with what the program is given: documents, offsets,
generations, the remote service, its jobs, settings and files. Each cause is a
constructor; `Problem.report` is the one place that words them.

An operation that fails gives either a problem, which is reported, or a fault
(`AsmLens.Fault`).
-/

namespace AsmLens

/-- A cause of failure that is reported to the user. -/
inductive Problem
  /-- A member that a document lacks. -/
  | missingField (path : String)
  /-- A text that is no range key. -/
  | invalidRangeKey (key : String)
  /-- A value that is no source attribute. -/
  | invalidSrc (value : Doc) (path : String)
  /-- A syntax node without a source attribute. -/
  | noSrc (nodeType path : String)
  | expectedNumber (value : Doc) (path : String)
  | expectedInteger (shape : Shape) (path : String)
  | expectedInstructions (path : String)
  | instructionName (path : String)
  | expectedMeasurement (path : String)
  | expectedObject (path : String)
  | expectedList (path : String)
  /-- A text that is no program counter. -/
  | invalidCounter (counter path : String)
  /-- A value that is no measurement document. -/
  | expectedResult
  | expectedSelectors
  | expectedSelector (signature : String)
  | expectedContracts (file : String)
  | unknownContract (contract : String) (available : List String)
  | noContract
  /-- A file whose text is no document. -/
  | notADocument (file : String) (error : Json.Error)
  /-- A place outside a source, with the length or the last line there is. -/
  | outOfRange (offset : Int) (length : Nat)
  /-- Gas data for a table that has been replaced. -/
  | retiredTable (contract : String) (generation : Int)
  /-- Gas data for another generation than the installed one. -/
  | staleGeneration (contract : String) (expected current : Int)
  /-- Gas data for a contract that the installed generation does not have. -/
  | contractGone (contract : String) (expected current : Int)
  | nothingCompiled
  | contractNotCompiled (contract : String) (current : Int)
  | sourceChanged (current : Int) (expected : Option String) (actual : String)
  /-- A request without an answer in time; the time as it is shown. -/
  | requestTimedOut (url limit : String)
  | connectionFailed (reason url : String)
  | httpStatus (status : Int) (reason url : String)
  | invalidAnswer (url : String) (status : Int)
  | noTaskId (path url : String)
  | jobFailed (kind : JobKind) (task : Doc)
  /-- A fault met while the result of a job was applied. -/
  | resultNotApplied (kind : JobKind) (task : Doc) (fault : Fault)
  /-- A job that ended well but reports a failure of its own. -/
  | jobReported (kind : JobKind) (output : String)
  | noCompilerOutput
  | waitTimedOut (kind : JobKind) (task : Doc) (limit : String)
  /-- Settings out of their range; values as messages show them. -/
  | invalidRuns (value : String)
  | unknownStrategy (value : String) (known : List String)
  | invalidLimit (name value : String)
  | missingAddress
  | settingsNotMapping (file : String)
  | invalidSettings (fault : Fault) (file : String)
  | settingsNotFound (path file : String)
  | unreadableSettings (reason file : String)
  | unwritableSettings (reason file : String)
  | unreadableSource (reason file : String)
  | unreadableFile (reason file : String)
  /-- A report made elsewhere. -/
  | reported (report : Report)

namespace Problem

/-- The report on a document at a path. -/
def malformedAt (message path : String) : Report := Report.malformed (.text message) (.text path)

/-- The report on a problem. -/
def report : Problem → Report
  | missingField p => .missing (.text p)
  | invalidRangeKey k => malformedAt ("Invalid range key " ++ Text.quoted k) k
  | invalidSrc v p => malformedAt ("Invalid AST src attribute " ++ v.inspect) p
  | noSrc t p => malformedAt (t ++ " has no src attribute") p
  | expectedNumber v p => malformedAt ("Expected a number at " ++ p ++ ", got " ++ v.inspect) p
  | expectedInteger s p => malformedAt ("Expected an integer at " ++ p ++ ", got " ++ s.name) p
  | expectedInstructions p => malformedAt ("Expected a list of instructions at " ++ p) p
  | instructionName p => malformedAt ("Instruction name must be a string at " ++ p) p
  | expectedMeasurement p => malformedAt ("Expected a gas measurement object at " ++ p) p
  | expectedObject p => malformedAt ("Expected an object at " ++ p) p
  | expectedList p => malformedAt ("Expected a list at " ++ p) p
  | invalidCounter c p => malformedAt ("Invalid program counter " ++ Text.quoted c) p
  | expectedResult => .malformed (.text "Expected a symbolic-execution result object") .null
  | expectedSelectors =>
    malformedAt "Expected methodIdentifiers to be an object" "methodIdentifiers"
  | expectedSelector s => malformedAt ("Expected a hex selector for " ++ s) ("methodIdentifiers." ++ s)
  | expectedContracts f =>
    malformedAt ("Expected contracts of " ++ f ++ " to be an object") ("contracts." ++ f)
  | unknownContract c available =>
    let names := ", ".intercalate available
    malformedAt ("Contract " ++ c ++ " not found in compiler output (available: " ++
      (if names.isEmpty then "none" else names) ++ ")") ("contracts.*." ++ c)
  | noContract => malformedAt "Compiler output contains no contract with legacy assembly" "contracts"
  | notADocument f e => malformedAt (f ++ " is not valid JSON: " ++ e.message) f
  | outOfRange o n => .offset (.int o) (.nat n)
  | retiredTable c g =>
    .stale (.text ("Mapping table for " ++ c ++ " (generation " ++ Text.intText g ++
      ") was replaced by a newer compilation")) (.int g) .null
  | staleGeneration c e g =>
    .stale (.text ("Gas data for " ++ c ++ " targets generation " ++ Text.intText e ++
      ", current generation is " ++ Text.intText g)) (.int e) (.int g)
  | contractGone c e g =>
    .stale (.text ("Contract " ++ c ++ " is not part of generation " ++ Text.intText g)) (.int e)
      (.int g)
  | nothingCompiled =>
    .stale (.text "Nothing has been compiled yet, please compile first!") .null .null
  | contractNotCompiled c g =>
    .stale (.text ("Contract " ++ c ++ " is not part of the current compilation")) .null (.int g)
  | sourceChanged g e a =>
    .sourceChanged .null (.int g)
      [("expected_hash", .ofOption .text e), ("actual_hash", .text a)]
  | requestTimedOut u t =>
    .service (.text ("Request to " ++ u ++ " timed out after " ++ t ++ "s")) (.text u) .null
  | connectionFailed r u => .service (.text ("Connection failed: " ++ r)) (.text u) .null
  | httpStatus s r u =>
    .service (.text ("HTTP " ++ Text.intText s ++ ": " ++ r)) (.text u) (.int s)
  | invalidAnswer u s => .service (.text "Service returned invalid JSON") (.text u) (.int s)
  | noTaskId p u =>
    .service (.text ("Service did not return a task id for " ++ p)) (.text u) .null
  | jobFailed k t =>
    .job (.text (k.title ++ " task failed for unknown reasons, please try again later.")) t
      (.text k.name)
  | resultNotApplied k t f =>
    .job (.text ("Could not apply " ++ k.name ++ " result: " ++ f.message)) t (.text k.name)
      [("output", .text f.display)]
  | jobReported k out =>
    .job (.text (String.ofList (out.toList.takeWhile (· ≠ '\n')))) .null (.text k.name)
      [("output", .text out)]
  | noCompilerOutput =>
    .job (.text "Compile task returned no compiler output") .null (.text JobKind.compile.name)
  | waitTimedOut k t limit =>
    .job (.text ("Timed out after " ++ limit ++ "s waiting for " ++ k.name ++ " task")) t
      (.text k.name)
  | invalidRuns v =>
    .settings (.text ("optimize_runs must be a non-negative integer, got " ++ v)) .null
  | unknownStrategy v known =>
    .settings (.text ("Unknown symbolic-execution strategy " ++ v)) .null
      [("valid", .list (known.map .text))]
  | invalidLimit n v => .settings (.text (n ++ " must be a positive integer, got " ++ v)) .null
  | missingAddress => .settings (.text "enable_onchain requires onchain_address") .null
  | settingsNotMapping f => .settings (.text "Configuration must be a mapping") (.text f)
  | invalidSettings e f => .settings (.text ("Invalid configuration: " ++ e.message)) (.text f)
  | settingsNotFound p f => .settings (.text ("Configuration file not found: " ++ p)) (.text f)
  | unreadableSettings r f => .settings (.text ("Cannot read configuration: " ++ r)) (.text f)
  | unwritableSettings r f => .settings (.text ("Cannot write configuration: " ++ r)) (.text f)
  | unreadableSource r f => .settings (.text ("Cannot read source file: " ++ r)) (.text f)
  | unreadableFile r f => .settings (.text ("Cannot read " ++ f ++ ": " ++ r)) (.text f)
  | reported r => r

/-- The message on a problem. -/
def message (p : Problem) : String := p.report.text

end Problem

/-- Why an operation failed. -/
inductive Failure
  | problem (p : Problem)
  | fault (f : Fault)

/-- The outcome of an operation that may fail. -/
abbrev Result (α : Type) := Except Failure α

namespace Failure

/-- A problem, as the outcome of an operation. -/
def raise {α : Type} (p : Problem) : Result α := .error (.problem p)

instance {α : Type} : Coe (Except Fault α) (Result α) where
  coe
    | .ok a => .ok a
    | .error f => .error (.fault f)

instance : MonadLift (Except Fault) (Except Failure) where
  monadLift
    | .ok a => .ok a
    | .error f => .error (.fault f)

instance : MonadLift (Except Problem) (Except Failure) where
  monadLift
    | .ok a => .ok a
    | .error p => .error (.problem p)

end Failure

end AsmLens
