import AsmLens.Document.Writer

/-!
# Reports

What the user is told when an operation fails: a kind, a code, a message, and
details that follow the message in the machine-readable form. A detail may take the
place of one of the fixed members there.

Reports are made by kind. Each kind has parameters of its own, which become its
message and its first details; a caller may add details of any other name.
-/

namespace AsmLens

/-- The kind of a report. -/
inductive ReportKind
  | general | malformed | missing | offset | stale | sourceChanged | service | job | settings
deriving DecidableEq, Repr

namespace ReportKind

/-- The name of a kind. -/
def name : ReportKind → String
  | general => "SolboltError"
  | malformed => "MalformedInputError"
  | missing => "MissingFieldError"
  | offset => "OutOfRangeOffsetError"
  | stale => "StaleGenerationError"
  | sourceChanged => "SourceChangedError"
  | service => "ServiceError"
  | job => "TaskFailedError"
  | settings => "ConfigError"

/-- All kinds. -/
def all : List ReportKind :=
  [general, malformed, missing, offset, stale, sourceChanged, service, job, settings]

/-- The kind with a name. -/
def ofName? (s : String) : Option ReportKind := all.find? fun k => k.name = s

/-- The kind and the wider kinds it belongs to. -/
def lineage : ReportKind → List ReportKind
  | general => [general]
  | missing => [missing, malformed, general]
  | sourceChanged => [sourceChanged, stale, general]
  | k => [k, general]

end ReportKind

/-- What the user is told. -/
structure Report where
  kind : ReportKind
  code : Doc
  message : Doc
  details : List (String × Doc)

namespace Report

/-- The code of a kind. -/
def codeOf (k : ReportKind) : Doc := .text k.name

/-- A detail that is left out when it is blank. -/
def unlessBlank (name : String) (v : Doc) : List (String × Doc) :=
  if v.isBlank then [] else [(name, v)]

/-- A detail that is left out when it is null. -/
def unlessNull (name : String) : Doc → List (String × Doc)
  | .null => []
  | v => [(name, v)]

/-- Details followed by others, which win where names meet. -/
def extend (details extra : List (String × Doc)) : List (String × Doc) :=
  extra.foldl (fun ms p => Doc.put p.1 p.2 ms) details

/-! ## The kinds -/

/-- A report of no particular kind. -/
def general (message details code : Doc) : Except Fault Report :=
  match details.orElse (.object []) with
  | .object ms => .ok ⟨.general, code.orElse (codeOf .general), message, ms⟩
  | _ => .error .badCall

/-- A document that is not as it has to be. -/
def malformed (message path : Doc) (extra : List (String × Doc) := []) : Report :=
  ⟨.malformed, codeOf .malformed, message, extend (unlessBlank "path" path) extra⟩

/-- A member that a document lacks. -/
def missing (path : Doc) (extra : List (String × Doc) := []) : Report :=
  ⟨.missing, codeOf .missing, .text ("Missing required field: " ++ path.display),
    extend (unlessBlank "path" path) extra⟩

/-- An offset outside the source. -/
def offset (offset length : Doc) (extra : List (String × Doc) := []) : Report :=
  ⟨.offset, codeOf .offset,
    .text ("Source offset " ++ offset.display ++ " is outside the source text (length " ++
      length.display ++ ")"),
    extend [("offset", offset), ("length", length)] extra⟩

/-- Gas data for a compilation that has been replaced. -/
def stale (message expected current : Doc) (extra : List (String × Doc) := []) : Report :=
  ⟨.stale, codeOf .stale, message,
    extend (unlessNull "expected_generation" expected ++ unlessNull "current_generation" current)
      extra⟩

/-- A source that was edited after it was compiled. -/
def sourceChanged (expected current : Doc) (extra : List (String × Doc) := []) : Report :=
  { stale (.text "Source content has changed, please compile first!") expected current extra with
    kind := .sourceChanged, code := codeOf .sourceChanged }

/-- A service that cannot be reached or answers with an error. -/
def service (message url status : Doc) (extra : List (String × Doc) := []) : Report :=
  ⟨.service, codeOf .service, message,
    extend (unlessBlank "url" url ++ unlessNull "status_code" status) extra⟩

/-- A remote job that failed. -/
def job (message task kind : Doc) (extra : List (String × Doc) := []) : Report :=
  ⟨.job, codeOf .job, message,
    extend (unlessBlank "task_id" task ++ unlessBlank "kind" kind) extra⟩

/-- Settings or files that cannot be used. -/
def settings (message file : Doc) (extra : List (String × Doc) := []) : Report :=
  ⟨.settings, codeOf .settings, message, extend (unlessBlank "config_file" file) extra⟩

/-! ## Making a report by name -/

/-- The parameters of a kind: their names, whether each is required, and whether others are taken. -/
def parameters : ReportKind → List (String × Bool) × Bool
  | .general => ([("message", true), ("details", false), ("error_code", false)], false)
  | .malformed => ([("message", true), ("path", false)], true)
  | .missing => ([("path", true)], true)
  | .offset => ([("offset", true), ("length", true)], true)
  | .stale => ([("message", true), ("expected_generation", false), ("current_generation", false)],
      true)
  | .sourceChanged => ([], true)
  | .service => ([("message", true), ("url", false), ("status_code", false)], true)
  | .job => ([("message", true), ("task_id", false), ("kind", false)], true)
  | .settings => ([("message", true), ("config_file", false)], true)

/-- Arguments by position and by name, matched with parameters; null where one is left out. -/
def bind : List (String × Bool) → List Doc → List (String × Doc) → Except Fault (List Doc)
  | [], [], _ => .ok []
  | [], _ :: _, _ => .error .badCall
  | (p, _) :: ps, a :: args, named =>
    if (Doc.lookup p named).isSome then .error .badCall
    else (bind ps args named).map (a :: ·)
  | (p, required) :: ps, [], named =>
    match Doc.lookup p named with
    | some a => (bind ps [] named).map (a :: ·)
    | none => if required then .error .badCall else (bind ps [] named).map (.null :: ·)

/-- A report of a kind from arguments by position and by name. -/
def make (kind : ReportKind) (args : List Doc) (named : List (String × Doc)) :
    Except Fault Report := do
  let (params, open_) := parameters kind
  let extra := named.filter fun p => !params.any fun q => q.1 = p.1
  if !open_ && !extra.isEmpty then throw .badCall
  let clash := match kind with
    | .missing | .sourceChanged => extra.any fun p => p.1 = "message"
    | _ => false
  if clash then throw .badCall
  match kind, ← bind params args named with
  | .general, [m, d, c] => general m d c
  | .malformed, [m, p] => return malformed m p extra
  | .missing, [p] => return missing p extra
  | .offset, [o, l] => return offset o l extra
  | .stale, [m, e, c] => return stale m e c extra
  | .sourceChanged, [] =>
    let pick (name : String) := (Doc.lookup name extra).getD .null
    let rest := extra.filter fun p => p.1 ≠ "expected_generation" && p.1 ≠ "current_generation"
    return sourceChanged (pick "expected_generation") (pick "current_generation") rest
  | .service, [m, u, s] => return service m u s extra
  | .job, [m, t, k] => return job m t k extra
  | .settings, [m, f] => return settings m f extra
  | _, _ => throw .badCall

/-! ## Forms -/

/-- The members of the machine-readable form of a failure. -/
def failureMembers (type message : Doc) (details : List (String × Doc)) : List (String × Doc) :=
  extend [("error", .bool true), ("type", type), ("message", message)] details

/-- The machine-readable form. -/
def toDoc (r : Report) : Doc := .object (failureMembers r.code r.message r.details)

/-- The machine-readable form as JSON text. -/
def toJson (r : Report) (indent : Option Nat := some 2) : String := r.toDoc.toJson indent

/-- The message as text. -/
def text (r : Report) : String := r.message.display

end Report

end AsmLens
