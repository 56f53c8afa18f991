import AsmLens.Job.Answer
import AsmLens.Log.Note
import AsmLens.Service.Exchange
import AsmLens.Settings.Basic

/-!
# The client of the service

The service compiles sources and executes contracts symbolically. Both are jobs: handing
one in gives its identifier, under which the job is then asked about.

    POST /compile/               hand in a compilation
    GET  /compile/status/<id>    ask about it
    POST /symexec/               hand in a symbolic execution
    GET  /symexec/status/<id>    ask about it

* `submission`, `inquiry` — the requests
* `readTask`, `readAnswer` — what the replies to them mean
-/

namespace AsmLens

open Yaml

/-- Where the service is and how long a request may take. -/
structure Client where
  /-- The address, without slashes at its end. -/
  base : String
  timeout : Value

namespace Client

/-- An address without the slashes at its end. -/
def dropSlashes (url : String) : String :=
  String.ofList (url.toList.reverse.dropWhile (· = '/')).reverse

/-- The client for a service; its address has to be a text. -/
def new (s : ServiceSettings) : Except Fault Client :=
  match s.url with
  | .text url => .ok ⟨dropSlashes url, s.timeout⟩
  | v => .error (.noAttribute v.shape "rstrip")

/-! ## Requests -/

/-- The path under which jobs of a kind are handed in. -/
def path (kind : JobKind) : String := "/" ++ kind.name ++ "/"

/-- The address under which jobs of a kind are handed in. -/
def address (c : Client) (kind : JobKind) : String := c.base ++ path kind

/-- The request that hands in a job. -/
def submission (c : Client) (kind : JobKind) (job : Doc) : Request :=
  ⟨.post job, c.address kind⟩

/-- A compilation to be handed in. -/
def compileJob (source : String) (s : CompilerSettings) : Doc :=
  .object [("content", .text source), ("settings", s.toDoc)]

/-- The member that names a contract; none if the name is empty. -/
def contractMember (contract : Option String) : List (String × Doc) :=
  match contract with
  | some name => if name.isEmpty then [] else [("contract", .text name)]
  | none => []

/-- A symbolic execution to be handed in. -/
def symexecJob (source : String) (compiled : Doc) (s : SymexecSettings)
    (contract : Option String) : Doc :=
  .object ([("content", .text source), ("compiled", compiled), ("settings", s.toDoc)] ++
    contractMember contract)

/-- The request that asks about a job. -/
def inquiry (c : Client) (kind : JobKind) (task : Doc) : Request :=
  ⟨.get, c.base ++ path kind ++ "status/" ++ task.display⟩

/-! ## Replies -/

/-- The first line of a text. -/
def firstLine (s : String) : String := String.ofList (s.toList.takeWhile (· ≠ '\n'))

/-- The first member with one of some names that is not blank. -/
def firstFilled (d : Doc) : List String → Option Doc
  | [] => none
  | name :: names => if (d.get name).isBlank then firstFilled d names else some (d.get name)

/-- Why a request was turned down: what the body says about it, or else the reason given. -/
def refusal (r : Response) : Except Fault String :=
  match r.body with
  | none =>
    .ok (match r.reason with
      | some reason => if reason.isEmpty then "request failed" else reason
      | none => "request failed")
  | some d =>
    match d with
    | .object _ =>
      .ok (firstLine ((firstFilled d ["status", "error", "message"]).getD
        (Doc.ofOption .text r.reason)).display)
    | d => .error (.noAttribute d.shape "get")

/-- The document in a response to a request. -/
def readResponse (url : String) (r : Response) : Result Doc :=
  if r.status = 200 then
    match r.body with
    | some d => .ok d
    | none => Failure.raise (.invalidAnswer url r.status)
  else
    match refusal r with
    | .ok reason => Failure.raise (.httpStatus r.status reason url)
    | .error f => .error (.fault f)

/-- The response in a reply to a request. -/
def readReply (c : Client) (url : String) : Reply → Result Response
  | .response r => .ok r
  | .timedOut => Failure.raise (.requestTimedOut url c.timeout.display)
  | .unreachable reason => Failure.raise (.connectionFailed reason url)
  | .broken f => .error (.fault f)

/-- The identifier of a job that was handed in, from the reply. -/
def readTask (c : Client) (kind : JobKind) (reply : Reply) : Result String := do
  let d ← readResponse (c.address kind) (← c.readReply (c.address kind) reply)
  let task := (← d.getMember "task_id").orElse (d.get "taskId")
  if task.isBlank then Failure.raise (.noTaskId (path kind) (c.address kind))
  else return task.display

/-- What the service says about a job, from the reply to a request about it. -/
def readAnswer (c : Client) (request : Request) (reply : Reply) : Result JobAnswer := do
  let r ← c.readReply request.url reply
  if r.status = 404 then return .unknown
  let d ← readResponse request.url r
  return .known (← d.getMember "task_status") (d.get "task_result")

/-! ## Notes -/

/-- The part of the program that notes on the service come from. -/
def origin : String := "remote"

/-- The note on a request. -/
def requestNote (r : Request) : Note := ⟨.debug, origin, r.method ++ " " ++ r.url⟩

/-- The note on a job that was handed in. -/
def submittedNote (kind : JobKind) (task : String) : Note :=
  ⟨.info, origin, "Submitted " ++ kind.name ++ " task " ++ task⟩

end Client

end AsmLens
