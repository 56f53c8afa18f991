import AsmLens.Job.Answer
import AsmLens.Job.Timer
import AsmLens.Log.Note
import AsmLens.Problem

/-!
# Polling a job

A poller follows one remote job at a time:

    idle --start--> running --success--> succeeded
                       |--failure------> failed
                       +--not found, cancel--> idle

While the job is pending the poller asks again and again, after an interval that
doubles with every answer up to a limit. Starting a job supersedes the one that is
running: each start opens a *loop* with a number of its own, and what belongs to
another loop, a timer or an answer, is discarded.

## Steps

A poll is not one step but two, since the world goes on while the service is asked:
`pollDue?` tells which job a timer asks about, and `settle` takes the answer. If the
job ended well, `settle` asks for the result to be applied; whoever applies it may
start or cancel jobs of this poller; `conclude` takes the outcome.
-/

namespace AsmLens

/-- How a poller stands. -/
inductive JobStatus
  | idle | running | succeeded | failed
deriving DecidableEq, Repr

namespace JobStatus

/-- The name of a status. -/
def name : JobStatus → String
  | idle => "idle"
  | running => "running"
  | succeeded => "succeeded"
  | failed => "failed"

/-- Whether the job has ended, well or not. -/
def isTerminal (s : JobStatus) : Bool := s = succeeded || s = failed

end JobStatus

/-- The base and the greatest poll interval of a kind of job, in seconds. -/
def JobKind.intervals : JobKind → Number × Number
  | .compile => (.float (.ofDecimal false 5 (-1)), .float (.ofInt 1))
  | .symexec => (.float (.ofInt 5), .float (.ofInt 60))

/-- The poller of one kind of job. `κ` is what a start remembers for its result. -/
structure Poller (κ : Type) where
  kind : JobKind
  base : Number
  limit : Number
  /-- The number of the loop; it grows whenever a loop starts or ends. -/
  loop : Nat
  /-- The timer for the next poll, until its answer is taken. -/
  timer : Option Nat
  status : JobStatus
  task : Doc
  interval : Number
  context : Option κ
  result : Doc
  error : Option Problem

namespace Poller

variable {κ : Type}

/-- A poller before its first job; an interval that is not given is the kind's own. -/
def new (kind : JobKind) (base limit : Option Number := none) : Poller κ :=
  let base := base.getD kind.intervals.1
  { kind, base, limit := limit.getD kind.intervals.2, loop := 0, timer := none, status := .idle
    task := .null, interval := base, context := none, result := .null, error := none }

/-! ## Starting and cancelling -/

/-- The timers after the poller's own was cancelled. -/
def dropTimer (p : Poller κ) (ts : Timers) : Timers :=
  match p.timer with
  | some i => ts.cancel i
  | none => ts

/-- The poller with a timer for the next poll of its loop, and the timers. -/
def arm (p : Poller κ) (ts : Timers) : Poller κ × Timers :=
  ({ p with timer := some ts.length }, ts.arm p.interval p.kind p.loop)

/-- A job started, in place of the one that is running. -/
def start (p : Poller κ) (ts : Timers) (task : Doc) (context : Option κ) : Poller κ × Timers :=
  let opened : Poller κ :=
    { p with
      loop := p.loop + 1, timer := none, status := .running, task, context
      interval := p.base, result := .null, error := none }
  opened.arm (p.dropTimer ts)

/-- The running job given up. -/
def cancel (p : Poller κ) (ts : Timers) : Poller κ × Timers :=
  ({ p with
     loop := p.loop + 1, timer := none, interval := p.base
     status := if p.status = .running then .idle else p.status },
   p.dropTimer ts)

/-! ## Polling -/

/-- The job that a loop's timer asks about; none if the loop is over. -/
def pollDue? (p : Poller κ) (loop : Nat) : Option Doc :=
  if loop = p.loop ∧ p.status = .running then some p.task else none

/-- What has to be done after an answer or an outcome was taken. -/
inductive Next (κ : Type)
  | done
  /-- The result has to be applied. -/
  | apply (result : Doc) (context : Option κ)
  /-- The failure has to be told. -/
  | tell (p : Problem)

/-- The poller with a failed job. -/
def fail (p : Poller κ) (e : Problem) : Poller κ := { p with status := .failed, error := some e }

/-- The poller after its loop ended. -/
def close (p : Poller κ) : Poller κ := { p with interval := p.base, loop := p.loop + 1 }

/--
The answer to a poll of a loop taken; there is none if the service could not be
reached, and the job then counts as pending.
-/
def settle (p : Poller κ) (ts : Timers) (loop : Nat) (answer : Option JobAnswer) :
    (Poller κ × Timers) × Next κ :=
  if loop ≠ p.loop then ((p, ts), .done)
  else
    let p := { p with timer := none }
    match answer.filter fun a => !a.isPending with
    | none =>
      (({ p with interval := p.interval.double.min p.limit } : Poller κ).arm ts, .done)
    | some a =>
      let p := p.close
      if a.notFound then (({ p with status := .idle }, ts), .done)
      else if a.isFailure then
        let e := Problem.jobFailed p.kind p.task
        ((p.fail e, ts), .tell e)
      else ((p, ts), .apply a.result p.context)

/--
The outcome of applying a result taken. `finished` is the loop's number when the
result was handed out: if it has changed since, another job was started or cancelled
and an outcome without failure changes nothing.
-/
def conclude (p : Poller κ) (finished : Nat) (result : Doc) (outcome : Result Unit) :
    Poller κ × Next κ :=
  match outcome with
  | .error (.problem e) => (p.fail e, .tell e)
  | .error (.fault f) =>
    let e := Problem.resultNotApplied p.kind p.task f
    (p.fail e, .tell e)
  | .ok () =>
    if p.loop ≠ finished then (p, .done)
    else ({ p with result, status := .succeeded }, .done)

/-! ## Notes -/

/-- The part of the program that polling notes come from. -/
def origin : String := "poller"

/-- The poller's job in notes. -/
def label (p : Poller κ) : String := p.kind.name ++ " task " ++ p.task.display

/-- The notes on a start. -/
def startNotes (p : Poller κ) (task : Doc) : List Note :=
  if p.status = .running then
    [⟨.debug, origin, p.label ++ " superseded by " ++ task.display⟩]
  else []

/-- The notes on a cancellation. -/
def cancelNotes (p : Poller κ) : List Note :=
  if p.status = .running then [⟨.debug, origin, p.label ++ " cancelled"⟩] else []

/-- The note on a poll that did not reach the service. -/
def unreachedNote (kind : JobKind) (task : Doc) (e : Problem) : Note :=
  ⟨.warning, origin, "Polling " ++ kind.name ++ " task " ++ task.display ++ " failed, retrying: " ++
    e.message⟩

/-- The note on a failed job. -/
def failNote (p : Poller κ) (e : Problem) : Note :=
  ⟨.warning, origin, p.label ++ " failed: " ++ e.message⟩

/-- A delay in notes: seconds with one decimal place. -/
def delayText (n : Number) : String :=
  match n.toFloat with
  | .ok x => x.fixedText 1 false
  | .error _ => n.plain

/-- The notes on an answer; `task` is the job that was asked about. -/
def settleNotes (p : Poller κ) (loop : Nat) (task : Doc) (answer : Option JobAnswer) : List Note :=
  if loop ≠ p.loop then
    [⟨.debug, origin, "Discarding stale poll answer for " ++ p.kind.name ++ " task " ++ task.display⟩]
  else
    match answer.filter fun a => !a.isPending with
    | none =>
      [⟨.debug, origin, p.label ++ " pending, next poll in " ++
        delayText (p.interval.double.min p.limit) ++ "s"⟩]
    | some a =>
      if a.notFound then [⟨.info, origin, p.label ++ " not found, giving up"⟩]
      else if a.isFailure then [p.failNote (.jobFailed p.kind p.task)]
      else []

/-- The notes on an outcome. -/
def concludeNotes (p : Poller κ) (finished : Nat) (outcome : Result Unit) : List Note :=
  match outcome with
  | .error (.problem e) => [p.failNote e]
  | .error (.fault f) =>
    [⟨.error, origin, "Applying " ++ p.label ++ " result failed"⟩,
     p.failNote (.resultNotApplied p.kind p.task f)]
  | .ok () => if p.loop ≠ finished then [] else [⟨.info, origin, p.label ++ " succeeded"⟩]

end Poller

end AsmLens
