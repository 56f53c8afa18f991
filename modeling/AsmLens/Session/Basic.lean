import AsmLens.Job.Poller
import AsmLens.Service.Client
import AsmLens.Store
import AsmLens.View.Highlight

/-!
# Sessions

A session works on one source with the service: it has the source compiled, keeps the
tables, has contracts executed symbolically and attaches the gas to their tables.

## Steps

What a session does takes time, and other things happen meanwhile. So each operation is
cut where it waits, and every piece is a function on the state:

* `abandon` — the job of a kind given up before another one is handed in
* `beginCompile`, `beginSymexec` — polling for a job that was handed in
* `asked?`, `take` — a timer's poll: the job it asks about, and the answer

A result is written into the state part by part (`installInPlace`, `attachInPlace`). It
is taken in full or not at all, since this comes to what `applyCompile` and `applySymexec`
give: the whole next state or a failure.
-/

namespace AsmLens

/-- One kind of job in a session: its poller, and the error that is shown for it. -/
structure Track (κ : Type) where
  poller : Poller κ
  error : Option Problem

/-- A track before its first job. -/
def Track.new {κ : Type} (kind : JobKind) : Track κ := ⟨.new kind, none⟩

/-- What a symbolic execution was asked for: a contract of a generation. -/
structure SymexecTarget where
  contract : String
  generation : Int
deriving DecidableEq, Repr

/-- The state of a session. -/
structure Session where
  settings : Settings
  client : Client
  store : Store
  highlight : Highlight
  /-- The source of the installed compilation. -/
  source : Option String
  /-- The compiler output of the installed compilation. -/
  compiled : Option Doc
  /-- Compilations; each remembers its source. -/
  compiling : Track String
  /-- Symbolic executions; each remembers its target. -/
  executing : Track SymexecTarget
  timers : Timers

namespace Session

/-- A session in which nothing has happened. -/
def new (settings : Settings) : Except Fault Session := do
  return {
    settings, client := ← Client.new settings.service, store := ∅, highlight := .none
    source := none, compiled := none, compiling := .new .compile, executing := .new .symexec
    timers := [] }

/-- The part of the program that a session's notes come from. -/
def origin : String := "session"

/-! ## Results -/

/-- What a job's result holds. A result may say that the job failed after all. -/
def payload (kind : JobKind) (result : Doc) : Except Problem Doc :=
  match result.member? "success" with
  | none => .ok result
  | some success =>
    if success.isBlank then
      .error (.jobReported kind ((result.get "result").orElse (.text (kind.name ++ " failed"))).display)
    else .ok (result.get "result")

/-- The compiler output in the result of a compilation. -/
def compilerOutput (result : Doc) : Except Problem Doc := do
  match ← payload .compile result with
  | .object ms => return .object ms
  | _ => throw .noCompilerOutput

/-- The note on a compilation that was installed. -/
def compiledNote (s : Store) : Note :=
  ⟨.info, origin, "Compiled generation " ++ toString s.generation ++ ": " ++
    ", ".intercalate s.contracts⟩

/-- The result of a compilation installed. -/
def applyCompile (s : Session) (result : Doc) (source : Option String) : Traced Session := do
  let output ← compilerOutput result
  match source with
  | none => Traced.fail .noCompilerOutput
  | some source =>
    let store ← s.store.runBuild source output
    Traced.tell [compiledNote store]
    return { s with
      store, highlight := .none, source := some source, compiled := some output
      compiling := { s.compiling with error := none } }

/-- The result of a symbolic execution attached to the table that it was asked for. -/
def applySymexec (s : Session) (result : Doc) (target : Option SymexecTarget) : Traced Session := do
  let document ← payload .symexec result
  match target with
  | none => Traced.fault (.notIterable .null)
  | some target =>
    let ms ← Measurements.runRead document
    let store ← s.store.runMerge target.contract ms target.generation
    return { s with store, executing := { s.executing with error := none } }

/-! ### In place -/

/-- The store of a session changed in place. -/
def onStore (x : InPlace Store Unit) : InPlace Session Unit :=
  InPlace.on Session.store (fun s store => { s with store }) x

/-- The result of a compilation installed in place. -/
def installInPlace (result : Doc) (source : Option String) : InPlace Session Unit := do
  let output ← InPlace.check (compilerOutput result)
  match source with
  | none => InPlace.check (Traced.fail .noCompilerOutput)
  | some source => do
    onStore (Store.buildInPlace source output)
    InPlace.write fun s => { s with highlight := .none }
    InPlace.write fun s => { s with source := some source }
    InPlace.write fun s => { s with compiled := some output }
    InPlace.write fun s => { s with compiling := { s.compiling with error := none } }
    let s ← InPlace.get
    InPlace.check (Traced.tell [compiledNote s.store])

/-- The result of a symbolic execution attached in place. -/
def attachInPlace (result : Doc) (target : Option SymexecTarget) : InPlace Session Unit := do
  let document ← InPlace.check (payload .symexec result)
  match target with
  | none => InPlace.check (Traced.fault (.notIterable .null))
  | some target => do
    let ms ← InPlace.check (Measurements.runRead document)
    onStore (Store.mergeInPlace target.contract ms target.generation)
    InPlace.write fun s => { s with executing := { s.executing with error := none } }

theorem onStore_eq {s : Session} {x : InPlace Store Unit} {t : Traced Store}
    (h : x.run s.store = t.settle s.store) :
    (onStore x).run s = (t >>= fun store => pure { s with store }).settle s :=
  InPlace.settle_on h rfl

/-- A compilation is installed in full or not at all. -/
theorem installInPlace_eq (s : Session) (result : Doc) (source : Option String) :
    (installInPlace result source).run s = (applyCompile s result source).settle s := by
  refine InPlace.settle_bind fun output _ => ?_
  cases source with
  | none => rfl
  | some source =>
    refine (InPlace.settle_write (onStore_eq (s.store.buildInPlace_eq source output))
      fun s => rfl).trans ?_
    rw [Traced.bind_pure_bind]
    rfl

/-- Gas is attached in full or not at all. -/
theorem attachInPlace_eq (s : Session) (result : Doc) (target : Option SymexecTarget) :
    (attachInPlace result target).run s = (applySymexec s result target).settle s := by
  refine InPlace.settle_bind fun document _ => ?_
  cases target with
  | none => rfl
  | some target =>
    refine InPlace.settle_bind fun ms _ => ?_
    refine (InPlace.settle_write
      (onStore_eq (s.store.mergeInPlace_eq target.contract ms target.generation))
      fun s => rfl).trans ?_
    rw [Traced.bind_pure_bind]
    rfl

/-! ## Answers -/

/--
How a session deals with one kind of job: where its track is, and what is done with a result. The
result is written in place, which comes to the whole next state or none.
-/
structure Lane (κ : Type) where
  get : Session → Track κ
  set : Session → Track κ → Session
  apply : Session → Doc → Option κ → Traced Session
  perform : Doc → Option κ → InPlace Session Unit
  perform_eq : ∀ s r c, (perform r c).run s = (apply s r c).settle s

/-- How a session deals with compilations. -/
def compileLane : Lane String where
  get s := s.compiling
  set s t := { s with compiling := t }
  apply := applyCompile
  perform := installInPlace
  perform_eq := installInPlace_eq

/-- How a session deals with symbolic executions. -/
def symexecLane : Lane SymexecTarget where
  get s := s.executing
  set s t := { s with executing := t }
  apply := applySymexec
  perform := attachInPlace
  perform_eq := attachInPlace_eq

namespace Lane

variable {κ : Type}

/-- A session with a poller and the timers changed. -/
def put (l : Lane κ) (s : Session) (next : Poller κ × Timers) : Session :=
  { l.set s { l.get s with poller := next.1 } with timers := next.2 }

/-- A session after what follows an answer or an outcome: a failure is shown. -/
def follow (l : Lane κ) (s : Session) : Poller.Next κ → Session
  | .tell e => l.set s { l.get s with error := some e }
  | _ => s

/-- A session after a result was applied, with notes. -/
def finish (l : Lane κ) (s : Session) (result : Doc) (context : Option κ) : Session × List Note :=
  let p := (l.get s).poller
  let (s, applied) := (l.perform result context).run s
  let (q, next) := p.conclude p.loop result applied.outcome
  (l.follow (l.set s { l.get s with poller := q }) next,
    applied.notes ++ p.concludeNotes p.loop applied.outcome)

/-- A result is applied in full, or the session is left as it was. -/
theorem finish_eq (l : Lane κ) (s : Session) (result : Doc) (context : Option κ) :
    l.finish s result context =
      let p := (l.get s).poller
      let applied := l.apply s result context
      let s := applied.outcome.toOption.getD s
      let outcome := applied.outcome.map fun _ => ()
      let (q, next) := p.conclude p.loop result outcome
      (l.follow (l.set s { l.get s with poller := q }) next,
        applied.notes ++ p.concludeNotes p.loop outcome) := by
  rw [finish, l.perform_eq]
  rfl

/-- A session after the answer to a poll of a loop, with notes; `task` is what was asked about. -/
def take (l : Lane κ) (s : Session) (loop : Nat) (task : Doc) (answer : Option JobAnswer) :
    Session × List Note :=
  let p := (l.get s).poller
  let notes := p.settleNotes loop task answer
  let (state, next) := p.settle s.timers loop answer
  let s := l.put s state
  match next with
  | .apply result context =>
    let (s, more) := l.finish s result context
    (s, notes ++ more)
  | next => (l.follow s next, notes)

/-- A session that follows a job, with notes. -/
def begin (l : Lane κ) (s : Session) (task : String) (context : κ) : Session × List Note :=
  let s := l.set s { l.get s with error := none }
  let p := (l.get s).poller
  (l.put s (p.start s.timers (.text task) (some context)), p.startNotes (.text task))

/-- A session without the running job, with notes. -/
def abandon (l : Lane κ) (s : Session) : Session × List Note :=
  let p := (l.get s).poller
  (l.put s (p.cancel s.timers), p.cancelNotes)

/-- The job that the timer of a loop asks about. -/
def asked? (l : Lane κ) (s : Session) (loop : Nat) : Option Doc := (l.get s).poller.pollDue? loop

end Lane

/-! ## Steps -/

/-- The job that a timer asks about; none if its loop is over. -/
def asked? (s : Session) (t : Timer) : Option Doc :=
  match t.kind with
  | .compile => compileLane.asked? s t.loop
  | .symexec => symexecLane.asked? s t.loop

/-- The session after the answer to a timer's poll; none if the service was not reached. -/
def take (s : Session) (t : Timer) (task : Doc) (answer : Option JobAnswer) : Session × List Note :=
  match t.kind with
  | .compile => compileLane.take s t.loop task answer
  | .symexec => symexecLane.take s t.loop task answer

/-- The session without the running job of a kind. -/
def abandon (s : Session) : JobKind → Session × List Note
  | .compile => compileLane.abandon s
  | .symexec => symexecLane.abandon s

/-- The session that follows the compilation of a source. -/
def beginCompile (s : Session) (task source : String) : Session × List Note :=
  compileLane.begin s task source

/-- The session that follows a symbolic execution. -/
def beginSymexec (s : Session) (task : String) (target : SymexecTarget) : Session × List Note :=
  symexecLane.begin s task target

/-- The session with both kinds of jobs given up. -/
def close (s : Session) : Session × List Note :=
  let (s, first) := s.abandon .compile
  let (s, second) := s.abandon .symexec
  (s, first ++ second)

/-! ## Symbolic executions -/

/-- The source and the target of a symbolic execution, if it may be asked for. -/
def plan (s : Session) (contract : String) (source : Option String) :
    Except Problem (String × SymexecTarget) :=
  match source.or s.source with
  | none => .error .nothingCompiled
  | some source => do
    s.store.checkSource source
    match s.store.find? contract with
    | none => throw (.contractNotCompiled contract s.store.generation)
    | some _ => return (source, ⟨contract, s.store.generation⟩)

/-- The job that compiles a source. -/
def compileJob (s : Session) (source : String) : Doc := Client.compileJob source s.settings.compiler

/-- The job that executes a contract symbolically. -/
def symexecJob (s : Session) (source contract : String) : Doc :=
  Client.symexecJob source (s.compiled.getD .null) s.settings.symexec (some contract)

/-! ## Waiting -/

/-- The longest time that can be waited for, in seconds. -/
def longestWait : Number := .int 9223372036

/-- How a job stands after waiting for it, where nothing more happens while waiting. -/
def waitFor {κ : Type} (p : Poller κ) (limit : Number) : Result JobStatus :=
  match p.status, p.error with
  | .running, _ =>
    if longestWait.lt limit then .error (.fault (.other .overflow "timeout value is too large"))
    else Failure.raise (.waitTimedOut p.kind p.task limit.plain)
  | .failed, some e => Failure.raise e
  | status, _ => .ok status

/-- How a job of a kind stands after waiting for it; the error of a failed job is raised. -/
def wait (s : Session) (kind : JobKind) (limit : Number) : Result JobStatus :=
  match kind with
  | .compile => waitFor s.compiling.poller limit
  | .symexec => waitFor s.executing.poller limit

end Session

end AsmLens
