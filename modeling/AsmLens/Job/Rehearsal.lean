import AsmLens.Job.Poller

/-!
# Rehearsing a poller

A poller run against a world that is given as data: what the service answers to each
poll and what happens meanwhile, and what is done with results and failures. Every
order of starts, cancellations, firings and answers can be written down this way,
also those inside of a poll or of the application of a result.
-/

namespace AsmLens.Rehearsal

/-- What is done to a poller from outside: a job started, then the running job cancelled. -/
structure Action where
  start : Option (Doc × Doc)
  cancel : Bool

/-- Nothing is done. -/
def Action.none : Action := ⟨Option.none, false⟩

/-- What comes back from a poll. -/
inductive Reply
  | answer (a : JobAnswer)
  /-- The service could not be reached. -/
  | unreached (message : String)
  | fault (f : Fault)

/-- One poll: what happens while it is in flight, and what comes back. -/
structure Exchange where
  meanwhile : Action
  reply : Reply

/-- What is done with a result, and how that ends. -/
structure Reaction where
  action : Action
  ending : Result Unit

/-- What is done about the outcome of jobs. -/
structure Script where
  /-- Whether anyone is told of outcomes. -/
  listens : Bool
  /-- What is done with the result of a job. -/
  onResult : Doc → Reaction
  /-- The job that is started after a failure. -/
  onFailure : Option Doc
  /-- How being told of a failure ends. -/
  failureEnding : Result Unit

/-- What the world was asked and told. -/
inductive Entry
  | polled (task : Doc)
  | result (result context : Doc)
  | failure (p : Problem)

/-- A poller in its world. -/
structure World where
  poller : Poller Doc
  timers : Timers
  /-- The exchanges still to come, by job. -/
  exchanges : List (String × List Exchange)
  script : Script
  entries : List Entry

namespace World

/-- The world after a poller and its timers changed. -/
def put (w : World) (s : Poller Doc × Timers) : World := { w with poller := s.1, timers := s.2 }

/-- The world with one more entry. -/
def record (w : World) (e : Entry) : World := { w with entries := w.entries ++ [e] }

/-- The world after something was done from outside. -/
def act (w : World) (a : Action) : World :=
  let w := match a.start with
    | some (task, context) => w.put (w.poller.start w.timers task (some context))
    | none => w
  if a.cancel then w.put (w.poller.cancel w.timers) else w

/-- The next exchange about a job; without any the job is pending. -/
def nextExchange (w : World) (task : Doc) : Exchange × World :=
  let pending : Exchange := ⟨.none, .answer (.known (.text "PENDING") .null)⟩
  match task with
  | .text id =>
    match w.exchanges.lookup id with
    | some (e :: _) =>
      (e, { w with exchanges := w.exchanges.map fun p => if p.1 = id then (p.1, p.2.tail) else p })
    | _ => (pending, w)
  | _ => (pending, w)

/-- The world after a failure was told. -/
def tell (w : World) (p : Problem) : World × Result Unit :=
  if !w.script.listens then (w, .ok ())
  else
    let w := w.record (.failure p)
    let w := match w.script.onFailure with
      | some task => w.act ⟨some (task, .null), false⟩
      | none => w
    (w, w.script.failureEnding)

/-- The world after what follows an answer or an outcome, other than applying a result. -/
def follow (w : World) : Poller.Next Doc → World × Result Unit
  | .tell p => w.tell p
  | _ => (w, .ok ())

/-- The world after a result was applied. -/
def apply (w : World) (result : Doc) (context : Option Doc) : World × Result Unit :=
  let finished := w.poller.loop
  let (w, outcome) :=
    if !w.script.listens then (w, .ok ())
    else
      let reaction := w.script.onResult w.poller.task
      ((w.record (.result result (context.getD .null))).act reaction.action, reaction.ending)
  let (p, next) := w.poller.conclude finished result outcome
  { w with poller := p }.follow next

/-- The world after the answer to a poll was taken. -/
def settle (w : World) (loop : Nat) (answer : Option JobAnswer) : World × Result Unit :=
  let (s, next) := w.poller.settle w.timers loop answer
  let w := w.put s
  match next with
  | .apply result context => w.apply result context
  | next => w.follow next

/-- The world after a timer's poll. -/
def tick (w : World) (timer : Timer) : World × Result Unit :=
  match w.poller.pollDue? timer.loop with
  | none => (w, .ok ())
  | some task =>
    let (e, w) := (w.record (.polled task)).nextExchange task
    let w := w.act e.meanwhile
    match e.reply with
    | .answer a => w.settle timer.loop (some a)
    | .unreached _ => w.settle timer.loop none
    | .fault f => (w, .error (.fault f))

/-- The world after a timer fired; `force` has it fire even if it was cancelled. -/
def fire (w : World) (i : Int) (force : Bool) : World × Result Unit :=
  match (w.timers.resolve? i).bind (w.timers[·]?) with
  | none => (w, .error (.fault .noTimer))
  | some t => if t.cancelled && !force then (w, .ok ()) else w.tick t

end World

end AsmLens.Rehearsal
