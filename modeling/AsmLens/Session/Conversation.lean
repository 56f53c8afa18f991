import AsmLens.Session.Basic

/-!
# Conversations with the service

A session together with a service whose replies are given as data. A reply may be
preceded by timers that fire while it is awaited; their polls take replies of their own,
so that every order in which things happen can be written down.

## Termination

A poll may lead to further polls: those of timers that fire while its reply is awaited,
and in a *prompt* conversation, where timers fire as soon as they are started, that of
the timer it starts. Each takes at least one of the replies that are left, so their
number bounds the depth.

## Faults

A fault in a poll is a fault of what had the timer fire. Not so where timers have *threads*
of their own: such a thread ends with its fault and nobody else hears of it, so that the job
is taken to be running, until whoever waits for it has no more time. The trace that a thread
leaves on the standard error is not among the notes.
-/

namespace AsmLens

/-- A reply, and the timers that fire before it comes. -/
structure Conversation.Exchange where
  fires : List Int
  reply : Reply

/-- A session in conversation with a service. -/
structure Conversation where
  session : Session
  /-- What the service will reply. -/
  script : List Conversation.Exchange
  /-- What comes back when the script is over. -/
  closing : Reply
  /-- Whether timers fire as soon as they are started. -/
  prompt : Bool
  /-- What the service was asked, in order. -/
  requests : List Request
  notes : List Note
  /-- Whether timers have threads of their own. -/
  threads : Bool := false

namespace Conversation

/-- The conversation with more notes. -/
def tell (c : Conversation) (notes : List Note) : Conversation := { c with notes := c.notes ++ notes }

/-- The conversation after a step of its session. -/
def step (c : Conversation) (next : Session × List Note) : Conversation :=
  { c with session := next.1 }.tell next.2

/-! ## Exchanges -/

/-- The conversation after some timers fired, up to the first fault. -/
def fireAll (tick : Conversation → Timer → Conversation × Option Fault) (c : Conversation) :
    List Int → Conversation × Option Fault
  | [] => (c, none)
  | i :: is =>
    match (c.session.timers.resolve? i).bind (c.session.timers[·]?) with
    | none => (c, some .noTimer)
    | some t =>
      match tick c t with
      | (c, none) => fireAll tick c is
      | (c, some f) => (c, some f)

/-- A request and the reply to it; `tick` is what a timer does that fires meanwhile. -/
def exchange (tick : Conversation → Timer → Conversation × Option Fault) (c : Conversation)
    (r : Request) : Conversation × Reply :=
  let c := { c with requests := c.requests ++ [r] }.tell [Client.requestNote r]
  match c.script with
  | [] => (c, c.closing)
  | e :: rest =>
    match fireAll tick { c with script := rest } e.fires with
    | (c, none) => (c, e.reply)
    | (c, some f) => (c, .broken f)

/-- The conversation after the reply to a timer's poll. -/
def answered (c : Conversation) (t : Timer) (task : Doc) (request : Request) (reply : Reply) :
    Conversation × Option Fault :=
  match c.session.client.readAnswer request reply with
  | .ok answer => (c.step (c.session.take t task (some answer)), none)
  | .error (.problem e) =>
    (c.tell [Poller.unreachedNote t.kind task e] |> fun c => c.step (c.session.take t task none), none)
  | .error (.fault f) => (c, some f)

/-- A fault of a timer's poll as what had the timer fire hears of it. -/
def heard (c : Conversation) (f : Fault) : Option Fault := if c.threads then none else some f

/-- The timer that was started since there were a number of them; none if they do not fire at once. -/
def started (c : Conversation) (count : Nat) : Option Timer :=
  if c.prompt then c.session.timers[count]? else none

/-- The conversation after a timer fired, whether or not it was cancelled. -/
def tickWithin (rounds : Nat) (c : Conversation) (t : Timer) : Conversation × Option Fault :=
  match rounds with
  | 0 => (c, none)
  | rounds + 1 =>
    match c.session.asked? t with
    | none => (c, none)
    | some task =>
      let request := c.session.client.inquiry t.kind task
      let (c, reply) := exchange (tickWithin rounds) c request
      let count := c.session.timers.length
      match c.answered t task request reply with
      | (c, some f) => (c, c.heard f)
      | (c, none) =>
        match c.started count with
        | some next => tickWithin rounds c next
        | none => (c, none)

/-- How deep polls can lead to further polls. -/
def depth (c : Conversation) : Nat := c.script.length + 1

/-- The conversation after a timer fired, whether or not it was cancelled. -/
def tick (c : Conversation) (t : Timer) : Conversation × Option Fault := c.tickWithin c.depth t

/-- A request and the reply to it. -/
def send (c : Conversation) (r : Request) : Conversation × Reply := c.exchange (tickWithin c.depth) r

/-- An outcome, unless there was a fault. -/
def outcome {α : Type} (a : α) : Option Fault → Result α
  | none => .ok a
  | some f => .error (.fault f)

/-- The conversation after a timer with a number fired; `force` has it fire even if it was cancelled. -/
def fire (c : Conversation) (i : Int) (force : Bool) : Conversation × Result Unit :=
  match (c.session.timers.resolve? i).bind (c.session.timers[·]?) with
  | none => (c, .error (.fault .noTimer))
  | some t =>
    if t.cancelled && !force then (c, .ok ())
    else
      let (c, fault) := c.tick t
      (c, outcome () fault)

/-! ## Jobs -/

/-- The conversation after the timer that was started fired, if timers fire at once. -/
def chase {α : Type} (c : Conversation) (count : Nat) (a : α) : Conversation × Result α :=
  match c.started count with
  | none => (c, .ok a)
  | some t =>
    let (c, fault) := c.tick t
    (c, outcome a fault)

/-- A job handed in and followed. -/
def submit (c : Conversation) (kind : JobKind) (job : Doc)
    (follow : Session → String → Session × List Note) : Conversation × Result String :=
  let c := c.step (c.session.abandon kind)
  let (c, reply) := c.send (c.session.client.submission kind job)
  match c.session.client.readTask kind reply with
  | .error e => (c, .error e)
  | .ok task =>
    let c := c.tell [Client.submittedNote kind task]
    let count := c.session.timers.length
    (c.step (follow c.session task)).chase count task

/-- The compilation of a source handed in. -/
def compile (c : Conversation) (source : String) : Conversation × Result String :=
  c.submit .compile (c.session.compileJob source) fun s task => s.beginCompile task source

/-- The symbolic execution of a contract handed in, if it may be asked for. -/
def symexec (c : Conversation) (contract : String) (source : Option String) :
    Conversation × Result String :=
  match c.session.plan contract source with
  | .error e => (c, Failure.raise e)
  | .ok (source, target) =>
    c.submit .symexec (c.session.symexecJob source contract) fun s task => s.beginSymexec task target

/-- The conversation with both kinds of jobs given up. -/
def close (c : Conversation) : Conversation := c.step c.session.close

end Conversation

end AsmLens
