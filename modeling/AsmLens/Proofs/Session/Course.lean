import AsmLens.Proofs.Session.Lane

/-!
# The course of a session

Everything that can happen to a session, in any order: jobs of both kinds are asked for, the
service takes them or not, timers fire, answers come back from polls long past. A *log* says what
happened.

* `Course` — a session with the jobs handed in, the polls in flight, and a log
* `Course.step`, `Course.run` — what events do
* `Course.Tracked` — both pollers are consistent with the log
* `Course.Tracked.abandon`, `beginCompile`, `beginSymexec`, `poll`, `take` — steps keep them so
-/

namespace AsmLens

/-- A job that was handed in and whose reply has not come. -/
inductive Submission
  | compile (source : String)
  /-- A symbolic execution goes by its ticket, a number that no other has. -/
  | symexec (ticket : Nat) (target : SymexecTarget)

/-- What happened to a session. -/
inductive Deed
  /-- Something happened to the poller of compilations. -/
  | compile (m : Moment String)
  /-- Something happened to the poller of symbolic executions. -/
  | symexec (m : Moment SymexecTarget)
  /-- A symbolic execution of a contract was handed in while a generation was installed. -/
  | submitted (ticket : Nat) (contract : String) (generation : Nat)
  /-- The service took it under a name, and a loop follows it. -/
  | accepted (ticket : Nat) (task : String) (loop : Nat)

namespace Deed

/-- Something that can happen to the poller of either kind. -/
def ofKind (kind : JobKind) (m : ∀ κ, Moment κ) : Deed :=
  match kind with
  | .compile => compile (m _)
  | .symexec => symexec (m _)

def compile? : Deed → Option (Moment String)
  | compile m => some m
  | _ => none

def symexec? : Deed → Option (Moment SymexecTarget)
  | symexec m => some m
  | _ => none

/-- The history of the poller of compilations. -/
def compiles (log : List Deed) : List (Moment String) := log.filterMap compile?

/-- The history of the poller of symbolic executions. -/
def symexecs (log : List Deed) : List (Moment SymexecTarget) := log.filterMap symexec?

theorem mem_compiles {log : List Deed} {m : Moment String} :
    m ∈ compiles log ↔ compile m ∈ log := by
  rw [compiles, List.mem_filterMap]
  constructor
  · rintro ⟨d, hd, hm⟩
    cases d with
    | compile n =>
      obtain rfl : n = m := Option.some.inj hm
      exact hd
    | _ => exact nomatch hm
  · exact fun h => ⟨_, h, rfl⟩

theorem mem_symexecs {log : List Deed} {m : Moment SymexecTarget} :
    m ∈ symexecs log ↔ symexec m ∈ log := by
  rw [symexecs, List.mem_filterMap]
  constructor
  · rintro ⟨d, hd, hm⟩
    cases d with
    | symexec n =>
      obtain rfl : n = m := Option.some.inj hm
      exact hd
    | _ => exact nomatch hm
  · exact fun h => ⟨_, h, rfl⟩

end Deed

open Deed

/-- A session in its world. -/
structure Course where
  session : Session
  /-- The jobs whose replies have not come. -/
  pending : List Submission
  /-- The timers whose polls have not been answered, with the jobs that they ask about. -/
  flights : List (Timer × Doc)
  /-- What happened, newest first. -/
  log : List Deed

/-- What can happen to a session; timers, polls and jobs handed in go by their place. -/
inductive Course.Event
  | compile (source : String)
  | symexec (contract : String) (source : Option String)
  /-- The reply to a job that was handed in: its name, or none if it was not taken. -/
  | reply (submission : Nat) (task : Option String)
  | fire (timer : Nat)
  /-- What came back from a poll; it is no answer if the service could not be reached. -/
  | answer (flight : Nat) (a : Option JobAnswer)
  /-- A poll that ended by an error of another kind. -/
  | broken (flight : Nat)
  | close

namespace Course

/-- A session in which nothing has happened. -/
def new (s : Session) : Course := ⟨s, [], [], []⟩

/-- The course of a session after a job that was handed in was taken under a name. -/
def begin (c : Course) (task : String) : Submission → Course
  | .compile source =>
    let s := (c.session.beginCompile task source).1
    { c with
      session := s
      log := .compile (.started s.compiling.poller.loop (.text task) (some source)) :: c.log }
  | .symexec ticket target =>
    let s := (c.session.beginSymexec task target).1
    { c with
      session := s
      log := .symexec (.started s.executing.poller.loop (.text task) (some target)) ::
        .accepted ticket task s.executing.poller.loop :: c.log }

/-- The course of a session after the running job of a kind was given up. -/
def abandon (c : Course) (kind : JobKind) : Course :=
  { c with
    session := (c.session.abandon kind).1
    log := .ofKind kind (fun _ => .cancelled) :: c.log }

/-- The course of a session after a symbolic execution was handed in. -/
def handIn (c : Course) (target : SymexecTarget) : Course :=
  let deed := .submitted c.log.length target.contract c.session.store.generation
  let d := { c with log := deed :: c.log }.abandon .symexec
  { d with pending := d.pending ++ [.symexec c.log.length target] }

/-- The course of a session after an event. -/
def step (c : Course) : Event → Course
  | .compile source =>
    let c := c.abandon .compile
    { c with pending := c.pending ++ [.compile source] }
  | .symexec contract source =>
    match c.session.plan contract source with
    | .error _ => c
    | .ok (_, target) => c.handIn target
  | .reply j task =>
    match c.pending[j]? with
    | none => c
    | some job =>
      let c := { c with pending := c.pending.eraseIdx j }
      match task with
      | none => c
      | some task => c.begin task job
  | .fire i =>
    match c.session.timers[i]? with
    | none => c
    | some t =>
      match c.session.asked? t with
      | none => c
      | some task =>
        { c with
          flights := c.flights ++ [(t, task)]
          log := .ofKind t.kind (fun _ => .polled ⟨t.loop, task⟩) :: c.log }
  | .answer j a =>
    match c.flights[j]? with
    | none => c
    | some (t, task) =>
      { c with
        session := (c.session.take t task a).1
        flights := c.flights.eraseIdx j
        log := .ofKind t.kind (fun _ => .answered ⟨t.loop, task⟩ a) :: c.log }
  | .broken j => { c with flights := c.flights.eraseIdx j }
  | .close => (c.abandon .compile).abandon .symexec

/-- The course of a session after events. -/
def run (c : Course) (es : List Event) : Course := es.foldl step c

/-! ## The two pollers -/

/-- The polls in flight of one kind. -/
def flightsOf (kind : JobKind) (fs : List (Timer × Doc)) : List Flight :=
  fs.filterMap fun p => if p.1.kind = kind then some ⟨p.1.loop, p.2⟩ else none

theorem mem_flightsOf {kind : JobKind} {fs : List (Timer × Doc)} {p : Timer × Doc} (hp : p ∈ fs)
    (hk : p.1.kind = kind) : ⟨p.1.loop, p.2⟩ ∈ flightsOf kind fs :=
  List.mem_filterMap.mpr ⟨p, hp, if_pos hk⟩

theorem of_mem_flightsOf_eraseIdx {kind : JobKind} {fs : List (Timer × Doc)} {j : Nat} {f : Flight}
    (h : f ∈ flightsOf kind (fs.eraseIdx j)) : f ∈ flightsOf kind fs := by
  obtain ⟨p, hp, he⟩ := List.mem_filterMap.mp h
  exact List.mem_filterMap.mpr ⟨p, List.mem_of_mem_eraseIdx hp, he⟩

theorem flightsOf_concat (kind : JobKind) (fs : List (Timer × Doc)) (t : Timer) (task : Doc) :
    flightsOf kind (fs ++ [(t, task)]) =
      flightsOf kind fs ++ if t.kind = kind then [⟨t.loop, task⟩] else [] := by
  rw [flightsOf, List.filterMap_append]
  by_cases hk : t.kind = kind <;> simp [flightsOf, hk]

/-- Both pollers are consistent with the log. -/
structure Tracked (s : Session) (fs : List (Timer × Doc)) (log : List Deed) : Prop where
  compiling : Session.compileLane.Consistent .compile s (flightsOf .compile fs) (compiles log)
  executing : Session.symexecLane.Consistent .symexec s (flightsOf .symexec fs) (symexecs log)

namespace Tracked

open Session Session.Lane

variable {s : Session} {fs : List (Timer × Doc)} {log : List Deed}

theorem new {settings : Settings} (h : Session.new settings = .ok s) : Tracked s [] [] := by
  obtain ⟨client, rfl⟩ := Session.of_new h
  exact ⟨⟨rfl, .new .compile none none⟩, ⟨rfl, .new .symexec none none⟩⟩

/-- The running job of a kind given up. -/
theorem abandon (h : Tracked s fs log) (kind : JobKind) :
    Tracked (s.abandon kind).1 fs (.ofKind kind (fun _ => .cancelled) :: log) := by
  cases kind with
  | compile =>
    obtain ⟨hp, ht, -⟩ := abandon_frame lawful_compileLane lawful_symexecLane apart_symexecLane s
      .compile 0
    exact ⟨h.compiling.abandon lawful_compileLane, h.executing.of_timersFrom hp ht (by decide)⟩
  | symexec =>
    obtain ⟨hp, ht, -⟩ := abandon_frame lawful_symexecLane lawful_compileLane apart_compileLane s
      .symexec 0
    exact ⟨h.compiling.of_timersFrom hp ht (by decide), h.executing.abandon lawful_symexecLane⟩

theorem beginCompile (h : Tracked s fs log) (task source : String) :
    Tracked (s.beginCompile task source).1 fs
      (.compile (.started (s.beginCompile task source).1.compiling.poller.loop (.text task)
        (some source)) :: log) := by
  obtain ⟨hp, ht, -⟩ := begin_frame lawful_compileLane lawful_symexecLane apart_symexecLane s task
    source
  refine ⟨h.compiling.begin lawful_compileLane task source, h.executing.of_timersFrom hp ht ?_⟩
  rw [h.compiling.kind]
  decide

theorem beginSymexec (h : Tracked s fs log) (task : String) (target : SymexecTarget) {n : Nat}
    {l : Nat} :
    Tracked (s.beginSymexec task target).1 fs
      (.symexec (.started (s.beginSymexec task target).1.executing.poller.loop (.text task)
        (some target)) :: .accepted n task l :: log) := by
  obtain ⟨hp, ht, -⟩ := begin_frame lawful_symexecLane lawful_compileLane apart_compileLane s task
    target
  refine ⟨h.compiling.of_timersFrom hp ht ?_, h.executing.begin lawful_symexecLane task target⟩
  rw [h.executing.kind]
  decide

/-- A timer's poll. -/
theorem poll (h : Tracked s fs log) {t : Timer} {task : Doc} (ht : t ∈ s.timers)
    (ha : s.asked? t = some task) :
    Tracked s (fs ++ [(t, task)]) (.ofKind t.kind (fun _ => .polled ⟨t.loop, task⟩) :: log) := by
  rw [Session.asked?] at ha
  cases hk : t.kind with
  | compile =>
    rw [hk] at ha
    refine ⟨?_, ?_⟩
    · rw [flightsOf_concat, if_pos hk]
      exact h.compiling.asked ht hk ha
    · rw [flightsOf_concat, if_neg (by rw [hk]; decide), List.append_nil]
      exact h.executing
  | symexec =>
    rw [hk] at ha
    refine ⟨?_, ?_⟩
    · rw [flightsOf_concat, if_neg (by rw [hk]; decide), List.append_nil]
      exact h.compiling
    · rw [flightsOf_concat, if_pos hk]
      exact h.executing.asked ht hk ha

/-- An answer taken. -/
theorem take (h : Tracked s fs log) {t : Timer} {task : Doc} (hf : (t, task) ∈ fs)
    (a : Option JobAnswer) :
    Tracked (s.take t task a).1 fs
      (.ofKind t.kind (fun _ => .answered ⟨t.loop, task⟩ a) :: log) := by
  rw [Session.take]
  cases hk : t.kind with
  | compile =>
    obtain ⟨hp, ht⟩ := take_frame lawful_compileLane lawful_symexecLane apart_symexecLane s t.loop
      task a
    refine ⟨h.compiling.take lawful_compileLane (mem_flightsOf hf hk) a,
      h.executing.of_timersFrom hp ht ?_⟩
    rw [h.compiling.kind]
    decide
  | symexec =>
    obtain ⟨hp, ht⟩ := take_frame lawful_symexecLane lawful_compileLane apart_compileLane s t.loop
      task a
    refine ⟨h.compiling.of_timersFrom hp ht ?_,
      h.executing.take lawful_symexecLane (mem_flightsOf hf hk) a⟩
    rw [h.executing.kind]
    decide

theorem eraseIdx (h : Tracked s fs log) (j : Nat) : Tracked s (fs.eraseIdx j) log :=
  ⟨h.compiling.of_flights fun _ => of_mem_flightsOf_eraseIdx,
    h.executing.of_flights fun _ => of_mem_flightsOf_eraseIdx⟩

end Tracked

end Course

end AsmLens
