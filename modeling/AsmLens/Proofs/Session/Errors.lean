import AsmLens.Proofs.Job.LiveLoop
import AsmLens.Proofs.Session.Provenance
import AsmLens.Proofs.Session.Wholeness

/-!
# The errors of a session

A failure is written down twice: the poller keeps it, and it is told to the session, which shows
it. Both are cleared where a job begins and where a result was applied. In between a job may be given
up, a submission may fail, or an answer may come too late.

* `Poller.error_settle`, `Poller.error_conclude` — the poller keeps what it tells
* `Track.Mirrors` — the invariant: what is shown is what the poller keeps
* `Track.Mirrors.start`, `cancel`, `ask`; `Session.Lane.mirrors_take` — steps keep it
* `Course.Mirrored.run` — every run keeps it, of both tracks
* `Course.errors_mirror_pollers` — the main result
-/

namespace AsmLens

namespace Poller

variable {κ : Type}

/-- The error that is shown after an answer or an outcome, where another was shown before. -/
def Next.shown (n : Next κ) (e : Option Problem) : Option Problem :=
  match n with
  | .tell e => some e
  | _ => e

/-- A poller keeps the failure that it tells. -/
theorem error_settle (p : Poller κ) (ts : Timers) (loop : Nat) (a : Option JobAnswer) :
    (p.settle ts loop a).1.1.error = (p.settle ts loop a).2.shown p.error := by
  rcases settle_outcomes p ts loop a with ⟨-, he⟩ |
    ⟨-, ⟨-, he⟩ | ⟨b, -, -, ⟨-, he⟩ | ⟨-, e, he⟩ | ⟨-, -, he⟩⟩⟩ <;> rw [he] <;> rfl

theorem error_conclude (p : Poller κ) (finished : Nat) (r : Doc) (o : Result Unit) :
    (p.conclude finished r o).1.error = (p.conclude finished r o).2.shown p.error := by
  rcases o with (e | f) | _
  · rfl
  · rfl
  · by_cases hl : p.loop ≠ finished
    · rw [conclude, if_pos hl]
      rfl
    · rw [conclude, if_neg hl]
      rfl

/-- An answer ends the loop of the poller, or leaves it and the status. -/
theorem loop_settle (p : Poller κ) (ts : Timers) (loop : Nat) (a : Option JobAnswer) :
    (p.settle ts loop a).1.1.loop = p.loop + 1 ∨
      (p.settle ts loop a).1.1.loop = p.loop ∧ (p.settle ts loop a).1.1.status = p.status := by
  rcases settle_outcomes p ts loop a with ⟨-, he⟩ |
    ⟨-, ⟨-, he⟩ | ⟨b, -, -, ⟨-, he⟩ | ⟨-, e, he⟩ | ⟨-, -, he⟩⟩⟩ <;> rw [he]
  · exact .inr ⟨rfl, rfl⟩
  · exact .inr ⟨rfl, rfl⟩
  · exact .inl rfl
  · exact .inl rfl
  · exact .inl rfl

/-- There is an error exactly after a failure. -/
theorem Tidy.error_ne_none_iff {p : Poller κ} (h : p.Tidy) :
    p.error ≠ none ↔ p.status = .failed := by
  constructor
  · intro hne
    cases hs : p.status with
    | idle => exact absurd (h.unfinished (.inr hs)).2 hne
    | running => exact absurd (h.unfinished (.inl hs)).2 hne
    | succeeded => exact absurd (h.succeeded hs) hne
    | failed => rfl
  · intro hs
    exact Option.isSome_iff_ne_none.mp (h.failed hs).1

end Poller

/-! ## Tracks -/

/-- The error that is shown is the one that the poller keeps, which is as its status says; and only a
running poller has polls of its own loop in flight. -/
structure Track.Mirrors {κ : Type} (t : Track κ) (fs : List Flight) : Prop where
  tidy : t.poller.Tidy
  error : t.error = t.poller.error
  flights : ∀ f ∈ fs, f.loop < t.poller.loop ∨ f.loop = t.poller.loop ∧ t.poller.status = .running

namespace Track.Mirrors

variable {κ : Type} {t : Track κ} {fs : List Flight}

theorem new (kind : JobKind) : (Track.new kind : Track κ).Mirrors [] :=
  ⟨.new kind none none, rfl, fun _ hf => absurd hf List.not_mem_nil⟩

/-- When the loop of the poller ends, no poll in flight is of its loop any more. -/
theorem passed (h : t.Mirrors fs) {loop : Nat} (hl : loop = t.poller.loop + 1) :
    ∀ f ∈ fs, f.loop < loop := by
  intro f hf
  rcases h.flights f hf with hlt | ⟨heq, -⟩ <;> omega

theorem error_ne_none_iff (h : t.Mirrors fs) : t.error ≠ none ↔ t.poller.status = .failed := by
  rw [h.error]
  exact h.tidy.error_ne_none_iff

theorem start (h : t.Mirrors fs) (ts : Timers) (task : Doc) (context : Option κ) :
    (⟨(t.poller.start ts task context).1, none⟩ : Track κ).Mirrors fs :=
  ⟨.start t.poller ts task context, rfl, fun f hf => .inl (h.passed rfl f hf)⟩

theorem cancel (h : t.Mirrors fs) (ts : Timers) :
    ({ t with poller := (t.poller.cancel ts).1 } : Track κ).Mirrors fs :=
  ⟨h.tidy.cancel ts, h.error, fun f hf => .inl (h.passed rfl f hf)⟩

/-- A timer's poll: it is of the poller's own loop, and the poller is running. -/
theorem ask (h : t.Mirrors fs) {loop : Nat} {task : Doc} (ha : t.poller.pollDue? loop = some task) :
    t.Mirrors (fs ++ [⟨loop, task⟩]) := by
  refine ⟨h.tidy, h.error, fun f hf => ?_⟩
  rcases List.mem_append.mp hf with hf | hf
  · exact h.flights f hf
  · rw [List.mem_singleton.mp hf]
    rw [Poller.pollDue?] at ha
    split at ha
    · next hlive => exact .inr hlive
    · cases ha

theorem of_flights (h : t.Mirrors fs) {gs : List Flight} (hg : ∀ f ∈ gs, f ∈ fs) : t.Mirrors gs :=
  ⟨h.tidy, h.error, fun f hf => h.flights f (hg f hf)⟩

end Track.Mirrors

/-! ## Lanes -/

namespace Session.Lane

variable {κ μ : Type} {l : Lane κ} {l' : Lane μ} {s : Session} {fs : List Flight}

/-- Showing what follows an answer or an outcome. -/
theorem get_follow (hl : l.Lawful) (s : Session) (n : Poller.Next κ) :
    l.get (l.follow s n) = { l.get s with error := n.shown (l.get s).error } := by
  cases n with
  | tell e => exact hl.get_set _ _
  | done => rfl
  | apply r c => rfl

/-- A result that was applied clears the error that is shown in its lane, and leaves the other
lane as it is. -/
structure Clears (l : Lane κ) (l' : Lane μ) : Prop where
  error : ∀ {s r c s'}, (l.apply s r c).outcome = .ok s' → (l.get s').error = none
  other : ∀ {s r c s'}, (l.apply s r c).outcome = .ok s' → l'.get s' = l'.get s

theorem clears_compileLane : compileLane.Clears symexecLane where
  error h := by
    obtain ⟨_, _, _, -, -, -, rfl⟩ := of_applyCompile h
    rfl
  other h := by
    obtain ⟨_, _, _, -, -, -, rfl⟩ := of_applyCompile h
    rfl

theorem clears_symexecLane : symexecLane.Clears compileLane where
  error h := by
    obtain ⟨_, _, _, _, -, -, -, -, rfl⟩ := of_applySymexec h
    rfl
  other h := by
    obtain ⟨_, _, _, _, -, -, -, -, rfl⟩ := of_applySymexec h
    rfl

/-- The track of a lane is outside of the other lane. -/
theorem Outside.track (hl' : l'.Lawful) (ha : l'.Apart l) : l.Outside l'.get :=
  ⟨ha.get_set, hl'.get_timers⟩

theorem mirrors_begin (hl : l.Lawful) (h : (l.get s).Mirrors fs) (task : String) (context : κ) :
    (l.get (l.begin s task context).1).Mirrors fs := by
  rw [begin, get_put hl, hl.get_set]
  exact h.start _ _ _

theorem mirrors_abandon (hl : l.Lawful) (h : (l.get s).Mirrors fs) :
    (l.get (l.abandon s).1).Mirrors fs := by
  rw [abandon, get_put hl]
  exact h.cancel _

/-- A result that was handed out is applied: a failure is kept and shown, and without one nothing
is. The poller was running when it handed out the result, so it keeps no error. -/
theorem mirrors_finish (hl : l.Lawful) (hx : l.Clears l') (h : (l.get s).Mirrors fs)
    (hs : (l.get s).poller.status = .running) (hi : (l.get s).poller.interval = (l.get s).poller.base)
    (hf : ∀ f ∈ fs, f.loop < (l.get s).poller.loop) (r : Doc) (c : Option κ) :
    (l.get (l.finish s r c).1).Mirrors fs := by
  have hnone : (l.get s).poller.error = none := (h.tidy.unfinished (.inl hs)).2
  have herror : (l.get ((l.apply s r c).outcome.toOption.getD s)).error = none := by
    cases ho : (l.apply s r c).outcome with
    | error e => exact h.error.trans hnone
    | ok s₁ => exact hx.error ho
  have hp := (finish_frame hl s r c).1
  refine ⟨?_, ?_, fun f hm => .inl ?_⟩
  · rw [hp]
    exact h.tidy.conclude (.inl hs) hi _ _ _
  · rw [hp, Poller.error_conclude, hnone, finish_eq, get_follow hl, hl.get_set]
    dsimp only
    rw [herror]
  · obtain ⟨q, next, he, ⟨-, hloop, -⟩, -⟩ := Poller.conclude_cases (l.get s).poller
      (l.get s).poller.loop r ((l.apply s r c).outcome.map fun _ => ())
    rw [hp, he, hloop]
    exact hf f hm

/-- An answer to a poll in flight. -/
theorem mirrors_take (hl : l.Lawful) (hx : l.Clears l') (h : (l.get s).Mirrors fs) {f : Flight}
    (hf : f ∈ fs) (a : Option JobAnswer) :
    (l.get (l.take s f.loop f.task a).1).Mirrors fs := by
  have hrunning : f.loop = (l.get s).poller.loop → (l.get s).poller.status = .running := by
    intro he
    rcases h.flights f hf with hlt | ⟨-, hs⟩
    · omega
    · exact hs
  have htidy := h.tidy.settle hrunning s.timers a
  rcases take_cases l s f.loop f.task a with ⟨-, he⟩ | ⟨r, c, happly, he⟩
  · rw [he, get_follow hl, get_put hl]
    refine ⟨htidy, ?_, fun g hg => ?_⟩
    · rw [Poller.error_settle, h.error]
    · rcases Poller.loop_settle (l.get s).poller s.timers f.loop a with hloop | ⟨hloop, hstatus⟩
      · exact .inl (h.passed hloop g hg)
      · rw [hloop, hstatus]
        exact h.flights g hg
  · -- the loop has ended, and the job is still running until the result was applied
    obtain ⟨b, -, -, -, hloop, -, -, hq⟩ := Poller.of_settle_apply happly
    have hlt : ∀ g ∈ fs, g.loop < (l.get s).poller.loop + 1 := h.passed rfl
    rw [hq] at htidy
    rw [he, hq]
    refine mirrors_finish hl hx ?_ ?_ ?_ ?_ r c <;> rw [get_put hl]
    · exact ⟨htidy, h.error, fun g hg => .inl (hlt g hg)⟩
    · exact hrunning hloop
    · rfl
    · exact hlt

/-- An answer leaves the track of the other lane. -/
theorem get_take_other (hl' : l'.Lawful) (ha : l'.Apart l) (hx : l.Clears l') (s : Session)
    (loop : Nat) (task : Doc) (a : Option JobAnswer) :
    l'.get (l.take s loop task a).1 = l'.get s := by
  have ho : l.Outside l'.get := .track hl' ha
  rcases ho.take s loop task a with ⟨he, -⟩ | ⟨b, n, s₁, -, -, -, -, happly, he⟩
  · exact he
  · rw [he, hx.other happly, ho.put]

end Session.Lane

/-! ## Courses -/

namespace Session

/-- The error that the poller of a kind keeps. -/
def failure? (s : Session) : JobKind → Option Problem
  | .compile => s.compiling.poller.error
  | .symexec => s.executing.poller.error

end Session

namespace Course

open Session Session.Lane

/-- Both tracks of a session show what their pollers keep. -/
structure Mirrored (s : Session) (fs : List (Timer × Doc)) : Prop where
  compiling : s.compiling.Mirrors (flightsOf .compile fs)
  executing : s.executing.Mirrors (flightsOf .symexec fs)

namespace Mirrored

variable {s : Session} {fs : List (Timer × Doc)} {c : Course}

theorem new {settings : Settings} (h : Session.new settings = .ok s) : Mirrored s [] := by
  obtain ⟨client, rfl⟩ := Session.of_new h
  exact ⟨.new .compile, .new .symexec⟩

theorem abandon (h : Mirrored s fs) (kind : JobKind) : Mirrored (s.abandon kind).1 fs := by
  cases kind with
  | compile =>
    have ho : compileLane.Outside symexecLane.get := .track lawful_symexecLane apart_symexecLane
    refine ⟨mirrors_abandon lawful_compileLane h.compiling, ?_⟩
    exact (congrArg (Track.Mirrors · _) (ho.abandon s)).mpr h.executing
  | symexec =>
    have ho : symexecLane.Outside compileLane.get := .track lawful_compileLane apart_compileLane
    refine ⟨?_, mirrors_abandon lawful_symexecLane h.executing⟩
    exact (congrArg (Track.Mirrors · _) (ho.abandon s)).mpr h.compiling

theorem begin (h : Mirrored c.session fs) (task : String) (job : Submission) :
    Mirrored (c.begin task job).session fs := by
  cases job with
  | compile source =>
    have ho : compileLane.Outside symexecLane.get := .track lawful_symexecLane apart_symexecLane
    refine ⟨mirrors_begin lawful_compileLane h.compiling task source, ?_⟩
    exact (congrArg (Track.Mirrors · _) (ho.begin c.session task source)).mpr h.executing
  | symexec ticket target =>
    have ho : symexecLane.Outside compileLane.get := .track lawful_compileLane apart_compileLane
    refine ⟨?_, mirrors_begin lawful_symexecLane h.executing task target⟩
    exact (congrArg (Track.Mirrors · _) (ho.begin c.session task target)).mpr h.compiling

/-- A timer's poll. -/
theorem poll (h : Mirrored s fs) {t : Timer} {task : Doc} (ha : s.asked? t = some task) :
    Mirrored s (fs ++ [(t, task)]) := by
  rw [Session.asked?] at ha
  cases hk : t.kind with
  | compile =>
    rw [hk] at ha
    refine ⟨?_, ?_⟩
    · rw [flightsOf_concat, if_pos hk]
      exact h.compiling.ask ha
    · rw [flightsOf_concat, if_neg (by rw [hk]; decide), List.append_nil]
      exact h.executing
  | symexec =>
    rw [hk] at ha
    refine ⟨?_, ?_⟩
    · rw [flightsOf_concat, if_neg (by rw [hk]; decide), List.append_nil]
      exact h.compiling
    · rw [flightsOf_concat, if_pos hk]
      exact h.executing.ask ha

/-- An answer taken. -/
theorem take (h : Mirrored s fs) {t : Timer} {task : Doc} (hf : (t, task) ∈ fs)
    (a : Option JobAnswer) : Mirrored (s.take t task a).1 fs := by
  rw [Session.take]
  cases hk : t.kind with
  | compile =>
    have ho := get_take_other lawful_symexecLane apart_symexecLane clears_compileLane s t.loop task a
    refine ⟨mirrors_take lawful_compileLane clears_compileLane h.compiling (mem_flightsOf hf hk) a,
      ?_⟩
    exact (congrArg (Track.Mirrors · _) ho).mpr h.executing
  | symexec =>
    have ho := get_take_other lawful_compileLane apart_compileLane clears_symexecLane s t.loop task a
    refine ⟨?_,
      mirrors_take lawful_symexecLane clears_symexecLane h.executing (mem_flightsOf hf hk) a⟩
    exact (congrArg (Track.Mirrors · _) ho).mpr h.compiling

theorem eraseIdx (h : Mirrored s fs) (j : Nat) : Mirrored s (fs.eraseIdx j) :=
  ⟨h.compiling.of_flights fun _ => of_mem_flightsOf_eraseIdx,
    h.executing.of_flights fun _ => of_mem_flightsOf_eraseIdx⟩

/-- Every event leaves what is shown in agreement with the pollers. -/
theorem step (h : Mirrored c.session c.flights) (e : Event) :
    Mirrored (c.step e).session (c.step e).flights := by
  cases e with
  | compile source => exact h.abandon .compile
  | symexec contract source =>
    rw [Course.step]
    cases c.session.plan contract source with
    | error e => exact h
    | ok planned => exact h.abandon .symexec
  | reply j task =>
    rw [Course.step]
    cases c.pending[j]? with
    | none => exact h
    | some job =>
      cases task with
      | none => exact h
      | some task =>
        cases job with
        | compile source => exact h.begin task (.compile source)
        | symexec ticket target => exact h.begin task (.symexec ticket target)
  | fire i =>
    rw [Course.step]
    cases c.session.timers[i]? with
    | none => exact h
    | some t =>
      cases ha : c.session.asked? t with
      | none => simpa only [ha] using h
      | some task =>
        simp only [ha]
        exact h.poll ha
  | answer j a =>
    rw [Course.step]
    cases hf : c.flights[j]? with
    | none => exact h
    | some p => exact (h.take (List.mem_of_getElem? hf) a).eraseIdx j
  | broken j => exact h.eraseIdx j
  | close => exact (h.abandon .compile).abandon .symexec

/-- **Every run leaves what is shown in agreement with the pollers.** -/
theorem run (h : Mirrored c.session c.flights) (es : List Event) :
    Mirrored (c.run es).session (c.run es).flights := by
  induction es generalizing c with
  | nil => exact h
  | cons e es ih => exact ih (h.step e)

end Mirrored

/--
**The errors of a session mirror its pollers.** After any run of a session — jobs asked for, taken
or not, superseded and given up, polls answered in any order — the error that is shown for a kind of
job is the one that its poller keeps, and there is one exactly if the poller says that its job has
failed.
-/
theorem errors_mirror_pollers {settings : Settings} {s : Session} {es : List Event} {c : Course}
    (h : Session.new settings = .ok s) (hc : (Course.new s).run es = c) (kind : JobKind) :
    c.session.error? kind = c.session.failure? kind ∧
      (c.session.error? kind ≠ none ↔ c.session.status kind = .failed) := by
  have hm : Mirrored c.session c.flights := by
    have hnew : Mirrored (Course.new s).session (Course.new s).flights := .new h
    exact hc ▸ hnew.run es
  cases kind with
  | compile => exact ⟨hm.compiling.error, hm.compiling.error_ne_none_iff⟩
  | symexec => exact ⟨hm.executing.error, hm.executing.error_ne_none_iff⟩

/-- A compilation that failed, a symbolic execution that is refused, and another compilation that is
not taken. -/
def smallFailure : List Event :=
  [.compile "abc", .reply 0 (some "first"), .fire 0,
    .answer 0 (some (.known (.text "FAILURE") .null)), .symexec "C" none, .compile "abcd",
    .reply 0 none]

/-- The error of a failed job is still shown when the next job is not taken. -/
theorem errors_mirror_pollers_not_taken :
    ((Course.new smallSession).run smallFailure).session.error? .compile =
        some (.jobFailed .compile (.text "first")) ∧
      ((Course.new smallSession).run smallFailure).session.error? .compile ≠ none := by
  have hnew : Session.new {} = .ok smallSession := by with_unfolding_all rfl
  have hrun : (Course.new smallSession).run smallFailure = .run (.new smallSession) smallFailure := rfl
  obtain ⟨herror, hstatus⟩ := errors_mirror_pollers hnew hrun .compile
  exact ⟨herror.trans (by with_unfolding_all rfl), hstatus.mpr (by with_unfolding_all rfl)⟩

end Course

end AsmLens
