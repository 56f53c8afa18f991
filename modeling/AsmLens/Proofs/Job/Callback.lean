import AsmLens.Proofs.Job.Rehearsal

/-!
# Callbacks that start jobs

Whoever is told of an outcome may start and cancel jobs of the same poller before returning, and
the handling of the outcome then goes on with a poller that belongs to another loop. A job started
by a callback is left alone with one exception: a callback on a result that starts a job and then
ends with an error has the error put to the account of the job it started.

* `Poller.Listener` — callbacks, which may look at everything and do anything to the poller
* `Poller.Listener.handle` — an answer handled with its callbacks
* `Rehearsal.World.settle_eq_handle` — a rehearsal handles its answers so
* `Poller.Listener.started_in_callback` — what becomes of a job that a callback started
-/

namespace AsmLens

namespace Poller

variable {κ : Type}

/-- What a callback asks of the poller. -/
inductive Call (κ : Type)
  | start (task : Doc) (context : Option κ)
  | cancel

/-- The poller and the timers after a call. -/
def call (s : Poller κ × Timers) : Call κ → Poller κ × Timers
  | .start task context => s.1.start s.2 task context
  | .cancel => s.1.cancel s.2

/-- The poller and the timers after calls, one after another. -/
def callAll (s : Poller κ × Timers) (cs : List (Call κ)) : Poller κ × Timers := cs.foldl call s

/-- What a callback does: the calls that it makes, and how it ends. -/
structure Reaction (κ : Type) where
  calls : List (Call κ)
  ending : Result Unit

/--
Who is told of outcomes. What a callback does may depend on all that it can see, also on the
poller.
-/
structure Listener (κ : Type) where
  /-- The callback on a result, which gets the context of the job's start. -/
  onSuccess : Option (Doc → Option κ → Poller κ × Timers → Reaction κ)
  /-- The callback on a failure. -/
  onFailure : Option (Problem → Poller κ × Timers → Reaction κ)

/-- An answer handled: how the poller stands then, and what the callbacks did. -/
structure Handled (κ : Type) where
  state : Poller κ × Timers
  /-- What was done with a result. -/
  applied : Option (Reaction κ) := none
  /-- The failure of the job, or of applying its result. -/
  failure : Option Problem := none
  /-- What was done about the failure. -/
  told : Option (Reaction κ) := none

/-- How the handling ended: an error of the callback on a failure goes on to the caller. -/
def Handled.ending (h : Handled κ) : Result Unit := (h.told.map Reaction.ending).getD (.ok ())

namespace Listener

/-- What follows an answer or an outcome, other than applying a result. -/
def follow (l : Listener κ) (s : Poller κ × Timers) (applied : Option (Reaction κ)) :
    Next κ → Handled κ
  | .tell e =>
    let told := l.onFailure.map fun f => f e s
    { state := callAll s ((told.map Reaction.calls).getD []), applied, failure := some e, told }
  | _ => { state := s, applied }

/-- A result handed out. -/
def apply (l : Listener κ) (s : Poller κ × Timers) (result : Doc) (context : Option κ) :
    Handled κ :=
  let applied := l.onSuccess.map fun f => f result context s
  let after := callAll s ((applied.map Reaction.calls).getD [])
  let (p, next) :=
    after.1.conclude s.1.loop result ((applied.map Reaction.ending).getD (.ok ()))
  l.follow (p, after.2) applied next

/-- The answer to a poll of a loop handled, with all that the callbacks do. -/
def handle (l : Listener κ) (p : Poller κ) (ts : Timers) (loop : Nat)
    (answer : Option JobAnswer) : Handled κ :=
  let (s, next) := p.settle ts loop answer
  match next with
  | .apply result context => l.apply s result context
  | next => l.follow s none next

end Listener

/-! ## Calls -/

theorem callAll_append (s : Poller κ × Timers) (cs ds : List (Call κ)) :
    callAll s (cs ++ ds) = callAll (callAll s cs) ds :=
  List.foldl_append

/-- Every call gives the poller a new number. -/
theorem loop_call (s : Poller κ × Timers) (c : Call κ) : (call s c).1.loop = s.1.loop + 1 := by
  cases c <;> rfl

theorem loop_callAll (s : Poller κ × Timers) (cs : List (Call κ)) :
    (callAll s cs).1.loop = s.1.loop + cs.length := by
  induction cs generalizing s with
  | nil => rfl
  | cons c cs ih =>
    have h := ih (call s c)
    rw [loop_call] at h
    rw [List.length_cons, callAll, List.foldl_cons]
    exact h.trans (by omega)

theorem kind_callAll (s : Poller κ × Timers) (cs : List (Call κ)) :
    (callAll s cs).1.kind = s.1.kind := by
  induction cs generalizing s with
  | nil => rfl
  | cons c cs ih =>
    refine (ih (call s c)).trans ?_
    cases c <;> rfl

/-- Calls that end with a start leave the poller as the start does. -/
theorem callAll_of_getLast? {s : Poller κ × Timers} {cs : List (Call κ)} {task : Doc}
    {context : Option κ} (h : cs.getLast? = some (.start task context)) :
    ∃ (q : Poller κ) (us : Timers), callAll s cs = q.start us task context := by
  obtain ⟨ds, rfl⟩ := List.getLast?_eq_some_iff.mp h
  exact ⟨_, _, callAll_append s ds _⟩

/-! ## A job that runs and a job that was given up -/

/-- The poller runs a job as after its start, and polls it when its timer fires. -/
structure Runs (s : Poller κ × Timers) (t : Doc) (c : Option κ) : Prop where
  status : s.1.status = .running
  task : s.1.task = t
  context : s.1.context = c
  result : s.1.result = .null
  error : s.1.error = none
  timer : ∃ i u, s.1.timer = some i ∧ s.2[i]? = some u ∧ u.kind = s.1.kind ∧
    u.cancelled = false ∧ s.1.pollDue? u.loop = some t

/-- The poller shows an error on a job that it does not follow any more: nothing is ever polled. -/
structure Stopped (p : Poller κ) (t : Doc) (e : Problem) : Prop where
  status : p.status = .failed
  task : p.task = t
  result : p.result = .null
  error : p.error = some e
  polls : ∀ loop, p.pollDue? loop = none

/-- An error was told, and the poller shows it unless a job was started about it. -/
structure Blamed (h : Handled κ) (t : Doc) (e : Problem) : Prop where
  failure : h.failure = some e
  stopped : (∀ r, h.told = some r → ∀ c ∈ r.calls, c = .cancel) → Stopped h.state.1 t e

theorem runs_start (p : Poller κ) (ts : Timers) (task : Doc) (context : Option κ) :
    Runs (p.start ts task context) task context := by
  refine ⟨rfl, rfl, rfl, rfl, rfl, (p.dropTimer ts).length, ?_⟩
  refine ⟨⟨p.base, p.kind, p.loop + 1, false⟩, rfl, ?_, rfl, rfl, ?_⟩
  · exact List.getElem?_concat_length
  · exact if_pos ⟨rfl, rfl⟩

theorem runs_callAll {s : Poller κ × Timers} {cs : List (Call κ)} {task : Doc}
    {context : Option κ} (h : cs.getLast? = some (.start task context)) :
    Runs (callAll s cs) task context := by
  obtain ⟨q, us, he⟩ := callAll_of_getLast? (s := s) h
  rw [he]
  exact runs_start q us task context

/-- An error put to the account of a running job stops it. -/
theorem Runs.fail {s : Poller κ × Timers} {task : Doc} {context : Option κ}
    (h : Runs s task context) (e : Problem) : Stopped (s.1.fail e) task e := by
  refine ⟨rfl, h.task, h.result, rfl, fun loop => if_neg ?_⟩
  rintro ⟨-, hs⟩
  exact nomatch (show JobStatus.failed = .running from hs)

theorem Stopped.cancel {p : Poller κ} {task : Doc} {e : Problem} (h : Stopped p task e)
    (ts : Timers) : Stopped (p.cancel ts).1 task e := by
  have hs : (p.cancel ts).1.status = .failed := by
    rw [Poller.cancel, if_neg (by rw [h.status]; decide), h.status]
  refine ⟨hs, h.task, h.result, h.error, fun loop => if_neg ?_⟩
  rintro ⟨-, hr⟩
  exact nomatch hs.symm.trans hr

theorem Stopped.callAll {s : Poller κ × Timers} {task : Doc} {e : Problem}
    (h : Stopped s.1 task e) {cs : List (Call κ)} (hc : ∀ c ∈ cs, c = .cancel) :
    Stopped (Poller.callAll s cs).1 task e := by
  induction cs generalizing s with
  | nil => exact h
  | cons c cs ih =>
    obtain rfl := hc c List.mem_cons_self
    exact ih (h.cancel s.2) fun d hd => hc d (List.mem_cons_of_mem _ hd)

/-! ## Handling an answer -/

namespace Listener

variable {l : Listener κ} {s : Poller κ × Timers}

theorem follow_applied (l : Listener κ) (s : Poller κ × Timers) (a : Option (Reaction κ))
    (next : Next κ) : (l.follow s a next).applied = a := by
  cases next <;> rfl

/-- A job that is started about a failure runs. -/
theorem follow_told {a : Option (Reaction κ)} {next : Next κ} {r : Reaction κ} {task : Doc}
    {context : Option κ} (hr : (l.follow s a next).told = some r)
    (hc : r.calls.getLast? = some (.start task context)) :
    Runs (l.follow s a next).state task context := by
  cases next with
  | done => exact nomatch hr
  | apply _ _ => exact nomatch hr
  | tell e =>
    have hr : (l.onFailure.map fun f => f e s) = some r := hr
    rw [follow, hr]
    exact runs_callAll hc

theorem follow_tell {a : Option (Reaction κ)} {task : Doc} {e : Problem}
    (h : Stopped s.1 task e) : Blamed (l.follow s a (.tell e)) task e := by
  refine ⟨rfl, fun hc => ?_⟩
  rw [follow]
  cases ht : l.onFailure with
  | none => exact h
  | some f =>
    refine h.callAll (hc (f e s) ?_)
    rw [follow, ht]
    rfl

/-- What becomes of a job that was started when a result was applied. -/
theorem apply_applied {result : Doc} {given : Option κ} {r : Reaction κ} {task : Doc}
    {context : Option κ} (hr : (l.apply s result given).applied = some r)
    (hc : r.calls.getLast? = some (.start task context)) :
    (r.ending = .ok () → Runs (l.apply s result given).state task context) ∧
    (∀ e, r.ending = .error (.problem e) → Blamed (l.apply s result given) task e) ∧
    (∀ f, r.ending = .error (.fault f) →
      Blamed (l.apply s result given) task (.resultNotApplied s.1.kind task f)) := by
  have hr : (l.onSuccess.map fun f => f result given s) = some r :=
    (follow_applied l _ _ _).symm.trans hr
  have hruns : Runs (Poller.callAll s r.calls) task context := runs_callAll hc
  -- the callback made a call, and so the poller has another number than before
  have hloop : (Poller.callAll s r.calls).1.loop ≠ s.1.loop := by
    obtain ⟨ds, hds⟩ := List.getLast?_eq_some_iff.mp hc
    rw [loop_callAll, hds, List.length_append, List.length_singleton]
    omega
  simp only [apply, hr, Option.map_some, Option.getD_some]
  refine ⟨fun he => ?_, fun e he => ?_, fun f he => ?_⟩ <;> rw [he, conclude]
  · rw [if_pos hloop]
    exact hruns
  · exact follow_tell (hruns.fail e)
  · rw [kind_callAll, hruns.task]
    exact follow_tell (hruns.fail _)

/--
**A job started by a callback runs on, unless the callback on a result then ends with an error.**
Whatever the poller and the answer, and whatever the callbacks do before: if the last call of the
callback on a result, which then returns, is a start, or if that of the callback on a failure is,
returning or not, then the poller runs this job, shows neither result nor error, and polls it when
its timer fires. If the callback on a result ends with an error after its start, then the error is
told and, unless another job is started about it, shown on the job that was started, which is
never polled.
-/
theorem started_in_callback (l : Listener κ) (p : Poller κ) (ts : Timers) (loop : Nat)
    (answer : Option JobAnswer) (r : Reaction κ) (task : Doc) (context : Option κ)
    (hc : r.calls.getLast? = some (.start task context)) :
    ((l.handle p ts loop answer).told = some r →
      Runs (l.handle p ts loop answer).state task context) ∧
    ((l.handle p ts loop answer).applied = some r →
      (r.ending = .ok () → Runs (l.handle p ts loop answer).state task context) ∧
      (∀ e, r.ending = .error (.problem e) → Blamed (l.handle p ts loop answer) task e) ∧
      (∀ f, r.ending = .error (.fault f) →
        Blamed (l.handle p ts loop answer) task (.resultNotApplied p.kind task f))) := by
  have hk := kind_settle p ts loop answer
  unfold handle
  cases hs : p.settle ts loop answer with
  | mk s next =>
    rw [hs] at hk
    rw [← hk]
    dsimp only
    cases next with
    | done => exact ⟨fun h => (nomatch h), fun h => (nomatch h)⟩
    | tell e => exact ⟨fun h => follow_told h hc, fun h => (nomatch h)⟩
    | apply result given => exact ⟨fun h => follow_told h hc, fun h => apply_applied h hc⟩

/-- A callback that starts a second job when the result of the first comes, and then fails. -/
def restarting (ending : Result Unit) : Listener String where
  onSuccess := some fun _ _ _ => ⟨[.cancel, .start (.text "b") (some "y")], ending⟩
  onFailure := none

/-- A callback that starts a second job when the first fails, and then fails itself. -/
def retrying : Listener String where
  onSuccess := none
  onFailure := some fun _ _ => ⟨[.start (.text "b") (some "y")], .error (.fault .noTimer)⟩

/-- The poller of the first job. -/
def first : Poller String × Timers :=
  (Poller.new .compile none none : Poller String).start [] (.text "a") (some "x")

/-- The answer that the first job ended well. -/
def succeeded : JobAnswer := .known (.text "SUCCESS") (.text "r")

/-- The answer that the first job failed. -/
def failed : JobAnswer := .known (.text "FAILURE") .null

theorem started_in_callback_restarting :
    Runs ((restarting (.ok ())).handle first.1 first.2 1 (some succeeded)).state (.text "b")
      (some "y") ∧
    Stopped ((restarting (.error (.fault .noTimer))).handle first.1 first.2 1
      (some succeeded)).state.1 (.text "b") (.resultNotApplied .compile (.text "b") .noTimer) ∧
    Runs (retrying.handle first.1 first.2 1 (some failed)).state (.text "b") (some "y") := by
  have hruns := (started_in_callback (restarting (.ok ())) first.1 first.2 1 (some succeeded)
    ⟨[.cancel, .start (.text "b") (some "y")], .ok ()⟩ (.text "b") (some "y") rfl).2 rfl
  have hstops := (started_in_callback (restarting (.error (.fault .noTimer))) first.1 first.2 1
    (some succeeded) ⟨[.cancel, .start (.text "b") (some "y")], .error (.fault .noTimer)⟩
    (.text "b") (some "y") rfl).2 rfl
  have hretries := (started_in_callback retrying first.1 first.2 1 (some failed)
    ⟨[.start (.text "b") (some "y")], .error (.fault .noTimer)⟩ (.text "b") (some "y") rfl).1 rfl
  exact ⟨hruns.1 rfl, (hstops.2.2 _ rfl).stopped fun r hr => (nomatch hr), hretries⟩

end Listener

end Poller

/-! ## Rehearsals -/

namespace Rehearsal

open Poller (Call Listener callAll)

/-- The calls that an action consists of. -/
def Action.calls (a : Action) : List (Call Doc) :=
  (a.start.map fun s => Call.start s.1 (some s.2)).toList ++ if a.cancel then [.cancel] else []

/-- What a script does with a result. -/
def Script.reaction (s : Script) (p : Poller Doc) : Poller.Reaction Doc :=
  ⟨(s.onResult p.task).action.calls, (s.onResult p.task).ending⟩

/-- The callbacks that a script stands for. -/
def Script.listener (s : Script) : Listener Doc where
  onSuccess := if s.listens then some fun _ _ p => s.reaction p.1 else none
  onFailure :=
    if s.listens then
      some fun _ _ => ⟨(s.onFailure.map fun t => Call.start t (some .null)).toList, s.failureEnding⟩
    else none

namespace World

variable (w : World)

/-- The poller with its timers. -/
def state : Poller Doc × Timers := (w.poller, w.timers)

theorem state_act (a : Action) : (w.act a).state = callAll w.state a.calls := by
  obtain ⟨_ | ⟨task, context⟩, _ | _⟩ := a <;> rfl

theorem script_act (a : Action) : (w.act a).script = w.script := by
  obtain ⟨_ | ⟨task, context⟩, _ | _⟩ := a <;> rfl

/-- What follows an answer or an outcome, other than applying a result. -/
theorem follow_eq (a : Option (Poller.Reaction Doc)) (next : Poller.Next Doc) :
    (w.follow next).1.state = (w.script.listener.follow w.state a next).state ∧
      (w.follow next).2 = (w.script.listener.follow w.state a next).ending := by
  cases next with
  | done => exact ⟨rfl, rfl⟩
  | apply r c => exact ⟨rfl, rfl⟩
  | tell e =>
    cases hl : w.script.listens with
    | false =>
      simp only [World.follow, World.tell, Listener.follow, Script.listener, hl]
      exact ⟨rfl, rfl⟩
    | true =>
      simp only [World.follow, World.tell, Listener.follow, Script.listener, hl]
      cases hf : w.script.onFailure with
      | none =>
        simp only [World.record, hf]
        exact ⟨rfl, rfl⟩
      | some task =>
        simp only [World.record, hf]
        exact ⟨rfl, rfl⟩

/-- The outcome of applying a result. -/
theorem conclude_eq {v : World} (hs : v.script = w.script) (finished : Nat) (r : Doc)
    (o : Result Unit) (a : Option (Poller.Reaction Doc)) :
    (World.follow { v with poller := (v.poller.conclude finished r o).1 }
        (v.poller.conclude finished r o).2).1.state =
      (w.script.listener.follow ((v.state.1.conclude finished r o).1, v.state.2) a
        (v.state.1.conclude finished r o).2).state ∧
    (World.follow { v with poller := (v.poller.conclude finished r o).1 }
        (v.poller.conclude finished r o).2).2 =
      (w.script.listener.follow ((v.state.1.conclude finished r o).1, v.state.2) a
        (v.state.1.conclude finished r o).2).ending := by
  rw [← hs]
  exact follow_eq _ a _

theorem apply_eq (r : Doc) (c : Option Doc) :
    (w.apply r c).1.state = (w.script.listener.apply w.state r c).state ∧
      (w.apply r c).2 = (w.script.listener.apply w.state r c).ending := by
  cases hl : w.script.listens with
  | false =>
    have hn : w.script.listener.onSuccess = none := by rw [Script.listener, hl]; rfl
    have h := w.conclude_eq rfl w.poller.loop r (.ok ()) none
    rw [World.apply, Listener.apply, hn, hl]
    exact h
  | true =>
    have hn : w.script.listener.onSuccess = some fun _ _ p => w.script.reaction p.1 := by
      rw [Script.listener, hl]; rfl
    have h := w.conclude_eq
      (script_act (w.record (.result r (c.getD .null))) (w.script.onResult w.poller.task).action)
      w.poller.loop r (w.script.reaction w.poller).ending (some (w.script.reaction w.poller))
    rw [state_act] at h
    rw [World.apply, Listener.apply, hn, hl]
    exact h

/--
**A rehearsal handles an answer with the callbacks of its script**, and so every timer's poll: the
answer is taken when it comes, wherever the poller stands by then.
-/
theorem settle_eq_handle (loop : Nat) (answer : Option JobAnswer) :
    (w.settle loop answer).1.state =
        (w.script.listener.handle w.poller w.timers loop answer).state ∧
      (w.settle loop answer).2 =
        (w.script.listener.handle w.poller w.timers loop answer).ending := by
  unfold World.settle Listener.handle
  cases w.poller.settle w.timers loop answer with
  | mk s next =>
    cases next with
    | done => exact (w.put s).follow_eq none .done
    | tell e => exact (w.put s).follow_eq none (.tell e)
    | apply r c => exact (w.put s).apply_eq r c

end World

end Rehearsal

end AsmLens
