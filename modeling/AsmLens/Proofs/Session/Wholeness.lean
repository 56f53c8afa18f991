import AsmLens.Proofs.Session.Installation

/-!
# Results are taken in full or not at all

The result of a job is written into a session part by part. It fails, if at all, before the first
part is written. So after an answer either the job has succeeded and all parts are written, or what
the session shows is as it was before.

* `Lane.perform_of_error` — a result that cannot be applied writes nothing
* `Lane.take_whole` — what an answer does to a lane and to what is outside of it
* `Session.Applied` — a session with the result of a job in full
* `Session.result_whole` — the main result
-/

namespace AsmLens.Session

namespace Lane

variable {κ α : Type} {l : Lane κ} {f : Session → α} {s s₁ : Session} {r : Doc} {c : Option κ}

theorem perform_of_error {e : Failure} (h : ((l.perform r c).run s).2.outcome = .error e) :
    ((l.perform r c).run s).1 = s := by
  rw [l.perform_eq, Traced.settle] at h ⊢
  cases ho : (l.apply s r c).outcome with
  | error e => rfl
  | ok s₁ =>
    simp only [ho] at h
    exact nomatch h

/-- A job whose result cannot be applied has failed. -/
theorem finish_of_error {e : Failure} (hl : l.Lawful) (ho : l.Outside f)
    (h : ((l.perform r c).run s).2.outcome = .error e) :
    f (l.finish s r c).1 = f s ∧ (l.get (l.finish s r c).1).poller.status = .failed := by
  refine ⟨?_, ?_⟩
  · rw [finish, ho.follow, ho.set, perform_of_error h]
  · rw [finish, (follow_frame hl _ _).1, hl.get_set, h]
    cases e <;> rfl

/-- A job whose result was applied has succeeded. -/
theorem finish_of_ok (hl : l.Lawful) (ho : l.Outside f) (h : (l.apply s r c).outcome = .ok s₁) :
    f (l.finish s r c).1 = f s₁ ∧ (l.get (l.finish s r c).1).poller.status = .succeeded ∧
      (l.get (l.finish s r c).1).error = (l.get s₁).error := by
  have hconclude : (l.get s).poller.conclude (l.get s).poller.loop r (.ok ()) =
      ({ (l.get s).poller with result := r, status := .succeeded }, .done) := by
    simp [Poller.conclude]
  have hp := (finish_frame hl s r c).1
  refine ⟨?_, ?_, ?_⟩
  · rw [ho.finish, h]
    rfl
  · rw [hp, h]
    show ((l.get s).poller.conclude _ _ (.ok ())).1.status = _
    rw [hconclude]
  · rw [finish_eq]
    dsimp only
    rw [h]
    show (l.get (l.follow (l.set s₁ _) ((l.get s).poller.conclude _ _ (.ok ())).2)).error = _
    rw [hconclude]
    show (l.get (l.set s₁ _)).error = _
    rw [hl.get_set]
    rfl

/-- **An answer is taken in full or not at all**: its result is applied and the job has succeeded,
or nothing outside of the lane changes and the job has not succeeded by it. -/
theorem take_whole (hl : l.Lawful) (ho : l.Outside f) (s : Session) (loop : Nat) (task : Doc)
    (a : Option JobAnswer) :
    (∃ b n s₁, a = some b ∧ b.notFound = false ∧ b.isSuccess = true ∧
      loop = (l.get s).poller.loop ∧
      (l.apply (l.put s n) b.result (l.get s).poller.context).outcome = .ok s₁ ∧
      f (l.take s loop task a).1 = f s₁ ∧
      (l.get (l.take s loop task a).1).poller.status = .succeeded ∧
      (l.get (l.take s loop task a).1).error = (l.get s₁).error) ∨
    f (l.take s loop task a).1 = f s ∧
      ((l.get (l.take s loop task a).1).poller.status = .succeeded →
        (l.get s).poller.status = .succeeded) ∧
      ∀ b, a = some b → b.notFound = false → b.isSuccess = true → loop = (l.get s).poller.loop →
        (l.get (l.take s loop task a).1).poller.status = .failed := by
  rcases take_outcomes l s loop task a with ⟨hne, he⟩ | ⟨b, n, rfl, hn, hs, hloop, he⟩
  · refine .inr ⟨by rw [he, ho.follow, ho.put], ?_, ?_⟩
    · rw [he, (follow_frame hl _ _).1, get_put hl]
      -- the loop is over, the job is pending, is not found, or has failed
      rcases Poller.settle_outcomes (l.get s).poller s.timers loop a with ⟨-, hq⟩ |
        ⟨-, ⟨-, hq⟩ | ⟨b, -, -, ⟨-, hq⟩ | ⟨-, e, hq⟩ | ⟨-, -, hq⟩⟩⟩
      · rw [hq]
        exact id
      · rw [hq]
        exact id
      · rw [hq]
        exact nofun
      · rw [hq]
        exact nofun
      · rw [hq] at hne
        exact absurd rfl (hne _ _)
    · rintro b rfl hn hs hloop
      obtain ⟨q, hq, -⟩ := Poller.settle_success (l.get s).poller s.timers hloop hn hs
      exact absurd (congrArg Prod.snd hq) (hne _ _)
  · rw [he]
    cases hout : (l.apply (l.put s n) b.result (l.get s).poller.context).outcome with
    | ok s₁ =>
      obtain ⟨hf, hstatus, herror⟩ := finish_of_ok hl ho hout
      exact .inl ⟨b, n, s₁, rfl, hn, hs, hloop, hout, hf, hstatus, herror⟩
    | error e =>
      have hperform : ((l.perform b.result (l.get s).poller.context).run
          (l.put s n)).2.outcome = .error e := by
        rw [l.perform_eq, Traced.settle, hout]
        rfl
      obtain ⟨hf, hstatus⟩ := finish_of_error hl ho hperform
      refine .inr ⟨hf.trans (ho.put s n), ?_, fun _ _ _ _ _ => hstatus⟩
      rw [hstatus]
      exact nofun

end Lane

/-! ## Main result -/

/-- The loop of the poller of a kind. -/
def loop (s : Session) : JobKind → Nat
  | .compile => s.compiling.poller.loop
  | .symexec => s.executing.poller.loop

/-- How the last job of a kind stands. -/
def status (s : Session) : JobKind → JobStatus
  | .compile => s.compiling.poller.status
  | .symexec => s.executing.poller.status

/-- The error that is shown for a kind of job. -/
def error? (s : Session) : JobKind → Option Problem
  | .compile => s.compiling.error
  | .symexec => s.executing.error

/-- A session with the result of a job in full: a compilation is installed with its source and its
output, and the highlight is cleared; or gas is merged into the table that it was asked for, and
nothing else of what is shown changes. -/
inductive Applied (s : Session) (result : Doc) (s' : Session) : JobKind → Prop
  | installed {source output compilation} (context : s.compiling.poller.context = some source)
      (payload : compilerOutput result = .ok output)
      (built : Compilation.build source output s.store.nextGeneration = .ok compilation)
      (shown : s'.shown = (s.store.install compilation (some (sourceDigest source)), some source,
        some output, .none)) : Applied s result s' .compile
  | attached {target document ms store} (context : s.executing.poller.context = some target)
      (payload : Session.payload .symexec result = .ok document)
      (read : Measurements.read document = .ok ms)
      (merged : s.store.merge target.contract ms target.generation = .ok store)
      (shown : s'.shown = (store, s.source, s.compiled, s.highlight)) : Applied s result s' .symexec

/--
**The result of a job is taken in full or not at all.** Whatever state a session is in and whatever
the answer to a poll is: either the job ended well, the loop that asked is the one of the poller, the
result is applied in full, the job has succeeded and no error is shown; or the store, the source,
the compiler output and the highlight are as they were, and the job has not succeeded by the answer
— it has failed if the service says of the poller's own loop that the job ended well.
-/
theorem result_whole (s : Session) (t : Timer) (task : Doc) (a : Option JobAnswer) :
    (∃ b, a = some b ∧ b.notFound = false ∧ b.isSuccess = true ∧ t.loop = s.loop t.kind ∧
      Applied s b.result (s.take t task a).1 t.kind ∧
      (s.take t task a).1.status t.kind = .succeeded ∧
      (s.take t task a).1.error? t.kind = none) ∨
    (s.take t task a).1.shown = s.shown ∧
      ((s.take t task a).1.status t.kind = .succeeded → s.status t.kind = .succeeded) ∧
      ∀ b, a = some b → b.notFound = false → b.isSuccess = true → t.loop = s.loop t.kind →
        (s.take t task a).1.status t.kind = .failed := by
  rw [take]
  cases hk : t.kind with
  | compile =>
    rcases Lane.take_whole Lane.lawful_compileLane outside_compileLane s t.loop task a with
      ⟨b, n, s₁, rfl, hn, hs, hloop, happly, hshown, hstatus, herror⟩ | h
    · obtain ⟨output, source, store, ho, hx, hbuild, rfl⟩ := Lane.of_applyCompile happly
      rw [(Lane.Outside.store Lane.lawful_compileLane).put] at hbuild
      -- what was built is installed under the number that comes next
      obtain ⟨built, hbuilt, rfl⟩ := Store.build_eq_ok.mp hbuild
      exact .inl ⟨b, rfl, hn, hs, hloop, .installed hx ho hbuilt hshown, hstatus, herror⟩
    · exact .inr h
  | symexec =>
    rcases Lane.take_whole Lane.lawful_symexecLane outside_symexecLane s t.loop task a with
      ⟨b, n, s₁, rfl, hn, hs, hloop, happly, hshown, hstatus, herror⟩ | h
    · obtain ⟨document, ms, target, store, hd, hm, hx, hmerge, rfl⟩ := Lane.of_applySymexec happly
      rw [(Lane.Outside.store Lane.lawful_symexecLane).put] at hmerge
      have hrest := congrArg (fun x => (store, x.2)) (outside_symexecLane.put s n)
      exact .inl ⟨b, rfl, hn, hs, hloop, .attached hx hd hm hmerge (hshown.trans hrest), hstatus,
        herror⟩
    · exact .inr h

end AsmLens.Session
