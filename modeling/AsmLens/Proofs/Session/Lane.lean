import AsmLens.Proofs.Gas.Provenance
import AsmLens.Proofs.Job.Consistency
import AsmLens.Session.Basic

/-!
# The lanes of a session

A session deals with its two kinds of jobs along two lanes. A step of one lane drives the poller of
that lane as a poller by itself is driven, leaves the poller of the other lane, and changes the
store by nothing but its results.

* `Lane.Lawful`, `Lane.Apart` — what the two lanes are
* `Lane.Outside.take` — what an answer does to what is neither in the lane nor a timer
* `Lane.begin_frame`, `Lane.abandon_frame`, `Lane.take_frame` — what steps leave
* `Session.store_take` — what an answer does to the store
* `Lane.Consistent` — a lane whose poller is consistent with its history
* `Lane.Consistent.begin`, `abandon`, `asked`, `take` — the lane's own steps keep it so
* `Lane.Consistent.of_timersFrom` — and so do the steps of the other lane
-/

namespace AsmLens.Session

/-- A session begins with nothing installed and nothing running. -/
theorem of_new {settings : Settings} {s : Session} (h : Session.new settings = .ok s) :
    ∃ client, s = ⟨settings, client, ∅, .none, none, none, .new .compile, .new .symexec, []⟩ := by
  unfold Session.new at h
  cases hc : Client.new settings.service with
  | error f => rw [hc] at h; exact nomatch h
  | ok client =>
    rw [hc] at h
    exact ⟨client, (Except.ok.inj h).symm⟩

namespace Lane

variable {κ μ : Type}

/-- Setting a track changes the track and nothing else, and applying a result leaves its poller. -/
structure Lawful (l : Lane κ) : Prop where
  get_set : ∀ s t, l.get (l.set s t) = t
  set_timers : ∀ s t, (l.set s t).timers = s.timers
  set_store : ∀ s t, (l.set s t).store = s.store
  get_timers : ∀ s ts, l.get { s with timers := ts } = l.get s
  apply_poller : ∀ {s r c s'}, (l.apply s r c).outcome = .ok s' →
    (l.get s').poller = (l.get s).poller ∧ s'.timers = s.timers

/-- The steps of the second lane leave the poller of the first. -/
structure Apart (l : Lane κ) (l' : Lane μ) : Prop where
  get_set : ∀ s t, l.get (l'.set s t) = l.get s
  apply_poller : ∀ {s r c s'}, (l'.apply s r c).outcome = .ok s' →
    (l.get s').poller = (l.get s).poller

theorem of_applyCompile {s s' : Session} {r : Doc} {source : Option String}
    (h : (applyCompile s r source).outcome = .ok s') :
    ∃ output text store, compilerOutput r = .ok output ∧ source = some text ∧
      (s.store.runBuild text output).outcome = .ok store ∧
      s' = { s with
        store, highlight := .none, source := some text, compiled := some output
        compiling := { s.compiling with error := none } } := by
  obtain ⟨output, ho, h⟩ := Traced.outcome_bind_eq_ok.mp h
  cases source with
  | none => exact nomatch h
  | some text =>
    obtain ⟨store, hs, h⟩ := Traced.outcome_bind_eq_ok.mp h
    obtain ⟨_, -, h⟩ := Traced.outcome_bind_eq_ok.mp h
    exact ⟨output, text, store, Traced.outcome_lift_eq_ok.mp ho, rfl, hs, (Except.ok.inj h).symm⟩

theorem of_applySymexec {s s' : Session} {r : Doc} {target : Option SymexecTarget}
    (h : (applySymexec s r target).outcome = .ok s') :
    ∃ document ms t store, payload .symexec r = .ok document ∧ Measurements.read document = .ok ms ∧
      target = some t ∧ (s.store.runMerge t.contract ms t.generation).outcome = .ok store ∧
      s' = { s with store, executing := { s.executing with error := none } } := by
  obtain ⟨document, hd, h⟩ := Traced.outcome_bind_eq_ok.mp h
  cases target with
  | none => exact nomatch h
  | some t =>
    obtain ⟨ms, hm, h⟩ := Traced.outcome_bind_eq_ok.mp h
    obtain ⟨ms', hr, hm⟩ := Traced.outcome_bind_eq_ok.mp hm
    obtain ⟨_, -, hm⟩ := Traced.outcome_bind_eq_ok.mp hm
    obtain rfl := Except.ok.inj hm
    obtain ⟨store, hs, h⟩ := Traced.outcome_bind_eq_ok.mp h
    exact ⟨document, ms', t, store, Traced.outcome_lift_eq_ok.mp hd, hr, rfl, hs,
      (Except.ok.inj h).symm⟩

theorem lawful_compileLane : compileLane.Lawful where
  get_set _ _ := rfl
  set_timers _ _ := rfl
  set_store _ _ := rfl
  get_timers _ _ := rfl
  apply_poller h := by
    obtain ⟨_, _, _, -, -, -, rfl⟩ := of_applyCompile h
    exact ⟨rfl, rfl⟩

theorem lawful_symexecLane : symexecLane.Lawful where
  get_set _ _ := rfl
  set_timers _ _ := rfl
  set_store _ _ := rfl
  get_timers _ _ := rfl
  apply_poller h := by
    obtain ⟨_, _, _, _, -, -, -, -, rfl⟩ := of_applySymexec h
    exact ⟨rfl, rfl⟩

theorem apart_compileLane : compileLane.Apart symexecLane where
  get_set _ _ := rfl
  apply_poller h := by
    obtain ⟨_, _, _, _, -, -, -, -, rfl⟩ := of_applySymexec h
    rfl

theorem apart_symexecLane : symexecLane.Apart compileLane where
  get_set _ _ := rfl
  apply_poller h := by
    obtain ⟨_, _, _, -, -, -, rfl⟩ := of_applyCompile h
    rfl

/-! ## What a step does -/

section

variable {l : Lane κ} {l' : Lane μ} {s : Session}

theorem get_put (hl : l.Lawful) (s : Session) (n : Poller κ × Timers) :
    l.get (l.put s n) = { l.get s with poller := n.1 } := by
  rw [put, hl.get_timers, hl.get_set]

theorem get_put_apart (hl' : l'.Lawful) (ha : l'.Apart l) (s : Session) (n : Poller κ × Timers) :
    l'.get (l.put s n) = l'.get s := by
  rw [put, hl'.get_timers, ha.get_set]

/-- Showing a failure leaves all pollers and the timers. -/
theorem follow_frame (hl : l.Lawful) (s : Session) (n : Poller.Next κ) :
    (l.get (l.follow s n)).poller = (l.get s).poller ∧ (l.follow s n).timers = s.timers := by
  cases n with
  | done => exact ⟨rfl, rfl⟩
  | apply r c => exact ⟨rfl, rfl⟩
  | tell e => exact ⟨by rw [follow, hl.get_set], hl.set_timers _ _⟩

theorem get_follow_apart (ha : l'.Apart l) (s : Session) (n : Poller.Next κ) :
    l'.get (l.follow s n) = l'.get s := by
  cases n with
  | done => rfl
  | apply r c => rfl
  | tell e => exact ha.get_set _ _

/-- Applying a result: the poller takes the outcome. -/
theorem finish_frame (hl : l.Lawful) (s : Session) (r : Doc) (c : Option κ) :
    (l.get (l.finish s r c).1).poller = ((l.get s).poller.conclude (l.get s).poller.loop r
        ((l.apply s r c).outcome.map fun _ => ())).1 ∧
      (l.finish s r c).1.timers = s.timers := by
  have htimers : ((l.apply s r c).outcome.toOption.getD s).timers = s.timers := by
    cases ho : (l.apply s r c).outcome with
    | error e => rfl
    | ok s₁ => exact (hl.apply_poller ho).2
  rw [finish_eq]
  refine ⟨?_, ?_⟩
  · rw [(follow_frame hl _ _).1, hl.get_set]
  · rw [(follow_frame hl _ _).2, hl.set_timers, htimers]

theorem get_finish_apart (ha : l'.Apart l) (s : Session) (r : Doc) (c : Option κ) :
    (l'.get (l.finish s r c).1).poller = (l'.get s).poller := by
  rw [finish_eq, get_follow_apart ha, ha.get_set]
  cases ho : (l.apply s r c).outcome with
  | error e => rfl
  | ok s₁ => exact ha.apply_poller ho

/-- An answer either hands out no result, or its result is applied at once. -/
theorem take_cases (l : Lane κ) (s : Session) (loop : Nat) (task : Doc) (a : Option JobAnswer) :
    (∀ r c, ((l.get s).poller.settle s.timers loop a).2 ≠ .apply r c) ∧
        (l.take s loop task a).1 = l.follow (l.put s ((l.get s).poller.settle s.timers loop a).1)
          ((l.get s).poller.settle s.timers loop a).2 ∨
      ∃ r c, ((l.get s).poller.settle s.timers loop a).2 = .apply r c ∧
        (l.take s loop task a).1 =
          (l.finish (l.put s ((l.get s).poller.settle s.timers loop a).1) r c).1 := by
  rw [take]
  cases hs : (l.get s).poller.settle s.timers loop a with
  | mk state next =>
    cases next with
    | done => exact .inl ⟨fun _ _ h => (nomatch h), rfl⟩
    | tell e => exact .inl ⟨fun _ _ h => (nomatch h), rfl⟩
    | apply r c => exact .inr ⟨r, c, rfl, rfl⟩

/-- Only a job that ended well hands out its result. -/
theorem take_outcomes (l : Lane κ) (s : Session) (loop : Nat) (task : Doc) (a : Option JobAnswer) :
    (∀ r c, ((l.get s).poller.settle s.timers loop a).2 ≠ .apply r c) ∧
        (l.take s loop task a).1 = l.follow (l.put s ((l.get s).poller.settle s.timers loop a).1)
          ((l.get s).poller.settle s.timers loop a).2 ∨
      ∃ b n, a = some b ∧ b.notFound = false ∧ b.isSuccess = true ∧ loop = (l.get s).poller.loop ∧
        (l.take s loop task a).1 = (l.finish (l.put s n) b.result (l.get s).poller.context).1 := by
  rcases take_cases l s loop task a with h | ⟨r, c, ha, he⟩
  · exact .inl h
  · obtain ⟨b, rfl, hn, hs, hl, rfl, rfl, -⟩ := Poller.of_settle_apply ha
    exact .inr ⟨b, _, rfl, hn, hs, hl, he⟩

/-! ### What is outside of a lane -/

/-- That what is shown of a session is neither in the track of a lane nor in the timers. -/
structure Outside {α : Type} (l : Lane κ) (f : Session → α) : Prop where
  set : ∀ s t, f (l.set s t) = f s
  timers : ∀ s ts, f { s with timers := ts } = f s

namespace Outside

variable {α : Type} {f : Session → α}

theorem store (hl : l.Lawful) : l.Outside Session.store := ⟨hl.set_store, fun _ _ => rfl⟩

theorem put (ho : l.Outside f) (s : Session) (n : Poller κ × Timers) : f (l.put s n) = f s := by
  rw [Lane.put, ho.timers, ho.set]

theorem begin (ho : l.Outside f) (s : Session) (task : String) (context : κ) :
    f (l.begin s task context).1 = f s := by
  rw [Lane.begin, ho.put, ho.set]

theorem abandon (ho : l.Outside f) (s : Session) : f (l.abandon s).1 = f s :=
  ho.put s _

theorem follow (ho : l.Outside f) (s : Session) (n : Poller.Next κ) : f (l.follow s n) = f s := by
  cases n with
  | tell e => exact ho.set _ _
  | _ => rfl

theorem finish (ho : l.Outside f) (s : Session) (r : Doc) (c : Option κ) :
    f (l.finish s r c).1 = f ((l.apply s r c).outcome.toOption.getD s) := by
  rw [finish_eq, ho.follow, ho.set]

/-- An answer changes what is outside of its lane by nothing but the result of a job that ended
well, and such a result is applied if it can be. -/
theorem take (ho : l.Outside f) (s : Session) (loop : Nat) (task : Doc) (a : Option JobAnswer) :
    (f (l.take s loop task a).1 = f s ∧
      ∀ b, a = some b → b.notFound = false → b.isSuccess = true → loop = (l.get s).poller.loop →
        ∃ n e, (l.apply (l.put s n) b.result (l.get s).poller.context).outcome = .error e) ∨
    ∃ b n s₁, a = some b ∧ b.notFound = false ∧ b.isSuccess = true ∧
      loop = (l.get s).poller.loop ∧
      (l.apply (l.put s n) b.result (l.get s).poller.context).outcome = .ok s₁ ∧
      f (l.take s loop task a).1 = f s₁ := by
  rcases take_outcomes l s loop task a with ⟨hne, he⟩ | ⟨b, n, rfl, hn, hs, hl, he⟩
  · refine .inl ⟨?_, ?_⟩
    · rw [he, ho.follow, ho.put]
    · rintro b rfl hn hs hl
      obtain ⟨q, hq, -⟩ := Poller.settle_success (l.get s).poller s.timers hl hn hs
      exact absurd (congrArg Prod.snd hq) (hne _ _)
  · rw [he, ho.finish]
    cases hout : (l.apply (l.put s n) b.result (l.get s).poller.context).outcome with
    | error e =>
      refine .inl ⟨ho.put s n, ?_⟩
      rintro b' hb' - - -
      obtain rfl := Option.some.inj hb'
      exact ⟨n, e, hout⟩
    | ok s₁ => exact .inr ⟨b, n, s₁, rfl, hn, hs, hl, hout, rfl⟩

end Outside

/-! ## Histories -/

/-- A lane of a kind whose poller is consistent with its history. -/
structure Consistent (l : Lane κ) (kind : JobKind) (s : Session) (fs : List Flight)
    (h : List (Moment κ)) : Prop where
  kind : (l.get s).poller.kind = kind
  poller : (l.get s).poller.Consistent s.timers fs h

namespace Consistent

variable {kind : JobKind} {fs : List Flight} {h : List (Moment κ)} {h' : List (Moment μ)}

/-- A job followed. -/
theorem begin (hl : l.Lawful) (hc : Consistent l kind s fs h) (task : String) (context : κ) :
    Consistent l kind (l.begin s task context).1 fs
      (.started (l.get (l.begin s task context).1).poller.loop (.text task) (some context) ::
        h) := by
  have hget := get_put hl (l.set s { l.get s with error := none })
    (((l.get (l.set s { l.get s with error := none })).poller.start
      (l.set s { l.get s with error := none }).timers (.text task) (some context)))
  rw [hl.get_set, hl.set_timers] at hget
  have hs := hc.poller.start (.text task) (some context)
  refine ⟨?_, ?_⟩
  · rw [Lane.begin, hl.get_set, hl.set_timers, hget]
    exact hc.kind
  · rw [Lane.begin, hl.get_set, hl.set_timers, hget]
    exact hs

/-- The running job given up. -/
theorem abandon (hl : l.Lawful) (hc : Consistent l kind s fs h) :
    Consistent l kind (l.abandon s).1 fs (.cancelled :: h) := by
  refine ⟨?_, ?_⟩
  · rw [Lane.abandon, get_put hl]
    exact hc.kind
  · rw [Lane.abandon, get_put hl]
    exact hc.poller.cancel

/-- A timer's poll. -/
theorem asked (hc : Consistent l kind s fs h) {t : Timer} {task : Doc} (ht : t ∈ s.timers)
    (hk : t.kind = kind) (ha : l.asked? s t.loop = some task) :
    Consistent l kind s (fs ++ [⟨t.loop, task⟩]) (.polled ⟨t.loop, task⟩ :: h) :=
  ⟨hc.kind, hc.poller.poll ht (hk.trans hc.kind.symm) ha⟩

/-- An answer taken. -/
theorem take (hl : l.Lawful) (hc : Consistent l kind s fs h) {f : Flight} (hf : f ∈ fs)
    (a : Option JobAnswer) :
    Consistent l kind (l.take s f.loop f.task a).1 fs (.answered f a :: h) := by
  obtain ⟨hs, -⟩ := hc.poller.settle hf a
  have hk := Poller.kind_settle (l.get s).poller s.timers f.loop a
  rcases take_cases l s f.loop f.task a with ⟨-, he⟩ | ⟨r, c, -, he⟩
  · obtain ⟨hp, ht⟩ := follow_frame hl (l.put s ((l.get s).poller.settle s.timers f.loop a).1)
      ((l.get s).poller.settle s.timers f.loop a).2
    rw [get_put hl] at hp
    rw [he]
    refine ⟨?_, ?_⟩
    · rw [hp]
      exact hk.trans hc.kind
    · rw [hp, ht]
      exact hs
  · obtain ⟨hp, ht⟩ :=
      finish_frame hl (l.put s ((l.get s).poller.settle s.timers f.loop a).1) r c
    rw [get_put hl] at hp
    rw [he]
    refine ⟨?_, ?_⟩
    · rw [hp, Poller.kind_conclude]
      exact hk.trans hc.kind
    · rw [hp, ht]
      exact hs.conclude _ _ _

/-- A step that leaves the poller, and starts no timer of its kind. -/
theorem of_timersFrom (hc : Consistent l kind s fs h) {s' : Session} {other : JobKind} {loop : Nat}
    (hp : (l.get s').poller = (l.get s).poller)
    (ht : Poller.TimersFrom s.timers other loop s'.timers) (hk : other ≠ kind) :
    Consistent l kind s' fs h := by
  refine ⟨?_, ?_⟩
  · rw [hp]
    exact hc.kind
  · rw [hp]
    exact hc.poller.of_timers ht fun he => absurd (he.trans hc.kind) hk

theorem of_flights (hc : Consistent l kind s fs h) {gs : List Flight} (hg : ∀ f ∈ gs, f ∈ fs) :
    Consistent l kind s gs h :=
  ⟨hc.kind, hc.poller.of_flights fun f hf => hc.poller.flights f (hg f hf)⟩

end Consistent

/-! ### The other lane -/

theorem begin_frame (hl : l.Lawful) (hl' : l'.Lawful) (ha : l'.Apart l) (s : Session)
    (task : String) (context : κ) :
    (l'.get (l.begin s task context).1).poller = (l'.get s).poller ∧
      Poller.TimersFrom s.timers (l.get s).poller.kind ((l.get s).poller.loop + 1)
        (l.begin s task context).1.timers ∧
      (l.begin s task context).1.store = s.store := by
  have hp : (l.get (l.set s { l.get s with error := none })).poller = (l.get s).poller := by
    rw [hl.get_set]
  refine ⟨?_, ?_, ?_⟩
  · rw [Lane.begin, get_put_apart hl' ha, ha.get_set]
  · show Poller.TimersFrom _ _ _ (Poller.start _ (l.set s _).timers _ _).2
    rw [hp, hl.set_timers]
    exact Poller.timersFrom_start _ _ _ _
  · exact (Outside.store hl).begin s task context

theorem abandon_frame (hl : l.Lawful) (hl' : l'.Lawful) (ha : l'.Apart l) (s : Session)
    (kind : JobKind) (loop : Nat) :
    (l'.get (l.abandon s).1).poller = (l'.get s).poller ∧
      Poller.TimersFrom s.timers kind loop (l.abandon s).1.timers ∧
      (l.abandon s).1.store = s.store :=
  ⟨by rw [Lane.abandon, get_put_apart hl' ha], Poller.timersFrom_cancel _ _ _ _,
    (Outside.store hl).abandon s⟩

theorem take_frame (hl : l.Lawful) (hl' : l'.Lawful) (ha : l'.Apart l) (s : Session) (loop : Nat)
    (task : Doc) (a : Option JobAnswer) :
    (l'.get (l.take s loop task a).1).poller = (l'.get s).poller ∧
      Poller.TimersFrom s.timers (l.get s).poller.kind (l.get s).poller.loop
        (l.take s loop task a).1.timers := by
  have ht := Poller.timersFrom_settle (l.get s).poller s.timers loop a
  rcases take_cases l s loop task a with ⟨-, he⟩ | ⟨r, c, -, he⟩
  · rw [he, get_follow_apart ha, get_put_apart hl' ha, (follow_frame hl _ _).2]
    exact ⟨rfl, ht⟩
  · rw [he, get_finish_apart ha, get_put_apart hl' ha, (finish_frame hl _ _ _).2]
    exact ⟨rfl, ht⟩

/-- A result that cannot be applied: the problem is shown, and the store stays. -/
theorem take_of_problem (hl : l.Lawful) {loop : Nat} {b : JobAnswer} {e : Problem} (task : Doc)
    (hloop : loop = (l.get s).poller.loop) (hn : b.notFound = false) (hs : b.isSuccess = true)
    (he : ∀ n, (l.apply (l.put s n) b.result (l.get s).poller.context).outcome =
      .error (.problem e)) :
    (l.get (l.take s loop task (some b)).1).error = some e ∧
      (l.take s loop task (some b)).1.store = s.store := by
  obtain ⟨q, hq, -⟩ := Poller.settle_success (l.get s).poller s.timers hloop hn hs
  rcases take_cases l s loop task (some b) with ⟨hne, -⟩ | ⟨r, c, ha, ht⟩
  · exact absurd (congrArg Prod.snd hq) (hne _ _)
  · rw [hq] at ha ht
    obtain ⟨rfl, rfl⟩ := Poller.Next.apply.inj ha
    rw [ht]
    refine ⟨?_, ?_⟩
    · rw [finish_eq]
      dsimp only
      rw [he]
      exact congrArg Track.error (hl.get_set _ _)
    · rw [(Outside.store hl).finish, he]
      exact (Outside.store hl).put _ _

end

end Lane

/-- Gas that was asked for in another generation than the installed one is refused: the problem is
shown, and the store stays. -/
theorem take_stale {s : Session} {t : Timer} (task : Doc) {document : Doc} {b : JobAnswer}
    {ms : Measurements} {target : SymexecTarget} (hk : t.kind = .symexec)
    (hl : t.loop = s.executing.poller.loop) (hx : s.executing.poller.context = some target)
    (hn : b.notFound = false) (hs : b.isSuccess = true)
    (hd : payload .symexec b.result = .ok document) (hm : Measurements.read document = .ok ms)
    (hg : target.generation ≠ s.store.generation) :
    (s.take t task (some b)).1.executing.error =
        some (.staleGeneration target.contract target.generation s.store.generation) ∧
      (s.take t task (some b)).1.store = s.store := by
  rw [take, hk]
  refine Lane.take_of_problem Lane.lawful_symexecLane task hl hn hs fun n => ?_
  show (applySymexec _ b.result s.executing.poller.context).outcome = _
  have hread : (Measurements.runRead document).outcome = .ok ms :=
    Traced.outcome_bind_eq_ok.mpr ⟨ms, hm, rfl⟩
  have hmerge :
      ((symexecLane.put s n).store.runMerge target.contract ms target.generation).outcome =
      .error (.problem (.staleGeneration target.contract target.generation s.store.generation)) :=
    Store.runMerge_stale hg
  rw [hx, applySymexec, hd, Traced.outcome_bind]
  show (Measurements.runRead document >>= _).outcome = _
  rw [Traced.outcome_bind, hread]
  show ((symexecLane.put s n).store.runMerge target.contract ms target.generation >>= _).outcome = _
  rw [Traced.outcome_bind, hmerge]
  rfl

/-- **An answer changes the store by nothing but the result of a job that ended well**: it installs
a compilation, or merges the gas of a symbolic execution into what its target says. -/
theorem store_take (s : Session) (t : Timer) (task : Doc) (a : Option JobAnswer) :
    (s.take t task a).1.store = s.store ∨
    (∃ text output, t.kind = .compile ∧
      (s.store.runBuild text output).outcome = .ok (s.take t task a).1.store) ∨
    ∃ b document ms target, t.kind = .symexec ∧ a = some b ∧ b.isSuccess = true ∧
      payload .symexec b.result = .ok document ∧ Measurements.read document = .ok ms ∧
      t.loop = s.executing.poller.loop ∧ s.executing.poller.context = some target ∧
      (s.store.runMerge target.contract ms target.generation).outcome =
        .ok (s.take t task a).1.store := by
  rw [take]
  cases hk : t.kind with
  | compile =>
    have ho := Lane.Outside.store Lane.lawful_compileLane
    rcases ho.take s t.loop task a with ⟨he, -⟩ | ⟨b, n, s₁, -, -, -, -, happly, he⟩
    · exact .inl he
    · obtain ⟨output, text, store, -, -, hs, rfl⟩ := Lane.of_applyCompile happly
      refine .inr (.inl ⟨text, output, rfl, ?_⟩)
      rw [ho.put] at hs
      dsimp only
      rw [he]
      exact hs
  | symexec =>
    have ho := Lane.Outside.store Lane.lawful_symexecLane
    rcases ho.take s t.loop task a with ⟨he, -⟩ | ⟨b, n, s₁, rfl, -, hb, hl, happly, he⟩
    · exact .inl he
    · obtain ⟨document, ms, target, store, hd, hm, hx, hs, rfl⟩ := Lane.of_applySymexec happly
      refine .inr (.inr ⟨b, document, ms, target, rfl, rfl, hb, hd, hm, hl, hx, ?_⟩)
      rw [ho.put] at hs
      dsimp only
      rw [he]
      exact hs

end AsmLens.Session
