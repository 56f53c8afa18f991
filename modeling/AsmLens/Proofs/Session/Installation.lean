import AsmLens.Proofs.Session.Provenance

/-!
# What a session has installed

A session keeps a source, a compiler output, tables and a digest in four places. They are written
together, when the result of a compile job is applied, and so they belong to one job: the text that
was handed in for it, the payload of its answer, and what is built of the two.

* `Course.Act`, `Course.play` — a session and its highlight, under whatever happens to them
* `Course.Applies` — that an act applies the result of a compile job
* `Course.Taken` — that a text was handed in, and taken under a name
* `Course.Accounted.act_cases` — an act applies one job, or leaves what is installed
* `Session.Holds` — that what is installed belongs to a job
* `Course.installed_from_one_job` — the main result
-/

namespace AsmLens

open Deed

namespace Session

/-! ## What a step leaves -/

/-- What a session shows: what is installed, what it was made from, and what is highlighted. -/
def shown (s : Session) : Store × Option String × Option Doc × Highlight :=
  (s.store, s.source, s.compiled, s.highlight)

theorem outside_compileLane : compileLane.Outside shown := ⟨fun _ _ => rfl, fun _ _ => rfl⟩

theorem outside_symexecLane : symexecLane.Outside shown := ⟨fun _ _ => rfl, fun _ _ => rfl⟩

theorem shown_abandon (s : Session) (kind : JobKind) : (s.abandon kind).1.shown = s.shown := by
  cases kind with
  | compile => exact outside_compileLane.abandon s
  | symexec => exact outside_symexecLane.abandon s

/-- A compiler output is a payload that is an object. -/
theorem compilerOutput_eq_ok {result output : Doc} :
    compilerOutput result = .ok output ↔
      payload .compile result = .ok output ∧ ∃ ms, output = .object ms := by
  unfold compilerOutput
  cases payload .compile result with
  | error e => exact ⟨fun h => (nomatch h), fun h => (nomatch h.1)⟩
  | ok d =>
    cases d with
    | object ms =>
      constructor
      · intro h
        obtain rfl : Doc.object ms = output := Except.ok.inj h
        exact ⟨rfl, ms, rfl⟩
      · exact fun h => h.1
    | _ =>
      refine ⟨fun h => (nomatch h), ?_⟩
      rintro ⟨h, ms, rfl⟩
      exact nomatch Except.ok.inj h

/-- The result of a compilation can be applied if its output can be built. -/
theorem exists_applyCompile {s : Session} {result output : Doc} {source : String} {store : Store}
    (ho : compilerOutput result = .ok output) (hb : s.store.build source output = .ok store) :
    ∃ s', (applyCompile s result (some source)).outcome = .ok s' :=
  ⟨_, Traced.outcome_bind_eq_ok.mpr ⟨output, Traced.outcome_lift_eq_ok.mpr ho,
    Traced.outcome_bind_eq_ok.mpr ⟨store, hb, rfl⟩⟩⟩

/-- The answer to a compilation's poll: nothing is applied, and nothing could be, or the output is
built and installed with its source, and the highlight is cleared. -/
theorem shown_take_compile (s : Session) {t : Timer} (hk : t.kind = .compile) (task : Doc)
    (a : Option JobAnswer) :
    ((s.take t task a).1.shown = s.shown ∧
      ∀ b source output store, a = some b → b.notFound = false → b.isSuccess = true →
        t.loop = s.compiling.poller.loop → s.compiling.poller.context = some source →
        compilerOutput b.result = .ok output → s.store.build source output ≠ .ok store) ∨
    ∃ b source output store, a = some b ∧ b.notFound = false ∧ b.isSuccess = true ∧
      t.loop = s.compiling.poller.loop ∧ s.compiling.poller.context = some source ∧
      compilerOutput b.result = .ok output ∧ s.store.build source output = .ok store ∧
      (s.take t task a).1.shown = (store, some source, some output, .none) := by
  have hstore := Lane.Outside.store Lane.lawful_compileLane
  rw [take, hk]
  rcases outside_compileLane.take s t.loop task a with ⟨he, hfail⟩ |
    ⟨b, n, s₁, rfl, hn, hs, hl, happly, he⟩
  · refine .inl ⟨he, ?_⟩
    intro b source output store hb hn hs hl hx ho hbuild
    obtain ⟨n, e, happly⟩ := hfail b hb hn hs hl
    have hbuild : (compileLane.put s n).store.build source output = .ok store := by
      rw [hstore.put]
      exact hbuild
    obtain ⟨s', hs'⟩ := exists_applyCompile ho hbuild
    have hx : (compileLane.get s).poller.context = some source := hx
    rw [hx] at happly
    cases happly.symm.trans hs'
  · obtain ⟨output, source, store, ho, hx, hbuild, rfl⟩ := Lane.of_applyCompile happly
    rw [hstore.put] at hbuild
    exact .inr ⟨b, source, output, store, rfl, hn, hs, hl, hx, ho, hbuild, he⟩

/-- The answer to a symbolic execution's poll: at most it is merged. -/
theorem shown_take_symexec (s : Session) {t : Timer} (hk : t.kind = .symexec) (task : Doc)
    (a : Option JobAnswer) :
    (s.take t task a).1.shown = s.shown ∨
    ∃ contract ms generation store, s.store.merge contract ms generation = .ok store ∧
      (s.take t task a).1.shown = (store, s.source, s.compiled, s.highlight) := by
  have hshown := outside_symexecLane.put s
  rw [take, hk]
  rcases outside_symexecLane.take s t.loop task a with ⟨he, -⟩ |
    ⟨b, n, s₁, rfl, -, -, -, happly, he⟩
  · exact .inl he
  · obtain ⟨document, ms, target, store, -, -, -, hmerge, rfl⟩ := Lane.of_applySymexec happly
    rw [(Lane.Outside.store Lane.lawful_symexecLane).put] at hmerge
    refine .inr ⟨target.contract, ms, target.generation, store, hmerge, he.trans ?_⟩
    exact congrArg (fun x => (store, x.2)) (hshown n)

/-! ## What is installed -/

/-- What a session has installed, without measurements. -/
def installation (s : Session) :
    Nat × Option String × Option Compilation × Option String × Option Doc :=
  (s.store.generation, s.store.digest, s.store.installed.map Compilation.unmeasured, s.source,
    s.compiled)

theorem installation_congr {s s' : Session} (h : s'.shown = s.shown) :
    s'.installation = s.installation :=
  congrArg (fun x => (x.1.generation, x.1.digest, x.1.installed.map Compilation.unmeasured, x.2.1,
    x.2.2.1)) h

theorem installation_take_symexec (s : Session) {t : Timer} (hk : t.kind = .symexec) (task : Doc)
    (a : Option JobAnswer) : (s.take t task a).1.installation = s.installation := by
  rcases s.shown_take_symexec hk task a with he | ⟨contract, ms, generation, store, hm, he⟩
  · exact installation_congr he
  · obtain ⟨hg, hd, hi⟩ := Store.kept_merge hm
    have hs : (s.take t task a).1.installation = { s with store := store }.installation :=
      installation_congr he
    rw [hs, installation, hg, hd, hi]
    rfl

end Session

namespace Course

open Session.Lane

/-! ## Sessions with a highlight -/

/-- What can happen to a session, and to its highlight. -/
inductive Act
  | event (e : Event)
  /-- The highlight changed, by a cursor or a choice in one of the views. -/
  | highlight (h : Highlight)

/-- The course of a session after an act. -/
def act (c : Course) : Act → Course
  | .event e => c.step e
  | .highlight h => { c with session := { c.session with highlight := h } }

/-- The course of a session after acts. -/
def play (c : Course) (as : List Act) : Course := as.foldl act c

theorem play_append (c : Course) (as bs : List Act) : c.play (as ++ bs) = (c.play as).play bs :=
  List.foldl_append

/-! ## Compile jobs -/

/-- A compile job: the text that was handed in, the name under which the service took it, the loop
that follows it, and its output. -/
structure Job where
  source : String
  name : String
  loop : Nat
  output : Doc

/-- That an act applies a compile job: it is the answer to a poll of the loop that follows the job,
the loop is live, the job ended well, and tables can be built of its text and its payload. -/
structure Applies (c : Course) (e : Act) (job : Job) : Prop where
  followed : .compile (.started job.loop (.text job.name) (some job.source)) ∈ c.log
  live : Live (compiles c.log) job.loop
  answered : ∃ j t a, e = .event (.answer j (some a)) ∧ c.flights[j]? = some (t, .text job.name) ∧
    t.kind = .compile ∧ t.loop = job.loop ∧ a.notFound = false ∧ a.isSuccess = true ∧
    Session.payload .compile a.result = .ok job.output
  object : ∃ ms, job.output = .object ms
  built : ∃ built,
    Compilation.build job.source job.output c.session.store.nextGeneration = .ok built

open Classical in
/-- How many compile jobs are applied by acts. -/
noncomputable def applications (c : Course) : List Act → Nat
  | [] => 0
  | e :: as => (if ∃ job, c.Applies e job then 1 else 0) + (c.act e).applications as

theorem applications_append (c : Course) (as bs : List Act) :
    c.applications (as ++ bs) = c.applications as + (c.play as).applications bs := by
  induction as generalizing c with
  | nil => exact (Nat.zero_add _).symm
  | cons e as ih =>
    rw [List.cons_append, applications, applications, ih, Nat.add_assoc]
    rfl

theorem applications_of_applies {c : Course} {e : Act} {job : Job} (h : c.Applies e job) :
    c.applications [e] = 1 := by
  rw [applications, if_pos ⟨job, h⟩, applications]

theorem applications_of_not_applies {c : Course} {e : Act} (h : ∀ job, ¬c.Applies e job) :
    c.applications [e] = 0 := by
  rw [applications, if_neg (fun ⟨job, hj⟩ => h job hj), applications]

/-! ## What an event does to compile jobs -/

/-- That nothing happened to compile jobs, and what a session shows is the same. -/
structure Quiet (c c' : Course) : Prop where
  pending : ∀ source, .compile source ∈ c'.pending → .compile source ∈ c.pending
  started : ∀ l t x, .compile (.started l t x) ∈ c'.log → .compile (.started l t x) ∈ c.log
  shown : c'.session.shown = c.session.shown

theorem of_started_mem_ofKind {kind : JobKind} {m : ∀ κ, Moment κ} {log : List Deed} {l : Nat}
    {t : Doc} {x : Option String} (hm : m String ≠ .started l t x)
    (h : .compile (.started l t x) ∈ .ofKind kind m :: log) : .compile (.started l t x) ∈ log := by
  rcases List.mem_cons.mp h with he | h
  · cases kind with
    | compile => exact absurd (Deed.compile.inj he).symm hm
    | symexec => exact nomatch he
  · exact h

namespace Quiet

variable {c c' c'' : Course}

theorem refl (c : Course) : Quiet c c := ⟨fun _ h => h, fun _ _ _ h => h, rfl⟩

theorem trans (h : Quiet c c') (h' : Quiet c' c'') : Quiet c c'' :=
  ⟨fun source hm => h.pending source (h'.pending source hm),
    fun l t x hm => h.started l t x (h'.started l t x hm), h'.shown.trans h.shown⟩

theorem abandon (c : Course) (kind : JobKind) : Quiet c (c.abandon kind) :=
  ⟨fun _ h => h, fun _ _ _ h => of_started_mem_ofKind (m := fun _ => .cancelled) nofun h,
    c.session.shown_abandon kind⟩

theorem handIn (c : Course) (target : SymexecTarget) : Quiet c (c.handIn target) := by
  refine ⟨fun source hm => ?_, fun l t x hm => ?_, c.session.shown_abandon .symexec⟩
  · rcases List.mem_append.mp hm with hm | hm
    · exact hm
    · exact nomatch List.mem_singleton.mp hm
  · rcases List.mem_cons.mp hm with he | hm
    · exact nomatch he
    · rcases List.mem_cons.mp hm with he | hm
      · exact nomatch he
      · exact hm

theorem eraseIdx (c : Course) (j : Nat) : Quiet c { c with pending := c.pending.eraseIdx j } :=
  ⟨fun _ h => List.mem_of_mem_eraseIdx h, fun _ _ _ h => h, rfl⟩

theorem beginSymexec (c : Course) (task : String) (ticket : Nat) (target : SymexecTarget) :
    Quiet c (c.begin task (.symexec ticket target)) := by
  refine ⟨fun _ h => h, fun l t x hm => ?_, ?_⟩
  · rcases List.mem_cons.mp hm with he | hm
    · exact nomatch he
    · rcases List.mem_cons.mp hm with he | hm
      · exact nomatch he
      · exact hm
  · exact Session.outside_symexecLane.begin c.session task target

theorem fire (c : Course) (i : Nat) : Quiet c (c.step (.fire i)) := by
  rw [step]
  cases ht : c.session.timers[i]? with
  | none => exact .refl c
  | some t =>
    cases ha : c.session.asked? t with
    | none => simpa only [ha] using refl c
    | some task =>
      simp only [ha]
      exact ⟨fun _ h => h,
        fun _ _ _ h => of_started_mem_ofKind (m := fun _ => .polled ⟨t.loop, task⟩) (by rintro ⟨⟩) h, rfl⟩

end Quiet

/-- An event hands in a compile job, follows one, brings an answer, or does nothing to them. -/
theorem step_cases (c : Course) (e : Event) :
    (∃ source, e = .compile source ∧ c.step e = { c.abandon .compile with
      pending := c.pending ++ [.compile source] }) ∨
    (∃ j task source, e = .reply j (some task) ∧ c.pending[j]? = some (.compile source) ∧
      c.step e = { c with pending := c.pending.eraseIdx j }.begin task (.compile source)) ∨
    (∃ j t task a, e = .answer j a ∧ c.flights[j]? = some (t, task) ∧
      (c.step e).session = (c.session.take t task a).1 ∧ (c.step e).pending = c.pending ∧
      (c.step e).log = .ofKind t.kind (fun _ => .answered ⟨t.loop, task⟩ a) :: c.log) ∨
    Quiet c (c.step e) ∧ ∀ j a, e = .answer j a → c.flights[j]? = none := by
  have quiet : ∀ {e : Event}, Quiet c (c.step e) → (∀ j a, e ≠ .answer j a) →
      Quiet c (c.step e) ∧ ∀ j a, e = .answer j a → c.flights[j]? = none :=
    fun h hne => ⟨h, fun j a he => absurd he (hne j a)⟩
  cases e with
  | compile source => exact .inl ⟨source, rfl, rfl⟩
  | symexec contract source =>
    refine .inr (.inr (.inr (quiet ?_ (by rintro _ _ ⟨⟩))))
    rw [step]
    cases hp : c.session.plan contract source with
    | error e => exact .refl c
    | ok planned => exact .handIn c planned.2
  | reply j task =>
    cases hj : c.pending[j]? with
    | none =>
      refine .inr (.inr (.inr (quiet ?_ (by rintro _ _ ⟨⟩))))
      rw [step, hj]
      exact .refl c
    | some job =>
      cases task with
      | none =>
        refine .inr (.inr (.inr (quiet ?_ (by rintro _ _ ⟨⟩))))
        rw [step, hj]
        exact .eraseIdx c j
      | some task =>
        cases job with
        | compile source =>
          refine .inr (.inl ⟨j, task, source, rfl, hj, ?_⟩)
          rw [step, hj]
        | symexec ticket target =>
          refine .inr (.inr (.inr (quiet ?_ (by rintro _ _ ⟨⟩))))
          rw [step, hj]
          exact (Quiet.eraseIdx c j).trans (.beginSymexec _ task ticket target)
  | fire i => exact .inr (.inr (.inr (quiet (.fire c i) (by rintro _ _ ⟨⟩))))
  | answer j a =>
    cases hf : c.flights[j]? with
    | none =>
      refine .inr (.inr (.inr ⟨?_, ?_⟩))
      · rw [step, hf]
        exact .refl c
      · intro j' a' he
        obtain ⟨rfl, -⟩ := Event.answer.inj he
        exact hf
    | some p =>
      refine .inr (.inr (.inl ⟨j, p.1, p.2, a, rfl, hf, ?_, ?_, ?_⟩)) <;> rw [step, hf]
  | broken j =>
    exact .inr (.inr (.inr (quiet ⟨fun _ h => h, fun _ _ _ h => h, rfl⟩ (by rintro _ _ ⟨⟩))))
  | close =>
    exact .inr (.inr (.inr (quiet ((Quiet.abandon c .compile).trans (.abandon _ .symexec)) (by rintro _ _ ⟨⟩))))

/-! ## Where jobs come from -/

/-- That, in the course of some acts, a text was handed in to be compiled, and the service took it
under a name. -/
def Taken (c : Course) (as : List Act) (source name : String) : Prop :=
  ∃ before j after, as = before ++ .event (.reply j (some name)) :: after ∧
    .event (.compile source) ∈ before ∧ (c.play before).pending[j]? = some (.compile source)

theorem Taken.append {c : Course} {as : List Act} {source name : String}
    (h : Taken c as source name) (bs : List Act) : Taken c (as ++ bs) source name := by
  obtain ⟨before, j, after, rfl, hmem, hj⟩ := h
  exact ⟨before, j, after ++ bs, by simp, hmem, hj⟩

/-- What is known of compile jobs after some acts: each was handed in, and its loop remembers the
text that the service took under the name that the loop asks about. -/
structure Accounted (c₀ : Course) (as : List Act) (c : Course) : Prop where
  reached : c₀.play as = c
  sound : Sound c
  pending : ∀ source, .compile source ∈ c.pending → .event (.compile source) ∈ as
  started : ∀ l t x, .compile (.started l t x) ∈ c.log →
    ∃ name source, t = .text name ∧ x = some source ∧ Taken c₀ as source name

namespace Accounted

variable {as : List Act} {c₀ c : Course}

theorem new {settings : Settings} {s : Session} (h : Session.new settings = .ok s) :
    Accounted (Course.new s) [] (Course.new s) :=
  ⟨rfl, .new h, fun _ hm => absurd hm List.not_mem_nil, fun _ _ _ hm => absurd hm List.not_mem_nil⟩

/-- An act after which the jobs are those that were there before. -/
theorem extend (h : Accounted c₀ as c) (e : Act) (hs : Sound (c.act e))
    (hp : ∀ source, .compile source ∈ (c.act e).pending → .compile source ∈ c.pending)
    (hl : ∀ l t x, .compile (.started l t x) ∈ (c.act e).log → .compile (.started l t x) ∈ c.log) :
    Accounted c₀ (as ++ [e]) (c.act e) := by
  refine ⟨?_, hs, fun source hm => ?_, fun l t x hm => ?_⟩
  · rw [play_append, h.reached]
    rfl
  · exact List.mem_append_left _ (h.pending source (hp source hm))
  · obtain ⟨name, source, ht, hx, htaken⟩ := h.started l t x (hl l t x hm)
    exact ⟨name, source, ht, hx, htaken.append [e]⟩

theorem act (h : Accounted c₀ as c) (e : Act) : Accounted c₀ (as ++ [e]) (c.act e) := by
  cases e with
  | highlight g =>
    have hs : Sound (c.act (.highlight g)) :=
      ⟨⟨⟨h.sound.tracked.compiling.kind, h.sound.tracked.compiling.poller⟩,
        ⟨h.sound.tracked.executing.kind, h.sound.tracked.executing.poller⟩⟩,
        h.sound.pending, h.sound.orderly, h.sound.stamped, h.sound.backed⟩
    exact h.extend _ hs (fun _ hm => hm) (fun _ _ _ hm => hm)
  | event e =>
    have hs : Sound (c.act (.event e)) := h.sound.step e
    have hreached : c₀.play (as ++ [.event e]) = c.act (.event e) := by
      rw [play_append, h.reached]
      rfl
    rcases c.step_cases e with ⟨source, rfl, he⟩ | ⟨j, task, source, rfl, hj, he⟩ |
      ⟨j, t, task, a, rfl, -, -, hp, hl⟩ | ⟨hq, -⟩
    · -- one more job was handed in, and it was asked for just now
      have hcourse : c.act (.event (.compile source)) =
          { c.abandon .compile with pending := c.pending ++ [.compile source] } := he
      refine ⟨hreached, hs, fun source' hm => ?_, fun l t x hm => ?_⟩
      · rw [hcourse] at hm
        rcases List.mem_append.mp hm with hm | hm
        · exact List.mem_append_left _ (h.pending source' hm)
        · obtain rfl := Submission.compile.inj (List.mem_singleton.mp hm)
          exact List.mem_append_right _ List.mem_cons_self
      · rw [hcourse] at hm
        obtain ⟨name, source', ht, hx, htaken⟩ :=
          h.started l t x ((Quiet.abandon c .compile).started l t x hm)
        exact ⟨name, source', ht, hx, htaken.append _⟩
    · -- the service took a job that was handed in before
      have hsource := h.pending source (List.mem_of_getElem? hj)
      have hcourse : c.act (.event (.reply j (some task))) =
          { c with pending := c.pending.eraseIdx j }.begin task (.compile source) := he
      refine ⟨hreached, hs, fun source' hm => ?_, fun l t x hm => ?_⟩
      · rw [hcourse] at hm
        exact List.mem_append_left _ (h.pending source' (List.mem_of_mem_eraseIdx hm))
      · rw [hcourse] at hm
        rcases List.mem_cons.mp hm with hm | hm
        · obtain ⟨-, rfl, rfl⟩ := Moment.started.inj (Deed.compile.inj hm)
          exact ⟨task, source, rfl, rfl, as, j, [], rfl, hsource, h.reached ▸ hj⟩
        · obtain ⟨name, source', ht, hx, htaken⟩ := h.started l t x hm
          exact ⟨name, source', ht, hx, htaken.append _⟩
    · refine h.extend _ hs (fun source hm => ?_) (fun l t' x hm => ?_)
      · exact hp ▸ hm
      · have hm : .compile (.started l t' x) ∈
            .ofKind t.kind (fun _ => .answered ⟨t.loop, task⟩ a) :: c.log := hl ▸ hm
        exact of_started_mem_ofKind (m := fun _ => .answered ⟨t.loop, task⟩ a) nofun hm
    · exact h.extend _ hs hq.pending hq.started

/-- **Every play accounts for its jobs.** -/
theorem play {settings : Settings} {s : Session} (h : Session.new settings = .ok s)
    (as : List Act) : Accounted (Course.new s) as ((Course.new s).play as) := by
  induction as using List.reverseRecOn with
  | nil => exact new h
  | append_singleton as e ih =>
    rw [play_append]
    exact ih.act e

/-- The loop of a compilation's poll follows a job that was handed in, and the poller remembers its
text as long as it has its number. -/
theorem of_flight (h : Accounted c₀ as c) {t : Timer} {task : Doc} (hf : (t, task) ∈ c.flights)
    (hk : t.kind = .compile) (hl : t.loop = c.session.compiling.poller.loop) :
    ∃ name source, task = .text name ∧ Taken c₀ as source name ∧
      .compile (.started t.loop (.text name) (some source)) ∈ c.log ∧
      Live (compiles c.log) t.loop ∧ c.session.compiling.poller.context = some source := by
  have hc := h.sound.tracked.compiling.poller
  obtain ⟨x, hs⟩ := hc.started_of_flight (mem_flightsOf hf hk)
  obtain ⟨name, source, rfl, rfl, htaken⟩ := h.started _ _ _ (mem_compiles.mp hs)
  obtain ⟨hlive, -, hx⟩ := hc.live_of_started hs hl
  exact ⟨name, source, rfl, htaken, mem_compiles.mp hs, hlive, hx⟩

/-! ## One act -/

/-- The answer to a compilation's poll applies its job, or leaves what a session shows. -/
theorem answer (h : Accounted c₀ as c) {j : Nat} {t : Timer} {task : Doc} {a : Option JobAnswer}
    (hf : c.flights[j]? = some (t, task)) (hk : t.kind = .compile) :
    (∃ job built, c.Applies (.event (.answer j a)) job ∧ Taken c₀ as job.source job.name ∧
      (Compilation.runBuild job.source job.output c.session.store.nextGeneration).outcome =
        .ok built ∧
      (c.session.take t task a).1.shown =
        (c.session.store.install built (some (sourceDigest job.source)), some job.source,
          some job.output, .none)) ∨
    (∀ job, ¬c.Applies (.event (.answer j a)) job) ∧
      (c.session.take t task a).1.shown = c.session.shown := by
  have hc := h.sound.tracked.compiling.poller
  rcases c.session.shown_take_compile hk task a with ⟨he, hfail⟩ |
    ⟨b, source, output, store, rfl, hn, hs, hl, hx, ho, hb, he⟩
  · refine .inr ⟨fun job hj => ?_, he⟩
    obtain ⟨j', t', b, hj', hf', -, hloop, hn, hs, hp⟩ := hj.answered
    obtain ⟨rfl, rfl⟩ := Event.answer.inj (Act.event.inj hj')
    obtain ⟨rfl, rfl⟩ := Prod.mk.inj (Option.some.inj (hf.symm.trans hf'))
    -- the loop of the job is the poller's, which remembers the text of the job
    have hl := hc.live _ hj.live
    have hx := (hc.live_of_started (mem_compiles.mpr hj.followed) hl).2.2
    obtain ⟨built, hbuilt⟩ := hj.built
    exact hfail b job.source job.output _ rfl hn hs (hloop.trans hl) hx
      (Session.compilerOutput_eq_ok.mpr ⟨hp, hj.object⟩) (Store.build_eq_ok.mpr ⟨built, hbuilt, rfl⟩)
  · obtain ⟨name, source', rfl, hmem, hstarted, hlive, hx'⟩ :=
      h.of_flight (List.mem_of_getElem? hf) hk hl
    obtain rfl : source = source' := Option.some.inj (hx.symm.trans hx')
    obtain ⟨hp, hobject⟩ := Session.compilerOutput_eq_ok.mp ho
    obtain ⟨built, hbuilt, rfl⟩ := Store.build_eq_ok.mp hb
    refine .inl ⟨⟨source, name, t.loop, output⟩, built, ?_, hmem, hbuilt, he⟩
    exact ⟨hstarted, hlive, ⟨j, t, b, rfl, hf, hk, rfl, hn, hs, hp⟩, hobject, built, hbuilt⟩

/-- **An act applies one job, or leaves what is installed.** -/
theorem act_cases (h : Accounted c₀ as c) (e : Act) :
    (∃ job built, c.Applies e job ∧ Taken c₀ as job.source job.name ∧
      (Compilation.runBuild job.source job.output c.session.store.nextGeneration).outcome =
        .ok built ∧
      (c.act e).session.shown = (c.session.store.install built (some (sourceDigest job.source)),
        some job.source, some job.output, .none)) ∨
    (∀ job, ¬c.Applies e job) ∧ (c.act e).session.installation = c.session.installation := by
  -- only an answer to a compilation's poll applies a job
  have other : (∀ j t task a, e = .event (.answer j (some a)) → c.flights[j]? = some (t, task) →
      t.kind ≠ .compile) → ∀ job, ¬c.Applies e job := by
    intro hne job hj
    obtain ⟨j, t, a, he, hf, hk, -⟩ := hj.answered
    exact hne j t _ a he hf hk
  cases e with
  | highlight g => exact .inr ⟨other nofun, rfl⟩
  | event e =>
    rcases c.step_cases e with ⟨source, rfl, he⟩ | ⟨j, task, source, rfl, -, he⟩ |
      ⟨j, t, task, a, rfl, hf, hs, -, -⟩ | ⟨hq, hnone⟩
    · refine .inr ⟨other nofun, ?_⟩
      show (c.step _).session.installation = _
      rw [he]
      exact Session.installation_congr (c.session.shown_abandon .compile)
    · refine .inr ⟨other nofun, ?_⟩
      show (c.step _).session.installation = _
      rw [he]
      exact Session.installation_congr (Session.outside_compileLane.begin c.session task source)
    · cases hk : t.kind with
      | compile =>
        rcases h.answer (a := a) hf hk with ⟨job, built, hj, hmem, hb, he⟩ | ⟨hj, he⟩
        · exact .inl ⟨job, built, hj, hmem, hb, (congrArg Session.shown hs).trans he⟩
        · exact .inr ⟨hj, Session.installation_congr ((congrArg Session.shown hs).trans he)⟩
      | symexec =>
        refine .inr ⟨other fun j' t' task' a' he hf' => ?_, ?_⟩
        · obtain ⟨rfl, -⟩ := Event.answer.inj (Act.event.inj he)
          obtain ⟨rfl, -⟩ := Prod.mk.inj (Option.some.inj (hf.symm.trans hf'))
          rw [hk]
          exact nofun
        · exact (congrArg Session.installation hs).trans
            (c.session.installation_take_symexec hk task a)
    · refine .inr ⟨other fun j t task a he hf => ?_, Session.installation_congr hq.shown⟩
      rw [hnone j (some a) (Act.event.inj he)] at hf
      exact nomatch hf

end Accounted

end Course

/-! ## Main result -/

/-- That what a session has installed belongs to a compile job: its text, its payload, the digest of
the text, and the tables built of the two, but for measurements. -/
structure Session.Holds (s : Session) (job : Course.Job) : Prop where
  source : s.source = some job.source
  compiled : s.compiled = some job.output
  digest : s.store.digest = some (sourceDigest job.source)
  tables : ∃ built c, Compilation.build job.source job.output s.store.generation = .ok built ∧
    s.store.installed = some c ∧ c.unmeasured = built.unmeasured

namespace Session.Holds

variable {s s' : Session} {job : Course.Job}

theorem congr (h : s.Holds job) (hs : s'.installation = s.installation) : s'.Holds job := by
  simp only [installation, Prod.mk.injEq] at hs
  obtain ⟨hg, hd, hi, hsource, hcompiled⟩ := hs
  obtain ⟨built, c, hb, hc, hu⟩ := h.tables
  rw [hc, Option.map_some, Option.map_eq_some_iff] at hi
  obtain ⟨c', hc', hu'⟩ := hi
  refine ⟨hsource.trans h.source, hcompiled.trans h.compiled, hd.trans h.digest, built, c', ?_, hc',
    hu'.trans hu⟩
  rw [hg]
  exact hb

theorem of_install {store : Store} {built : Compilation} {highlight : Highlight}
    (hb : (Compilation.runBuild job.source job.output store.nextGeneration).outcome = .ok built)
    (hs : s.shown = (store.install built (some (sourceDigest job.source)), some job.source,
      some job.output, highlight)) : s.Holds job := by
  simp only [shown, Prod.mk.injEq] at hs
  obtain ⟨hstore, hsource, hcompiled, -⟩ := hs
  refine ⟨hsource, hcompiled, ?_, built, built, ?_, ?_, rfl⟩
  · rw [hstore]
    rfl
  · rw [hstore]
    exact hb
  · rw [hstore]
    exact congrArg some (Compilation.stamp_of_runBuild hb)

end Session.Holds

namespace Course

/-- An application begins a generation and clears the highlight. -/
theorem Accounted.of_applies {as : List Act} {c₀ c : Course} (h : Accounted c₀ as c) {e : Act}
    {job : Job} (hj : c.Applies e job) :
    (c.act e).session.store.generation = c.session.store.generation + 1 ∧
      (c.act e).session.highlight = .none := by
  rcases h.act_cases e with ⟨job', built, -, -, -, he⟩ | ⟨hne, -⟩
  · simp only [Session.shown, Prod.mk.injEq] at he
    exact ⟨congrArg Store.generation he.1, he.2.2.2⟩
  · exact absurd hj (hne job)

section

variable {settings : Settings} {s : Session}

theorem installation_new (h : Session.new settings = .ok s) :
    s.installation = (0, none, none, none, none) := by
  obtain ⟨client, rfl⟩ := Session.of_new h
  rfl

theorem generation_play (h : Session.new settings = .ok s) (as : List Act) :
    ((Course.new s).play as).session.store.generation = (Course.new s).applications as := by
  induction as using List.reverseRecOn with
  | nil => exact congrArg Prod.fst (installation_new h)
  | append_singleton as e ih =>
    have ha := Accounted.play h as
    rw [play_append, applications_append, ← ih]
    rcases ha.act_cases e with ⟨job, built, hj, -⟩ | ⟨hne, he⟩
    · rw [applications_of_applies hj]
      exact (ha.of_applies hj).1
    · rw [applications_of_not_applies hne]
      exact congrArg Prod.fst he

/-- What is installed belongs to the job that was applied last. -/
theorem holds_play (h : Session.new settings = .ok s) (as : List Act) :
    ((Course.new s).play as).session.installation = (0, none, none, none, none) ∨
      ∃ before e after job, as = before ++ e :: after ∧
        ((Course.new s).play before).Applies e job ∧
        ((Course.new s).play (before ++ [e])).applications after = 0 ∧
        Taken (Course.new s) before job.source job.name ∧
        ((Course.new s).play as).session.Holds job := by
  induction as using List.reverseRecOn with
  | nil => exact .inl (installation_new h)
  | append_singleton as e ih =>
    rw [play_append]
    rcases (Accounted.play h as).act_cases e with ⟨job, built, hj, hmem, hb, he⟩ | ⟨hne, he⟩
    · exact .inr ⟨as, e, [], job, rfl, hj, rfl, hmem, .of_install hb he⟩
    · rcases ih with hi | ⟨before, e', after, job, rfl, hj, hlast, hmem, hholds⟩
      · exact .inl (he.trans hi)
      · refine .inr ⟨before, e', after ++ [e], job, by simp, hj, ?_, hmem, hholds.congr he⟩
        have hplay : ((Course.new s).play (before ++ [e'])).play after =
            (Course.new s).play (before ++ e' :: after) := by
          rw [← play_append, List.append_assoc]
          rfl
        rw [applications_append, hlast, hplay, applications_of_not_applies hne]

end

/--
**What a session has installed belongs to one compile job.** After any acts, in any order: the
generation counts the jobs that were applied; either nothing was installed yet, or the source, the
compiler output, the digest and the tables belong to the job that was applied last, which had been
asked for before; and whatever is highlighted, an application clears it.
-/
theorem installed_from_one_job {settings : Settings} {s : Session} {as : List Act} {c : Course}
    (h : Session.new settings = .ok s) (hc : (Course.new s).play as = c) :
    c.session.store.generation = (Course.new s).applications as ∧
    ((c.session.store.generation = 0 ∧ c.session.source = none ∧ c.session.compiled = none ∧
        c.session.store.installed = none ∧ c.session.store.digest = none) ∨
      ∃ before e after job, as = before ++ e :: after ∧
        ((Course.new s).play before).Applies e job ∧
        ((Course.new s).play (before ++ [e])).applications after = 0 ∧
        Taken (Course.new s) before job.source job.name ∧ c.session.Holds job) ∧
    ∀ e job, c.Applies e job →
      (c.act e).session.store.generation = c.session.store.generation + 1 ∧
      (c.act e).session.highlight = .none := by
  subst hc
  refine ⟨generation_play h as, ?_, fun e job hj => (Accounted.play h as).of_applies hj⟩
  rcases holds_play h as with hi | hjob
  · simp only [Session.installation, Prod.mk.injEq, Option.map_eq_none_iff] at hi
    obtain ⟨hg, hd, hinst, hsource, hcompiled⟩ := hi
    exact .inl ⟨hg, hsource, hcompiled, hinst, hd⟩
  · exact .inr hjob

/-- A region chosen and frozen, and a source compiled. -/
def smallActs : List Act :=
  .highlight ⟨some ⟨"0:3", .source⟩, true⟩ :: smallCompile.map .event

/-- After a compilation its source is installed, and nothing is highlighted any more. -/
theorem installed_from_one_job_compiled :
    ((Course.new smallSession).play smallActs).session.store.generation = 1 ∧
      ∃ before e job, ((Course.new smallSession).play before).Applies e job ∧
        job.source = "abc" ∧ ((Course.new smallSession).play smallActs).session.Holds job ∧
        (((Course.new smallSession).play before).act e).session.highlight = .none := by
  have hnew : Session.new {} = .ok smallSession := by with_unfolding_all rfl
  have hgeneration : ((Course.new smallSession).play smallActs).session.store.generation = 1 := by
    with_unfolding_all rfl
  have hsource : ((Course.new smallSession).play smallActs).session.source = some "abc" := by
    with_unfolding_all rfl
  obtain ⟨-, hinstalled, -⟩ :=
    installed_from_one_job hnew (show (Course.new smallSession).play smallActs = _ from rfl)
  rcases hinstalled with ⟨hzero, -⟩ | ⟨before, e, after, job, -, hj, -, -, hholds⟩
  · rw [hgeneration] at hzero
    exact nomatch hzero
  · obtain ⟨-, -, happlied⟩ :=
      installed_from_one_job hnew (show (Course.new smallSession).play before = _ from rfl)
    refine ⟨hgeneration, before, e, job, hj, ?_, hholds, (happlied e job hj).2⟩
    exact Option.some.inj (hholds.source.symm.trans hsource)

end Course

end AsmLens
