import AsmLens.Proofs.Job.Consistency

/-!
# A poller in its world

Everything that can happen to a poller, in any order: jobs are started and given up, timers fire
whether or not they were cancelled and as often as they like, answers come back from polls long
past, results are applied while all this goes on.

* `Polling` — a poller with its timers, the polls in flight, and the results being applied
* `Polling.step`, `Polling.run` — what events do
* `Polling.Sound.run` — every run keeps the poller consistent with its history
* `Polling.stale_answers_ignored` — what belongs to another loop than the live one does nothing
-/

namespace AsmLens

/-- A result that was handed out and is being applied. -/
structure Application where
  /-- The number of the poller when the result was handed out. -/
  finished : Nat
  /-- The loop whose result it is. -/
  loop : Nat
  result : Doc

/-- A poller in its world. -/
structure Polling (κ : Type) where
  poller : Poller κ
  /-- All timers that were started, oldest first. -/
  timers : Timers
  /-- The polls whose answers have not come. -/
  flights : List Flight
  /-- The results that are being applied. -/
  applying : List Application
  /-- What happened, newest first. -/
  history : List (Moment κ)

/-- What can happen to a poller; timers, flights and applications go by their place. -/
inductive Polling.Event (κ : Type)
  | start (task : Doc) (context : Option κ)
  | cancel
  | fire (timer : Nat)
  /-- What came back from a poll; it is no answer if the service could not be reached. -/
  | answer (flight : Nat) (a : Option JobAnswer)
  /-- A poll that ended by an error of another kind. -/
  | broken (flight : Nat)
  /-- The end of applying a result. -/
  | conclude (application : Nat) (outcome : Result Unit)

namespace Polling

variable {κ : Type}

/-- A poller before its first job. -/
def new (kind : JobKind) (base limit : Option Number) : Polling κ :=
  ⟨Poller.new kind base limit, [], [], [], []⟩

/-- What follows an answer to a loop, or the outcome of applying its result. -/
def follow (m : Polling κ) (loop : Nat) (next : Poller.Next κ) : Polling κ :=
  match next with
  | .done => m
  | .apply r c =>
    { m with
      applying := m.applying ++ [⟨m.poller.loop, loop, r⟩]
      history := .applied loop r c :: m.history }
  | .tell e => { m with history := .told e :: m.history }

/-- The poller in its world after an event. -/
def step (m : Polling κ) : Event κ → Polling κ
  | .start task c =>
    let (p, ts) := m.poller.start m.timers task c
    { m with poller := p, timers := ts, history := .started p.loop task c :: m.history }
  | .cancel =>
    let (p, ts) := m.poller.cancel m.timers
    { m with poller := p, timers := ts, history := .cancelled :: m.history }
  | .fire i =>
    match m.timers[i]? with
    | none => m
    | some t =>
      match m.poller.pollDue? t.loop with
      | none => m
      | some task =>
        { m with
          flights := m.flights ++ [⟨t.loop, task⟩]
          history := .polled ⟨t.loop, task⟩ :: m.history }
  | .answer j a =>
    match m.flights[j]? with
    | none => m
    | some f =>
      let ((p, ts), next) := m.poller.settle m.timers f.loop a
      follow { m with
        poller := p, timers := ts
        flights := m.flights.eraseIdx j
        history := .answered f a :: m.history } f.loop next
  | .broken j => { m with flights := m.flights.eraseIdx j }
  | .conclude k o =>
    match m.applying[k]? with
    | none => m
    | some x =>
      let (p, next) := m.poller.conclude x.finished x.result o
      follow { m with poller := p, applying := m.applying.eraseIdx k } x.loop next

/-- The poller in its world after events. -/
def run (m : Polling κ) (es : List (Event κ)) : Polling κ := es.foldl step m

/-! ## Invariant -/

/-- The poller is consistent with its history, and all timers are its own. -/
structure Sound (m : Polling κ) : Prop where
  consistent : m.poller.Consistent m.timers m.flights m.history
  timers : ∀ t ∈ m.timers, t.kind = m.poller.kind
  /-- What is being applied was handed out. -/
  applying : ∀ x ∈ m.applying, ∃ c, .applied x.loop x.result c ∈ m.history

namespace Sound

variable {m : Polling κ}

theorem new (kind : JobKind) (base limit : Option Number) :
    Sound (Polling.new kind base limit : Polling κ) where
  consistent := .new kind base limit
  timers := fun _ ht => absurd ht List.not_mem_nil
  applying := fun _ hx => absurd hx List.not_mem_nil

/-- What follows an answer or an outcome. -/
theorem follow {m : Polling κ} {loop : Nat} {next : Poller.Next κ} (h : Sound m)
    (hd : ∀ r c, next = .apply r c → (Moment.applied loop r c).Due m.history) :
    Sound (m.follow loop next) := by
  obtain ⟨hc, ht, hx⟩ := h
  have hc := hc.follow hd
  cases next with
  | done => exact ⟨hc, ht, hx⟩
  | tell e =>
    refine ⟨hc, ht, fun x hm => ?_⟩
    obtain ⟨c, hm⟩ := hx x hm
    exact ⟨c, List.mem_cons_of_mem _ hm⟩
  | apply r c =>
    refine ⟨hc, ht, fun x hm => ?_⟩
    rcases List.mem_append.mp hm with hm | hm
    · obtain ⟨c, hm⟩ := hx x hm
      exact ⟨c, List.mem_cons_of_mem _ hm⟩
    · rw [List.mem_singleton.mp hm]
      exact ⟨c, List.mem_cons_self⟩

/-- Every event keeps the poller consistent with its history. -/
theorem step (h : Sound m) (e : Event κ) : Sound (m.step e) := by
  have later : ∀ {n : Moment κ} {x : Application}, x ∈ m.applying →
      ∃ c, .applied x.loop x.result c ∈ n :: m.history := by
    intro n x hx
    obtain ⟨c, hm⟩ := h.applying x hx
    exact ⟨c, List.mem_cons_of_mem _ hm⟩
  cases e with
  | start task c =>
    exact ⟨h.consistent.start task c,
      (Poller.timersFrom_start m.poller m.timers task c).kind_eq h.timers, fun x hx => later hx⟩
  | cancel =>
    exact ⟨h.consistent.cancel, (Poller.timersFrom_cancel m.poller m.timers _ 0).kind_eq h.timers,
      fun x hx => later hx⟩
  | fire i =>
    rw [Polling.step]
    cases ht : m.timers[i]? with
    | none => exact h
    | some t =>
      cases hd : m.poller.pollDue? t.loop with
      | none => simpa only [hd] using h
      | some task =>
        have hmem := List.mem_of_getElem? ht
        simp only [hd]
        exact ⟨h.consistent.poll hmem (h.timers t hmem) hd, h.timers, fun x hx => later hx⟩
  | answer j a =>
    rw [Polling.step]
    cases hf : m.flights[j]? with
    | none => exact h
    | some f =>
      obtain ⟨hc, hd⟩ := h.consistent.settle (List.mem_of_getElem? hf) a
      refine follow ⟨hc.of_flights fun g hg => hc.flights g (List.mem_of_mem_eraseIdx hg), ?_,
        fun x hx => later hx⟩ hd
      show ∀ t ∈ (m.poller.settle m.timers f.loop a).1.2,
        t.kind = (m.poller.settle m.timers f.loop a).1.1.kind
      rw [Poller.kind_settle]
      exact (Poller.timersFrom_settle m.poller m.timers f.loop a).kind_eq h.timers
  | broken j =>
    exact ⟨h.consistent.of_flights fun g hg =>
      h.consistent.flights g (List.mem_of_mem_eraseIdx hg), h.timers, h.applying⟩
  | conclude k o =>
    rw [Polling.step]
    cases hx : m.applying[k]? with
    | none => exact h
    | some x =>
      refine follow ⟨h.consistent.conclude x.finished x.result o, ?_,
        fun y hy => h.applying y (List.mem_of_mem_eraseIdx hy)⟩ fun r c hn =>
          absurd hn (Poller.conclude_ne_apply _ _ _ _ _ _)
      show ∀ t ∈ m.timers, t.kind = (m.poller.conclude x.finished x.result o).1.kind
      rw [Poller.kind_conclude]
      exact h.timers

/-- **Every run keeps the poller consistent with its history.** -/
theorem run (h : Sound m) (es : List (Event κ)) : Sound (m.run es) := by
  induction es generalizing m with
  | nil => exact h
  | cons e es ih => exact ih (h.step e)

end Sound

/-! ## Stale timers and answers -/

variable {m : Polling κ}

/-- A timer of a loop that is not live does nothing when it fires. -/
theorem Sound.step_fire_stale (h : Sound m) {i : Nat} {t : Timer} (ht : m.timers[i]? = some t)
    (hl : ¬Live m.history t.loop) : m.step (.fire i) = m := by
  have hmem := List.mem_of_getElem? ht
  obtain ⟨task, c, hs⟩ := h.consistent.timers t hmem (h.timers t hmem)
  have hne : t.loop ≠ m.poller.loop := fun he => hl (h.consistent.live_of_started hs he).1
  have hd : m.poller.pollDue? t.loop = none := by
    rw [Poller.pollDue?, if_neg fun hc => hne hc.1]
  simp only [Polling.step, ht, hd]

/-- An answer to a loop that is not live changes nothing and is told to nobody. -/
theorem Sound.step_answer_stale (h : Sound m) {j : Nat} {f : Flight}
    (hf : m.flights[j]? = some f) (hl : ¬Live m.history f.loop) (a : Option JobAnswer) :
    m.step (.answer j a) =
      { m with flights := m.flights.eraseIdx j, history := .answered f a :: m.history } := by
  obtain ⟨c, hs⟩ := h.consistent.started_of_flight (List.mem_of_getElem? hf)
  have hne : f.loop ≠ m.poller.loop := fun he => hl (h.consistent.live_of_started hs he).1
  have he : m.poller.settle m.timers f.loop a = ((m.poller, m.timers), .done) := by
    rw [Poller.settle, if_pos hne]
  simp only [Polling.step, hf, he]
  rfl

/--
**Stale answers and timers do nothing, in any run of any poller.** An answer changes the poller or
is told to anyone only if its loop is the live one, and so does a timer. A result is handed out
only in direct answer to a poll of the live loop for its own job, with the context of its own
start, and once for each start.
-/
theorem stale_answers_ignored (kind : JobKind) (base limit : Option Number) (es : List (Event κ))
    (hm : (Polling.new kind base limit).run es = m) :
    (∀ j f a, m.flights[j]? = some f → ¬Live m.history f.loop →
      m.step (.answer j a) =
        { m with flights := m.flights.eraseIdx j, history := .answered f a :: m.history }) ∧
    (∀ i t, m.timers[i]? = some t → ¬Live m.history t.loop → m.step (.fire i) = m) ∧
    (∀ newer older l r c, m.history = newer ++ .applied l r c :: older →
      ∃ task a before, older = .answered ⟨l, task⟩ (some a) :: before ∧ a.isSuccess = true ∧
        a.result = r ∧ Live before l ∧ .polled ⟨l, task⟩ ∈ before ∧ .started l task c ∈ before) ∧
    (∀ x ∈ m.applying, ∃ c, .applied x.loop x.result c ∈ m.history) ∧
    (m.history.filterMap Moment.startedLoop?).Nodup ∧
    (m.history.filterMap Moment.appliedLoop?).Nodup := by
  have h : Sound m := hm ▸ (Sound.new kind base limit).run es
  have hl := h.consistent.lawful
  refine ⟨fun j f a hf hne => h.step_answer_stale hf hne a, fun i t => h.step_fire_stale, ?_,
    h.applying, hl.nodup_started, hl.nodup_applied⟩
  intro newer older l r c he
  rw [he] at hl
  obtain ⟨⟨task, a, before, rfl, hs, hr, hlive, hst⟩, hold⟩ := hl.due
  exact ⟨task, a, before, rfl, hs, hr, hlive, hold.1, hst⟩

/-- The first of two jobs ends well, and the answer comes when the second has been started. -/
theorem stale_answers_ignored_superseded :
    ((Polling.new .compile none none : Polling String).run
      [.start (.text "a") (some "x"), .fire 0, .start (.text "b") (some "y")]).step
        (.answer 0 (some (.known (.text "SUCCESS") (.text "r")))) =
    { (Polling.new .compile none none : Polling String).run
        [.start (.text "a") (some "x"), .fire 0, .start (.text "b") (some "y")] with
      flights := []
      history := [.answered ⟨1, .text "a"⟩ (some (.known (.text "SUCCESS") (.text "r"))),
        .started 2 (.text "b") (some "y"), .polled ⟨1, .text "a"⟩,
        .started 1 (.text "a") (some "x")] } := by
  refine (stale_answers_ignored .compile none none _ rfl).1 0 ⟨1, .text "a"⟩ _ rfl ?_
  rintro (h | ⟨h, -⟩)
  · exact absurd (show (2 : Nat) = 1 from h) (by decide)
  · exact h trivial

end Polling

end AsmLens
