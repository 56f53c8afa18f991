import AsmLens.Proofs.Job.History

/-!
# Pollers and their histories

A poller knows of its history no more than a number, its loop. Every start, every cancellation and
every final answer gives it a new one, and so the number is enough to tell the live loop from all
others, whatever timers and polls of earlier loops are still about.

* `Poller.settle_outcomes`, `Poller.settle_cases` — what handling an answer amounts to
* `Poller.conclude_cases` — what handling an outcome amounts to
* `Poller.Consistent` — a poller whose number agrees with its history
* `Poller.Consistent.start`, `cancel`, `poll`, `settle`, `conclude` — every step keeps it so
-/

namespace AsmLens

/-! ## The steps of a poller -/

namespace Poller

variable {κ : Type} {p : Poller κ} {ts : Timers} {loop : Nat}

/-- What a step does to the timers: some may be cancelled, and one may be added for a loop. -/
def TimersFrom (ts : Timers) (kind : JobKind) (loop : Nat) (us : Timers) : Prop :=
  ∀ u ∈ us, (∃ t ∈ ts, t.kind = u.kind ∧ t.loop = u.loop) ∨ u.kind = kind ∧ u.loop = loop

theorem TimersFrom.refl (ts : Timers) (kind : JobKind) (loop : Nat) : TimersFrom ts kind loop ts :=
  fun u hu => .inl ⟨u, hu, rfl, rfl⟩

/-- Of the timers only the poller's own is cancelled. -/
theorem of_getElem?_dropTimer {i : Nat} {t : Timer} (h : (p.dropTimer ts)[i]? = some t) :
    (p.timer = some i ∧ ∃ u, ts[i]? = some u ∧ t = { u with cancelled := true }) ∨
      p.timer ≠ some i ∧ ts[i]? = some t := by
  unfold dropTimer at h
  split at h
  · next j hj =>
    rw [Timers.cancel, List.getElem?_modify] at h
    obtain ⟨u, hu, ht⟩ := Option.map_eq_some_iff.mp h
    by_cases hji : j = i
    · rw [if_pos hji] at ht
      exact .inl ⟨hji ▸ hj, u, hu, ht.symm⟩
    · rw [if_neg hji] at ht
      refine .inr ⟨?_, ht ▸ hu⟩
      rw [hj]
      exact fun he => hji (Option.some.inj he)
  · next hn =>
    refine .inr ⟨?_, h⟩
    rw [hn]
    rintro ⟨⟩

/-- Cancelling a timer leaves the kinds and loops of all timers. -/
theorem mem_dropTimer {u : Timer} (h : u ∈ p.dropTimer ts) :
    ∃ t ∈ ts, t.kind = u.kind ∧ t.loop = u.loop := by
  obtain ⟨j, hj⟩ := List.getElem?_of_mem h
  rcases of_getElem?_dropTimer hj with ⟨-, t, ht, rfl⟩ | ⟨-, ht⟩
  · exact ⟨t, List.mem_of_getElem? ht, rfl, rfl⟩
  · exact ⟨u, List.mem_of_getElem? ht, rfl, rfl⟩

theorem timersFrom_dropTimer (p : Poller κ) (ts : Timers) (kind : JobKind) (loop : Nat) :
    TimersFrom ts kind loop (p.dropTimer ts) :=
  fun _ hu => .inl (mem_dropTimer hu)

/-- If all timers are of a kind, so they are after a step of this kind. -/
theorem TimersFrom.kind_eq {us : Timers} {kind : JobKind} (h : TimersFrom ts kind loop us)
    (hk : ∀ t ∈ ts, t.kind = kind) : ∀ u ∈ us, u.kind = kind := by
  intro u hu
  rcases h u hu with ⟨t, ht, he, -⟩ | ⟨he, -⟩
  · exact he.symm.trans (hk t ht)
  · exact he

theorem TimersFrom.arm {us : Timers} {kind : JobKind} (h : TimersFrom ts kind loop us)
    (delay : Number) : TimersFrom ts kind loop (us.arm delay kind loop) := by
  intro u hu
  rcases List.mem_append.mp hu with hu | hu
  · exact h u hu
  · rw [List.mem_singleton.mp hu]
    exact .inr ⟨rfl, rfl⟩

theorem timersFrom_cancel (p : Poller κ) (ts : Timers) (kind : JobKind) (loop : Nat) :
    TimersFrom ts kind loop (p.cancel ts).2 :=
  timersFrom_dropTimer p ts kind loop

theorem timersFrom_start (p : Poller κ) (ts : Timers) (task : Doc) (context : Option κ) :
    TimersFrom ts p.kind (p.loop + 1) (p.start ts task context).2 :=
  (timersFrom_dropTimer p ts p.kind (p.loop + 1)).arm p.base

/-- Handling an answer discards it, arms the next timer, or ends the loop in one of three ways. -/
theorem settle_outcomes (p : Poller κ) (ts : Timers) (loop : Nat) (a : Option JobAnswer) :
    (loop ≠ p.loop ∧ p.settle ts loop a = ((p, ts), .done)) ∨
    loop = p.loop ∧
      ((¬Final a ∧ p.settle ts loop a = (({ p with
          timer := none, interval := p.interval.double.min p.limit } : Poller κ).arm ts, .done)) ∨
      ∃ b, a = some b ∧ b.isPending = false ∧
        ((b.notFound = true ∧ p.settle ts loop a =
          (({ ({ p with timer := none } : Poller κ).close with status := .idle }, ts), .done)) ∨
        (b.isFailure = true ∧ ∃ e, p.settle ts loop a =
          ((({ p with timer := none } : Poller κ).close.fail e, ts), .tell e)) ∨
        (b.notFound = false ∧ b.isSuccess = true ∧ p.settle ts loop a =
          ((({ p with timer := none } : Poller κ).close, ts), .apply b.result p.context)))) := by
  by_cases hl : loop = p.loop
  · refine .inr ⟨hl, ?_⟩
    rw [settle, if_neg (not_not.mpr hl)]
    -- a poll that did not reach the service counts as pending
    cases ha : a.filter fun a => !a.isPending with
    | none =>
      refine .inl ⟨?_, rfl⟩
      rintro ⟨b, rfl, hb⟩
      simp [hb] at ha
    | some b =>
      obtain ⟨rfl, hb⟩ := Option.filter_eq_some_iff.mp ha
      have hb : b.isPending = false := by simpa using hb
      refine .inr ⟨b, rfl, hb, ?_⟩
      dsimp only
      by_cases hn : b.notFound = true
      · rw [if_pos hn]
        exact .inl ⟨hn, rfl⟩
      · rw [if_neg hn]
        by_cases hf : b.isFailure = true
        · rw [if_pos hf]
          exact .inr (.inl ⟨hf, _, rfl⟩)
        · rw [if_neg hf]
          refine .inr (.inr ⟨Bool.eq_false_iff.mpr hn, ?_, rfl⟩)
          simpa [JobAnswer.isPending, hn, hf] using hb
  · exact .inl ⟨hl, by rw [settle, if_pos hl]⟩

/-- Only the answer that a job ended well hands out a result, and it ends the loop. -/
theorem of_settle_apply {p : Poller κ} {ts : Timers} {loop : Nat} {a : Option JobAnswer} {r : Doc}
    {c : Option κ} (h : (p.settle ts loop a).2 = .apply r c) :
    ∃ b, a = some b ∧ b.notFound = false ∧ b.isSuccess = true ∧ loop = p.loop ∧ r = b.result ∧
      c = p.context ∧ (p.settle ts loop a).1 = (({ p with timer := none } : Poller κ).close, ts) := by
  rcases settle_outcomes p ts loop a with ⟨-, he⟩ |
    ⟨hl, ⟨-, he⟩ | ⟨b, hb, -, ⟨-, he⟩ | ⟨-, e, he⟩ | ⟨hn, hs, he⟩⟩⟩ <;> rw [he] at h
  · exact nomatch h
  · exact nomatch h
  · exact nomatch h
  · exact nomatch h
  · obtain ⟨rfl, rfl⟩ := Next.apply.inj h
    exact ⟨b, hb, hn, hs, hl, rfl, rfl, by rw [he]⟩

/-- What handling an answer amounts to for the loop of the poller. -/
theorem settle_cases (p : Poller κ) (ts : Timers) (loop : Nat) (a : Option JobAnswer) :
    (loop ≠ p.loop ∧ p.settle ts loop a = ((p, ts), .done)) ∨
    (loop = p.loop ∧ ¬Final a ∧ ∃ q delay,
      p.settle ts loop a = ((q, ts.arm delay p.kind p.loop), .done) ∧
      q.kind = p.kind ∧ q.loop = p.loop ∧ q.task = p.task ∧ q.context = p.context) ∨
    (loop = p.loop ∧ ∃ b q next, a = some b ∧ b.isPending = false ∧
      p.settle ts loop a = ((q, ts), next) ∧ q.kind = p.kind ∧ q.loop = p.loop + 1 ∧
      ((next = .done ∧ b.notFound = true) ∨ (∃ e, next = .tell e ∧ b.isFailure = true) ∨
        (next = .apply b.result p.context ∧ b.isSuccess = true))) := by
  rcases settle_outcomes p ts loop a with h | ⟨hl, ⟨hf, he⟩ | ⟨b, hb, hp, h⟩⟩
  · exact .inl h
  · exact .inr (.inl ⟨hl, hf, _, _, he, rfl, rfl, rfl, rfl⟩)
  · refine .inr (.inr ⟨hl, b, ?_⟩)
    rcases h with ⟨hn, he⟩ | ⟨hf, e, he⟩ | ⟨-, hs, he⟩
    · exact ⟨_, _, hb, hp, he, rfl, rfl, .inl ⟨rfl, hn⟩⟩
    · exact ⟨_, _, hb, hp, he, rfl, rfl, .inr (.inl ⟨e, rfl, hf⟩)⟩
    · exact ⟨_, _, hb, hp, he, rfl, rfl, .inr (.inr ⟨rfl, hs⟩)⟩

/-- The answer that the job of the poller's loop ended well asks for its result to be applied. -/
theorem settle_success (p : Poller κ) (ts : Timers) {loop : Nat} {a : JobAnswer}
    (hl : loop = p.loop) (hn : a.notFound = false) (hs : a.isSuccess = true) :
    ∃ q, p.settle ts loop (some a) = ((q, ts), .apply a.result p.context) ∧
      q.loop = p.loop + 1 := by
  have hf : a.isFailure = false := by
    unfold JobAnswer.isSuccess Doc.isText at hs
    split at hs
    · next s hs' =>
      rw [JobAnswer.isFailure, hs', of_decide_eq_true hs]
      rfl
    · exact absurd hs Bool.false_ne_true
  have hp : a.isPending = false := by simp [JobAnswer.isPending, hs]
  rcases settle_outcomes p ts loop (some a) with ⟨hne, -⟩ | ⟨-, ⟨hfin, -⟩ | ⟨b, hb, -, h⟩⟩
  · exact absurd hl hne
  · exact absurd ⟨a, rfl, hp⟩ hfin
  · obtain rfl := Option.some.inj hb
    rcases h with ⟨hn', -⟩ | ⟨hf', -⟩ | ⟨-, -, he⟩
    · exact absurd (hn.symm.trans hn') Bool.false_ne_true
    · exact absurd (hf.symm.trans hf') Bool.false_ne_true
    · exact ⟨_, he, rfl⟩

theorem kind_settle (p : Poller κ) (ts : Timers) (loop : Nat) (a : Option JobAnswer) :
    (p.settle ts loop a).1.1.kind = p.kind := by
  rcases settle_cases p ts loop a with ⟨-, he⟩ | ⟨-, -, q, d, he, hk, -⟩ |
    ⟨-, b, q, next, -, -, he, hk, -⟩ <;> rw [he]
  · exact hk
  · exact hk

theorem timersFrom_settle (p : Poller κ) (ts : Timers) (loop : Nat) (a : Option JobAnswer) :
    TimersFrom ts p.kind p.loop (p.settle ts loop a).1.2 := by
  rcases settle_cases p ts loop a with ⟨-, he⟩ | ⟨-, -, q, d, he, -⟩ |
    ⟨-, b, q, next, -, -, he, -⟩ <;> rw [he]
  · exact .refl ts _ _
  · exact (TimersFrom.refl ts _ _).arm d
  · exact .refl ts _ _

/-- Taking an outcome opens and ends no loop, and hands out nothing. -/
theorem conclude_cases (p : Poller κ) (finished : Nat) (r : Doc) (o : Result Unit) :
    ∃ q next, p.conclude finished r o = (q, next) ∧
      (q.kind = p.kind ∧ q.loop = p.loop ∧ q.task = p.task ∧ q.context = p.context) ∧
      (next = .done ∨ ∃ e, next = .tell e) := by
  rcases o with (e | f) | _
  · exact ⟨_, _, rfl, ⟨rfl, rfl, rfl, rfl⟩, .inr ⟨e, rfl⟩⟩
  · exact ⟨_, _, rfl, ⟨rfl, rfl, rfl, rfl⟩, .inr ⟨_, rfl⟩⟩
  · by_cases hl : p.loop ≠ finished
    · exact ⟨p, .done, by rw [conclude, if_pos hl], ⟨rfl, rfl, rfl, rfl⟩, .inl rfl⟩
    · exact ⟨{ p with result := r, status := .succeeded }, .done, by rw [conclude, if_neg hl],
        ⟨rfl, rfl, rfl, rfl⟩, .inl rfl⟩

theorem kind_conclude (p : Poller κ) (finished : Nat) (r : Doc) (o : Result Unit) :
    (p.conclude finished r o).1.kind = p.kind := by
  obtain ⟨q, next, he, ⟨hk, -⟩, -⟩ := conclude_cases p finished r o
  rw [he]
  exact hk

theorem conclude_ne_apply (p : Poller κ) (finished : Nat) (r r' : Doc) (o : Result Unit)
    (c : Option κ) : (p.conclude finished r o).2 ≠ .apply r' c := by
  obtain ⟨q, next, he, -, hnext⟩ := conclude_cases p finished r o
  rw [he]
  rintro rfl
  rcases hnext with hn | ⟨e, hn⟩ <;> exact nomatch hn

/-- The moments that follow an answer or an outcome. -/
def Next.moments (loop : Nat) : Next κ → List (Moment κ)
  | .done => []
  | .apply r c => [.applied loop r c]
  | .tell e => [.told e]

/-! ## Pollers and their histories -/

/--
A poller with its timers and flights agrees with a history: the history is lawful, only the loop
of the poller can be live, and timers and flights belong to loops that were started.
-/
structure Consistent (p : Poller κ) (ts : Timers) (fs : List Flight) (h : List (Moment κ)) :
    Prop where
  lawful : Lawful h
  bound : ∀ l t c, .started l t c ∈ h → l ≤ p.loop
  live : ∀ l, Live h l → l = p.loop
  current : ∀ t c, .started p.loop t c ∈ h → Live h p.loop ∧ p.task = t ∧ p.context = c
  timers : ∀ t ∈ ts, t.kind = p.kind → ∃ task c, .started t.loop task c ∈ h
  flights : ∀ f ∈ fs, .polled f ∈ h

namespace Consistent

variable {q : Poller κ} {us : Timers} {fs gs : List Flight} {h : List (Moment κ)} {m : Moment κ}

theorem new (kind : JobKind) (base limit : Option Number) :
    Consistent (Poller.new kind base limit : Poller κ) [] [] [] := by
  refine ⟨trivial, ?_, ?_, ?_, ?_, ?_⟩
  · exact fun l t c hm => absurd hm List.not_mem_nil
  · exact fun l hl => hl.elim
  · exact fun t c hm => absurd hm List.not_mem_nil
  · exact fun t hm => absurd hm List.not_mem_nil
  · exact fun f hm => absurd hm List.not_mem_nil

/-- A loop that was started is live if the poller has its number. -/
theorem live_of_started (hc : Consistent p ts fs h) {l : Nat} {t : Doc} {c : Option κ}
    (hs : .started l t c ∈ h) (hl : l = p.loop) : Live h l ∧ p.task = t ∧ p.context = c := by
  subst hl
  exact hc.current t c hs

/-- The loop of a flight was started with the job that the flight asks about. -/
theorem started_of_flight (hc : Consistent p ts fs h) {f : Flight} (hf : f ∈ fs) :
    ∃ c, .started f.loop f.task c ∈ h := by
  obtain ⟨newer, older, rfl, ⟨-, c, hs⟩, -⟩ := hc.lawful.due_of_mem (hc.flights f hf)
  exact ⟨c, by simp [hs]⟩

/-! ### Parts -/

theorem of_poller (hc : Consistent p ts fs h) (hk : q.kind = p.kind) (hl : q.loop = p.loop)
    (ht : q.task = p.task) (hx : q.context = p.context) : Consistent q ts fs h := by
  refine ⟨hc.lawful, ?_, ?_, ?_, ?_, hc.flights⟩
  · rw [hl]; exact hc.bound
  · rw [hl]; exact hc.live
  · rw [hl, ht, hx]; exact hc.current
  · rw [hk]; exact hc.timers

theorem of_timers (hc : Consistent p ts fs h) {kind : JobKind} {loop : Nat}
    (ht : TimersFrom ts kind loop us) (hs : kind = p.kind → ∃ t c, .started loop t c ∈ h) :
    Consistent p us fs h := by
  refine { hc with timers := fun u hu hk => ?_ }
  rcases ht u hu with ⟨t, ht, hkind, hloop⟩ | ⟨hkind, hloop⟩
  · rw [← hloop]
    exact hc.timers t ht (hkind.trans hk)
  · rw [hloop]
    exact hs (hkind.symm.trans hk)

theorem of_flights (hc : Consistent p ts fs h) (hg : ∀ f ∈ gs, .polled f ∈ h) :
    Consistent p ts gs h :=
  { hc with flights := hg }

/-- A moment that opens no loop and does not end the poller's own. -/
theorem quiet (hc : Consistent p ts fs h) (hd : m.Due h) (hs : ∀ l, ¬m.Starts l)
    (he : ¬m.Ends p.loop) : Consistent p ts fs (m :: h) := by
  refine ⟨⟨hd, hc.lawful⟩, ?_, ?_, ?_, ?_, ?_⟩
  · exact fun l t c hm => hc.bound l t c (Moment.mem_of_started_mem_cons (hs l) hm)
  · rintro l (hl | ⟨-, hl⟩)
    · exact absurd hl (hs l)
    · exact hc.live l hl
  · intro t c hm
    obtain ⟨hl, ht⟩ := hc.current t c (Moment.mem_of_started_mem_cons (hs _) hm)
    exact ⟨.inr ⟨he, hl⟩, ht⟩
  · intro t ht hk
    obtain ⟨task, c, hm⟩ := hc.timers t ht hk
    exact ⟨task, c, List.mem_cons_of_mem _ hm⟩
  · exact fun f hf => List.mem_cons_of_mem _ (hc.flights f hf)

/-- A moment that ends the loop of the poller, which takes a new number. -/
theorem ended (hc : Consistent p ts fs h) (hd : m.Due h) (hs : ∀ l, ¬m.Starts l)
    (he : m.Ends p.loop) (hk : q.kind = p.kind) (hl : q.loop = p.loop + 1) :
    Consistent q ts fs (m :: h) := by
  refine ⟨⟨hd, hc.lawful⟩, ?_, ?_, ?_, ?_, ?_⟩
  · intro l t c hm
    have := hc.bound l t c (Moment.mem_of_started_mem_cons (hs _) hm)
    omega
  · rintro l (hl | ⟨hne, hl⟩)
    · exact absurd hl (hs l)
    · exact absurd (hc.live l hl ▸ he) hne
  · -- the new number is greater than that of every loop that was started
    intro t c hm
    rw [hl] at hm
    have := hc.bound _ t c (Moment.mem_of_started_mem_cons (hs _) hm)
    omega
  · intro t ht hk'
    obtain ⟨task, c, hm⟩ := hc.timers t ht (hk'.trans hk)
    exact ⟨task, c, List.mem_cons_of_mem _ hm⟩
  · exact fun f hf => List.mem_cons_of_mem _ (hc.flights f hf)

/-! ### Steps -/

/-- A job started. -/
theorem start (hc : Consistent p ts fs h) (task : Doc) (context : Option κ) :
    Consistent (p.start ts task context).1 (p.start ts task context).2 fs
      (.started (p.loop + 1) task context :: h) := by
  have started : ∀ {l t c}, .started l t c ∈ h → l < p.loop + 1 :=
    fun hm => Nat.lt_succ_of_le (hc.bound _ _ _ hm)
  refine ⟨⟨fun l t c hm => started hm, hc.lawful⟩, ?_, ?_, ?_, ?_, ?_⟩
  · intro l t c hm
    rcases List.mem_cons.mp hm with he | hm
    · cases he
      exact Nat.le_refl _
    · exact Nat.le_of_lt (started hm)
  · rintro l (rfl | ⟨hne, -⟩)
    · rfl
    · exact absurd trivial hne
  · intro t c hm
    rcases List.mem_cons.mp hm with he | hm
    · cases he
      exact ⟨.inl rfl, rfl, rfl⟩
    · exact absurd (started hm) (Nat.lt_irrefl _)
  · intro u hu hk
    rcases timersFrom_start p ts task context u hu with ⟨t, ht, hkind, hloop⟩ | ⟨-, hloop⟩
    · obtain ⟨task', c, hm⟩ := hc.timers t ht (hkind.trans hk)
      exact ⟨task', c, List.mem_cons_of_mem _ (hloop ▸ hm)⟩
    · rw [hloop]
      exact ⟨task, context, List.mem_cons_self⟩
  · exact fun f hf => List.mem_cons_of_mem _ (hc.flights f hf)

/-- The running job given up. -/
theorem cancel (hc : Consistent p ts fs h) :
    Consistent (p.cancel ts).1 (p.cancel ts).2 fs (.cancelled :: h) := by
  have hq : Consistent (p.cancel ts).1 ts fs (.cancelled :: h) :=
    hc.ended trivial (fun _ => not_false) trivial rfl rfl
  refine { hq with timers := fun u hu hk => ?_ }
  obtain ⟨t, ht, hkind, hloop⟩ := mem_dropTimer hu
  rw [← hloop]
  exact hq.timers t ht (hkind.trans hk)

/-- A timer's poll: it belongs to the live loop, and asks about the job of this loop. -/
theorem poll (hc : Consistent p ts fs h) {t : Timer} {task : Doc} (ht : t ∈ ts)
    (hk : t.kind = p.kind) (hd : p.pollDue? t.loop = some task) :
    Consistent p ts (fs ++ [⟨t.loop, task⟩]) (.polled ⟨t.loop, task⟩ :: h) := by
  rw [pollDue?] at hd
  split at hd
  · next hl =>
    obtain rfl : p.task = task := Option.some.inj hd
    obtain ⟨task', c, hs⟩ := hc.timers t ht hk
    obtain ⟨hlive, rfl, -⟩ := hc.live_of_started hs hl.1
    have hq : Consistent p ts fs (.polled ⟨t.loop, p.task⟩ :: h) :=
      hc.quiet ⟨hlive, c, hs⟩ (fun _ => not_false) not_false
    refine hq.of_flights fun f hf => ?_
    rcases List.mem_append.mp hf with hf | hf
    · exact hq.flights f hf
    · rw [List.mem_singleton.mp hf]
      exact List.mem_cons_self
  · exact absurd hd (by simp)

/-- What follows, if a result is handed out only where that is due. -/
theorem follow (hc : Consistent p ts fs h) {next : Next κ}
    (hd : ∀ r c, next = .apply r c → (Moment.applied loop r c).Due h) :
    Consistent p ts fs (next.moments loop ++ h) := by
  cases next with
  | done => exact hc
  | tell e => exact hc.quiet trivial (fun _ => not_false) not_false
  | apply r c => exact hc.quiet (hd r c rfl) (fun _ => not_false) not_false

/-- An answer handled: a result is handed out only in answer to a poll of the live loop. -/
theorem settle (hc : Consistent p ts fs h) {f : Flight} (hf : f ∈ fs) (a : Option JobAnswer) :
    Consistent (p.settle ts f.loop a).1.1 (p.settle ts f.loop a).1.2 fs (.answered f a :: h) ∧
      ∀ r c, (p.settle ts f.loop a).2 = .apply r c →
        (Moment.applied f.loop r c).Due (.answered f a :: h) := by
  have hdue : (Moment.answered f a).Due h := hc.flights f hf
  obtain ⟨c, hs⟩ := hc.started_of_flight hf
  rcases settle_cases p ts f.loop a with ⟨hl, he⟩ | ⟨hl, hfin, q, delay, he, hk, hq⟩ |
    ⟨hl, b, q, next, rfl, hb, he, hk, hq, hnext⟩
  · rw [he]
    exact ⟨hc.quiet hdue (fun _ => not_false) fun hend => hl hend.1, fun _ _ hn => nomatch hn⟩
  · rw [he]
    have hc' := hc.quiet hdue (fun _ => not_false) fun hend => hfin hend.2
    refine ⟨?_, fun _ _ hn => nomatch hn⟩
    refine (hc'.of_poller hk hq.1 hq.2.1 hq.2.2).of_timers ((TimersFrom.refl ts _ _).arm delay) ?_
    exact fun _ => ⟨f.task, c, List.mem_cons_of_mem _ (hl ▸ hs)⟩
  · rw [he]
    refine ⟨hc.ended hdue (fun _ => not_false) ⟨hl, b, rfl, hb⟩ hk hq, ?_⟩
    rintro r c' rfl
    rcases hnext with ⟨hn, -⟩ | ⟨e, hn, -⟩ | ⟨hn, hsucc⟩
    · exact nomatch hn
    · exact nomatch hn
    · -- the context of the poller is that of the loop, which is live
      obtain ⟨rfl, rfl⟩ := Next.apply.inj hn
      obtain ⟨hlive, -, rfl⟩ := hc.live_of_started hs hl
      exact ⟨f.task, b, h, rfl, hsucc, rfl, hlive, hs⟩

/-- The outcome of applying a result handled. -/
theorem conclude (hc : Consistent p ts fs h) (finished : Nat) (r : Doc) (o : Result Unit) :
    Consistent (p.conclude finished r o).1 ts fs h := by
  obtain ⟨q, next, he, ⟨hk, hl, ht, hx⟩, -⟩ := conclude_cases p finished r o
  rw [he]
  exact hc.of_poller hk hl ht hx

end Consistent

end Poller

end AsmLens
