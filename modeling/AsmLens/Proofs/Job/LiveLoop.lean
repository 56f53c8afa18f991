import AsmLens.Proofs.Job.Polling

/-!
# One live loop, and no poller stranded

A running poller waits for one thing: its timer, which will fire, or the answer to the poll that
this timer made. Which timers have fired, a poller does not know; that is said beside it here. A
timer fires once at most, and while a result is being applied the poller is busy: then no timer
fires and no answer is handled, but whoever applies the result may start and cancel jobs.

* `Poller.Tidy` — what a poller shows agrees with its status
* `Polling.Disciplined` — runs in which timers and answers come as they can
* `Polling.Steady` — the invariant: what is armed, what is asked, and what a running poller waits for
* `Polling.one_live_loop` — the main result
-/

namespace AsmLens

namespace Poller

variable {κ : Type} {p : Poller κ} {ts : Timers}

theorem length_dropTimer : (p.dropTimer ts).length = ts.length := by
  unfold dropTimer
  split
  · exact Timers.length_cancel ..
  · rfl

/-! ## What a poller shows -/

/-- There is a result only after success and an error only after a failure, and the interval is back
at its base when the job is over. -/
structure Tidy (p : Poller κ) : Prop where
  unfinished : p.status = .running ∨ p.status = .idle → p.result = .null ∧ p.error = none
  succeeded : p.status = .succeeded → p.error = none
  failed : p.status = .failed → p.error.isSome ∧ p.result = .null
  interval : p.status ≠ .running → p.interval = p.base

namespace Tidy

theorem new (kind : JobKind) (base limit : Option Number) :
    Tidy (Poller.new kind base limit : Poller κ) := by
  refine ⟨fun _ => ⟨rfl, rfl⟩, fun _ => rfl, ?_, fun _ => rfl⟩
  intro h
  exact nomatch h

theorem start (p : Poller κ) (ts : Timers) (task : Doc) (context : Option κ) :
    Tidy (p.start ts task context).1 := by
  refine ⟨fun _ => ⟨rfl, rfl⟩, fun _ => rfl, ?_, ?_⟩
  · intro h
    exact nomatch h
  · intro h
    exact absurd rfl h

theorem cancel (h : Tidy p) (ts : Timers) : Tidy (p.cancel ts).1 := by
  by_cases hs : p.status = .running
  · have hidle : (p.cancel ts).1.status = .idle := if_pos hs
    obtain ⟨hr, he⟩ := h.unfinished (.inl hs)
    refine ⟨fun _ => ⟨hr, he⟩, fun _ => he, ?_, fun _ => rfl⟩
    intro hf
    rw [hidle] at hf
    exact nomatch hf
  · have hsame : (p.cancel ts).1.status = p.status := if_neg hs
    refine ⟨?_, ?_, ?_, fun _ => rfl⟩
    · rw [hsame]; exact h.unfinished
    · rw [hsame]; exact h.succeeded
    · rw [hsame]; exact h.failed

theorem settle (h : Tidy p) {loop : Nat} (hr : loop = p.loop → p.status = .running)
    (ts : Timers) (a : Option JobAnswer) : Tidy (p.settle ts loop a).1.1 := by
  rcases settle_outcomes p ts loop a with ⟨-, he⟩ | ⟨hl, he⟩
  · rw [he]
    exact h
  · have hs := hr hl
    obtain ⟨hres, herr⟩ := h.unfinished (.inl hs)
    rcases he with ⟨-, he⟩ | ⟨b, -, -, ⟨-, he⟩ | ⟨-, e, he⟩ | ⟨-, -, he⟩⟩ <;> rw [he]
    · refine ⟨fun _ => ⟨hres, herr⟩, fun _ => herr, fun hf => ?_, fun hn => absurd hs hn⟩
      exact nomatch hs.symm.trans hf
    · exact ⟨fun _ => ⟨hres, herr⟩, fun _ => herr, fun hf => (nomatch hf), fun _ => rfl⟩
    · refine ⟨fun hf => ?_, fun hf => (nomatch hf), fun _ => ⟨rfl, hres⟩, fun _ => rfl⟩
      rcases hf with hf | hf <;> exact nomatch hf
    · refine ⟨fun _ => ⟨hres, herr⟩, fun _ => herr, fun hf => ?_, fun _ => rfl⟩
      exact nomatch hs.symm.trans hf

/-- The outcome of applying a result; until then the job is not over. -/
theorem conclude (h : Tidy p) (hs : p.status = .running ∨ p.status = .idle)
    (hi : p.interval = p.base) (finished : Nat) (r : Doc) (o : Result Unit) :
    Tidy (p.conclude finished r o).1 := by
  obtain ⟨hres, herr⟩ := h.unfinished hs
  have failed : ∀ e, Tidy (p.fail e) := by
    intro e
    refine ⟨fun hf => ?_, by rintro ⟨⟩, fun _ => ⟨rfl, hres⟩, fun _ => hi⟩
    rcases hf with ⟨⟨⟩⟩ | ⟨⟨⟩⟩
  rcases o with (e | f) | _
  · exact failed e
  · exact failed _
  · by_cases hl : p.loop ≠ finished
    · rw [Poller.conclude, if_pos hl]
      exact h
    · rw [Poller.conclude, if_neg hl]
      refine ⟨fun hf => ?_, fun _ => herr, by rintro ⟨⟩, fun _ => hi⟩
      rcases hf with ⟨⟨⟩⟩ | ⟨⟨⟩⟩

end Tidy

end Poller

namespace Polling

variable {κ : Type} {m : Polling κ} {fired : List Nat}

/-! ## Timers that fire once -/

/-- The timer that an event fires. -/
def Event.fired? : Event κ → Option Nat
  | .fire i => some i
  | _ => none

/-- The timers that fired in a run. -/
def firings (es : List (Event κ)) : List Nat := es.filterMap Event.fired?

/--
That an event can come after some timers have fired. A timer fires after it was started, and once;
timers and answers wait until a result has been applied; and every poll is answered, if only by
the service not being reached.
-/
def Permits (m : Polling κ) (fired : List Nat) : Event κ → Prop
  | .fire i => m.applying = [] ∧ i < m.timers.length ∧ i ∉ fired
  | .answer _ _ => m.applying = []
  | .broken _ => False
  | _ => True

/-- A run in which every event can come when it comes. -/
def Disciplined (m : Polling κ) (fired : List Nat) : List (Event κ) → Prop
  | [] => True
  | e :: es => m.Permits fired e ∧ Disciplined (m.step e) (fired ++ firings [e]) es

/-- A timer that is armed: it was started, and has neither fired nor been cancelled. -/
def Armed (m : Polling κ) (fired : List Nat) (i : Nat) (t : Timer) : Prop :=
  m.timers[i]? = some t ∧ t.cancelled = false ∧ i ∉ fired

/-- How many polls of a loop are in flight: their timers have fired, and no answer was handled. -/
def asking (m : Polling κ) (loop : Nat) : Nat := m.flights.countP fun f => f.loop = loop

/-! ## Invariant -/

/-- A running poller waits for its own timer, or for the answer to the poll of this timer. -/
def Waits (m : Polling κ) (fired : List Nat) : Prop :=
  ∃ i, m.poller.timer = some i ∧
    (i ∉ fired ∧ m.asking m.poller.loop = 0 ∨ i ∈ fired ∧ m.asking m.poller.loop = 1)

/-- What is armed, what is asked, and what a running poller waits for. -/
structure Steady (m : Polling κ) (fired : List Nat) : Prop where
  tidy : m.poller.Tidy
  /-- A timer that has not fired is the poller's own, or was cancelled with an earlier loop. -/
  unfired : ∀ i t, m.timers[i]? = some t → i ∉ fired →
    m.poller.timer = some i ∨ t.cancelled = true ∧ t.loop < m.poller.loop
  own : ∀ i, m.poller.timer = some i →
    ∃ t, m.timers[i]? = some t ∧ t.cancelled = false ∧ t.loop = m.poller.loop
  started : ∀ i ∈ fired, i < m.timers.length
  flights : ∀ f ∈ m.flights, f.loop ≤ m.poller.loop
  /-- A poller that does not run, or that is busy, asks nothing. -/
  quiet : m.poller.status ≠ .running ∨ m.applying ≠ [] → m.asking m.poller.loop = 0
  waits : m.poller.status = .running → (∀ x ∈ m.applying, x.finished ≠ m.poller.loop) →
    m.Waits fired
  /-- At most one result is being applied, and meanwhile the job is not over. -/
  busy : ∀ x ∈ m.applying, m.applying = [x] ∧ m.poller.interval = m.poller.base ∧
    (m.poller.status = .running ∨ m.poller.status = .idle)

theorem asking_eq_zero {loop : Nat} (h : ∀ f ∈ m.flights, f.loop < loop) : m.asking loop = 0 := by
  rw [asking, List.countP_eq_zero]
  intro f hf
  have := h f hf
  simp only [decide_eq_true_eq]
  omega

theorem countP_eraseIdx {α : Type} (p : α → Bool) {xs : List α} {j : Nat} {x : α}
    (h : xs[j]? = some x) :
    xs.countP p = (xs.eraseIdx j).countP p + if p x then 1 else 0 := by
  induction xs generalizing j with
  | nil => simp at h
  | cons y ys ih =>
    cases j with
    | zero =>
      obtain rfl : y = x := by simpa using h
      rw [List.eraseIdx_cons_zero, List.countP_cons]
    | succ j =>
      rw [List.eraseIdx_cons_succ, List.countP_cons, List.countP_cons, ih (by simpa using h)]
      omega

namespace Steady

theorem new (kind : JobKind) (base limit : Option Number) :
    Steady (Polling.new kind base limit : Polling κ) [] where
  tidy := .new kind base limit
  unfired := by
    intro i t ht
    simp [Polling.new] at ht
  own := by
    intro i hi
    exact nomatch hi
  started := by simp
  flights := by
    intro f hf
    exact absurd hf List.not_mem_nil
  quiet := fun _ => rfl
  waits := by
    intro h
    exact nomatch h
  busy := by
    intro x hx
    exact absurd hx List.not_mem_nil

/-! ### Starting and cancelling -/

/-- Once the poller's own timer is cancelled, every timer that has not fired is. -/
theorem dropTimer (h : Steady m fired) {i : Nat} {t : Timer}
    (ht : (m.poller.dropTimer m.timers)[i]? = some t) (hi : i ∉ fired) :
    t.cancelled = true ∧ t.loop < m.poller.loop + 1 := by
  rcases Poller.of_getElem?_dropTimer ht with ⟨hown, u, hu, rfl⟩ | ⟨hown, hu⟩
  · obtain ⟨v, hv, -, hloop⟩ := h.own i hown
    obtain rfl : u = v := Option.some.inj (hu.symm.trans hv)
    refine ⟨rfl, ?_⟩
    show u.loop < m.poller.loop + 1
    omega
  · rcases h.unfired i t hu hi with hown' | ⟨hc, hlt⟩
    · exact absurd hown' hown
    · exact ⟨hc, by omega⟩

theorem asking_succ (h : Steady m fired) : m.asking (m.poller.loop + 1) = 0 :=
  asking_eq_zero fun f hf => Nat.lt_succ_of_le (h.flights f hf)

theorem start (h : Steady m fired) (task : Doc) (c : Option κ) :
    Steady (m.step (.start task c)) fired := by
  have hlen : (m.poller.dropTimer m.timers).length = m.timers.length := Poller.length_dropTimer
  refine ⟨.start m.poller m.timers task c, ?_, ?_, ?_, ?_, fun _ => h.asking_succ, ?_, ?_⟩
  · intro i t ht hi
    change (m.poller.dropTimer m.timers ++ [_])[i]? = some t at ht
    rcases Nat.lt_trichotomy i (m.poller.dropTimer m.timers).length with hlt | rfl | hgt
    · rw [List.getElem?_append_left hlt] at ht
      exact .inr (h.dropTimer ht hi)
    · exact .inl rfl
    · rw [List.getElem?_eq_none (by simp; omega)] at ht
      cases ht
  · intro i hi
    obtain rfl : (m.poller.dropTimer m.timers).length = i := Option.some.inj hi
    exact ⟨_, List.getElem?_concat_length, rfl, rfl⟩
  · intro i hi
    have := h.started i hi
    show i < (m.poller.dropTimer m.timers ++ [_]).length
    rw [List.length_append, hlen]
    omega
  · intro f hf
    exact Nat.le_succ_of_le (h.flights f hf)
  · intro _ _
    refine ⟨_, rfl, .inl ⟨fun hf => ?_, h.asking_succ⟩⟩
    have := h.started _ hf
    omega
  · intro x hx
    exact ⟨(h.busy x hx).1, rfl, .inl rfl⟩

theorem cancel (h : Steady m fired) : Steady (m.step .cancel) fired := by
  have hstop : (m.poller.cancel m.timers).1.status ≠ .running := by
    show (if m.poller.status = .running then JobStatus.idle else m.poller.status) ≠ .running
    by_cases hs : m.poller.status = .running
    · rw [if_pos hs]
      decide
    · rw [if_neg hs]
      exact hs
  refine ⟨h.tidy.cancel m.timers, ?_, ?_, ?_, ?_, fun _ => h.asking_succ, ?_, ?_⟩
  · intro i t ht hi
    exact .inr (h.dropTimer ht hi)
  · intro i hi
    exact nomatch hi
  · intro i hi
    show i < (m.poller.dropTimer m.timers).length
    rw [Poller.length_dropTimer]
    exact h.started i hi
  · intro f hf
    exact Nat.le_succ_of_le (h.flights f hf)
  · intro hr
    exact absurd hr hstop
  · intro x hx
    obtain ⟨hone, -, hs⟩ := h.busy x hx
    refine ⟨hone, rfl, .inr ?_⟩
    show (if m.poller.status = .running then JobStatus.idle else m.poller.status) = .idle
    rcases hs with hs | hs <;> simp [hs]

/-! ### Timers and answers -/

/-- A timer fires for the first time: it is the poller's own, or its loop is over. -/
theorem fire (h : Steady m fired) {i : Nat} (hp : m.Permits fired (.fire i)) :
    Steady (m.step (.fire i)) (fired ++ [i]) := by
  obtain ⟨hfree, hlt, hnew⟩ := hp
  have hstarted : ∀ j ∈ fired ++ [i], j < m.timers.length := by
    intro j hj
    rcases List.mem_append.mp hj with hj | hj
    · exact h.started j hj
    · rw [List.mem_singleton.mp hj]
      exact hlt
  have hunfired : ∀ j t, m.timers[j]? = some t → j ∉ fired ++ [i] →
      m.poller.timer = some j ∨ t.cancelled = true ∧ t.loop < m.poller.loop := by
    intro j t ht hj
    exact h.unfired j t ht fun hf => hj (List.mem_append_left _ hf)
  have ht : m.timers[i]? = some m.timers[i] := List.getElem?_eq_getElem hlt
  rw [step, ht]
  by_cases hd : m.timers[i].loop = m.poller.loop ∧ m.poller.status = .running
  · -- the timer is the poller's own, since the others belong to earlier loops
    have hown : m.poller.timer = some i := by
      rcases h.unfired i _ ht hnew with hown | ⟨-, hold⟩
      · exact hown
      · omega
    obtain ⟨j, hj, ⟨-, hzero⟩ | ⟨hf, -⟩⟩ := h.waits hd.2 (by simp [hfree])
    · have hask : m.poller.pollDue? m.timers[i].loop = some m.poller.task := if_pos hd
      simp only [hask]
      refine ⟨h.tidy, hunfired, h.own, hstarted, ?_, ?_, ?_, h.busy⟩
      · intro f hf
        rcases List.mem_append.mp hf with hf | hf
        · exact h.flights f hf
        · rw [List.mem_singleton.mp hf]
          exact Nat.le_of_eq hd.1
      · intro hq
        rcases hq with hq | hq
        · exact absurd hd.2 hq
        · exact absurd hfree hq
      · intro _ _
        refine ⟨i, hown, .inr ⟨by simp, ?_⟩⟩
        unfold asking at hzero ⊢
        simp [List.countP_append, hzero, hd.1]
    · rw [hown] at hj
      exact absurd (Option.some.inj hj ▸ hf) hnew
  · have hask : m.poller.pollDue? m.timers[i].loop = none := if_neg hd
    simp only [hask]
    refine ⟨h.tidy, hunfired, h.own, hstarted, h.flights, h.quiet, ?_, h.busy⟩
    intro hr hx
    obtain ⟨j, hj, hw⟩ := h.waits hr hx
    -- the poller's own timer is another one, for this one would have asked
    have hne : j ≠ i := by
      rintro rfl
      obtain ⟨t, ht', -, hloop⟩ := h.own j hj
      obtain rfl : m.timers[j] = t := Option.some.inj (ht.symm.trans ht')
      exact hd ⟨hloop, hr⟩
    refine ⟨j, hj, ?_⟩
    rcases hw with ⟨hf, hzero⟩ | ⟨hf, hone⟩
    · exact .inl ⟨by simp [hf, hne], hzero⟩
    · exact .inr ⟨List.mem_append_left _ hf, hone⟩

/-- An answer to another loop than the poller's is discarded. -/
theorem discard (h : Steady m fired) {j : Nat} {f : Flight} (hf : m.flights[j]? = some f)
    (hl : f.loop ≠ m.poller.loop) (hist : List (Moment κ)) :
    Steady { m with flights := m.flights.eraseIdx j, history := hist } fired := by
  have hask : asking { m with flights := m.flights.eraseIdx j, history := hist } m.poller.loop =
      m.asking m.poller.loop := by
    have hcount := countP_eraseIdx (fun f : Flight => f.loop = m.poller.loop) hf
    rw [if_neg (by simpa using hl)] at hcount
    exact hcount.symm
  refine ⟨h.tidy, h.unfired, h.own, h.started, ?_, ?_, ?_, h.busy⟩
  · intro g hg
    exact h.flights g (List.mem_of_mem_eraseIdx hg)
  · intro hq
    exact hask.trans (h.quiet hq)
  · intro hr hx
    obtain ⟨i, hi, hw⟩ := h.waits hr hx
    refine ⟨i, hi, ?_⟩
    rw [show asking _ _ = _ from hask]
    exact hw

/-- An answer to the poller's loop is the one that it waits for: its timer has fired, and it asks
nothing else. -/
theorem awaited (h : Steady m fired) {j : Nat} {f : Flight} (hf : m.flights[j]? = some f)
    (hl : f.loop = m.poller.loop) :
    m.poller.status = .running ∧ (∀ i, m.poller.timer = some i → i ∈ fired) ∧
      (m.flights.eraseIdx j).countP (fun g => g.loop = m.poller.loop) = 0 := by
  have hcount := countP_eraseIdx (fun g : Flight => g.loop = m.poller.loop) hf
  rw [if_pos (by simpa using hl)] at hcount
  have hpos : m.asking m.poller.loop ≠ 0 := by
    unfold asking
    omega
  have hr : m.poller.status = .running := by
    by_contra hn
    exact hpos (h.quiet (.inl hn))
  have hfree : m.applying = [] := by
    by_contra hn
    exact hpos (h.quiet (.inr hn))
  obtain ⟨i, hi, ⟨-, hzero⟩ | ⟨hfired, hone⟩⟩ := h.waits hr (by simp [hfree])
  · exact absurd hzero hpos
  · refine ⟨hr, ?_, ?_⟩
    · intro k hk
      rw [hi] at hk
      exact Option.some.inj hk ▸ hfired
    · unfold asking at hone
      omega

/-- A final answer: the loop is over, and the poller has no timer. -/
theorem ended (h : Steady m fired) {j : Nat} {f : Flight} (hf : m.flights[j]? = some f)
    (hl : f.loop = m.poller.loop) {q : Poller κ} (hq : q.Tidy) (htimer : q.timer = none)
    (hloop : q.loop = m.poller.loop + 1) (hist : List (Moment κ)) {xs : List Application}
    (hw : q.status = .running → ∃ x ∈ xs, x.finished = q.loop)
    (hb : ∀ x ∈ xs, xs = [x] ∧ q.interval = q.base ∧ (q.status = .running ∨ q.status = .idle)) :
    Steady { m with
      poller := q, flights := m.flights.eraseIdx j, applying := xs, history := hist } fired := by
  obtain ⟨-, hfired, -⟩ := h.awaited hf hl
  have hle : ∀ g ∈ m.flights.eraseIdx j, g.loop ≤ m.poller.loop := by
    intro g hg
    exact h.flights g (List.mem_of_mem_eraseIdx hg)
  have hask : ∀ n : Polling κ, n.flights = m.flights.eraseIdx j → n.asking q.loop = 0 := by
    intro n hn
    refine asking_eq_zero fun g hg => ?_
    rw [hn] at hg
    rw [hloop]
    exact Nat.lt_succ_of_le (hle g hg)
  refine ⟨hq, ?_, ?_, h.started, ?_, fun _ => hask _ rfl, ?_, hb⟩
  · intro i t ht hi
    rcases h.unfired i t ht hi with hown | ⟨hc, hlt⟩
    · exact absurd (hfired i hown) hi
    · refine .inr ⟨hc, ?_⟩
      show t.loop < q.loop
      omega
  · intro i hi
    exact nomatch htimer.symm.trans hi
  · intro g hg
    show g.loop ≤ q.loop
    have := hle g hg
    omega
  · intro hr hx
    obtain ⟨x, hmem, he⟩ := hw hr
    exact absurd he (hx x hmem)

/-- The answer that the job is pending: the next timer is armed. -/
theorem rearmed (h : Steady m fired) {j : Nat} {f : Flight} (hf : m.flights[j]? = some f)
    (hl : f.loop = m.poller.loop) (delay : Number) (hist : List (Moment κ)) :
    Steady { m with
      poller := { m.poller with timer := some m.timers.length, interval := delay }
      timers := m.timers.arm delay m.poller.kind m.poller.loop
      flights := m.flights.eraseIdx j
      history := hist } fired := by
  obtain ⟨hr, hfired, hzero⟩ := h.awaited hf hl
  have hnew : m.timers.length ∉ fired := by
    intro hi
    have := h.started _ hi
    omega
  refine ⟨⟨h.tidy.unfinished, h.tidy.succeeded, h.tidy.failed, fun hn => absurd hr hn⟩, ?_, ?_,
    ?_, ?_, fun _ => hzero, ?_, ?_⟩
  · intro i t ht hi
    change (m.timers ++ [_])[i]? = some t at ht
    rcases Nat.lt_trichotomy i m.timers.length with hlt | rfl | hgt
    · rw [List.getElem?_append_left hlt] at ht
      rcases h.unfired i t ht hi with hown | hold
      · exact absurd (hfired i hown) hi
      · exact .inr hold
    · exact .inl rfl
    · rw [List.getElem?_eq_none (by simp; omega)] at ht
      cases ht
  · intro i hi
    obtain rfl : m.timers.length = i := Option.some.inj hi
    exact ⟨_, List.getElem?_concat_length, rfl, rfl⟩
  · intro i hi
    have := h.started i hi
    show i < (m.timers.arm delay m.poller.kind m.poller.loop).length
    rw [Timers.length_arm]
    omega
  · intro g hg
    exact h.flights g (List.mem_of_mem_eraseIdx hg)
  · intro _ _
    exact ⟨_, rfl, .inl ⟨hnew, hzero⟩⟩
  · intro x hx
    obtain ⟨hone, -⟩ := h.busy x hx
    have hbusy := h.quiet (.inr (by simp [hone]))
    have hcount := countP_eraseIdx (fun g : Flight => g.loop = m.poller.loop) hf
    rw [if_pos (by simpa using hl)] at hcount
    unfold asking at hbusy
    omega

theorem answer (h : Steady m fired) (j : Nat) (a : Option JobAnswer) (hfree : m.applying = []) :
    Steady (m.step (.answer j a)) fired := by
  rw [step]
  cases hf : m.flights[j]? with
  | none => exact h
  | some f =>
    have hq := h.tidy.settle (fun hl => (h.awaited hf hl).1) m.timers a
    rcases Poller.settle_outcomes m.poller m.timers f.loop a with ⟨hl, he⟩ | ⟨hl, he⟩
    · simp only [he]
      exact h.discard hf hl _
    · rcases he with ⟨-, he⟩ | ⟨b, -, -, ⟨-, he⟩ | ⟨-, e, he⟩ | ⟨-, -, he⟩⟩ <;>
        simp only [he] at hq ⊢
      · exact h.rearmed hf hl _ _
      · refine h.ended hf hl hq rfl rfl _ ?_ (by simp [hfree])
        rintro ⟨⟩
      · refine h.ended hf hl hq rfl rfl _ ?_ (by simp [hfree])
        rintro ⟨⟩
      · have hr : m.poller.status = .running := (h.awaited hf hl).1
        refine h.ended hf hl hq rfl rfl _
          (fun _ => ⟨_, List.mem_append_right _ List.mem_cons_self, rfl⟩) ?_
        intro x hx
        rw [hfree, List.nil_append] at hx ⊢
        exact ⟨by rw [List.mem_singleton.mp hx], rfl, .inl hr⟩

theorem conclude (h : Steady m fired) (k : Nat) (o : Result Unit) :
    Steady (m.step (.conclude k o)) fired := by
  rw [step]
  cases hx : m.applying[k]? with
  | none => exact h
  | some x =>
    obtain ⟨hone, hbase, hs⟩ := h.busy x (List.mem_of_getElem? hx)
    have hdone : m.applying.eraseIdx k = [] := by
      rw [hone] at hx ⊢
      cases k with
      | zero => rfl
      | succ k => simp at hx
    have htidy := h.tidy.conclude hs hbase x.finished x.result o
    have hquiet : m.asking m.poller.loop = 0 := h.quiet (.inr (by simp [hone]))
    -- whatever the outcome, only what the poller shows changes
    have shown : ∀ (q : Poller κ) (hist : List (Moment κ)), q.Tidy → q.timer = m.poller.timer →
        q.loop = m.poller.loop → (q.status = .running → q = m.poller ∧ x.finished ≠ m.poller.loop) →
        Steady { m with poller := q, applying := m.applying.eraseIdx k, history := hist } fired := by
      intro q hist hq ht hl hr
      refine ⟨hq, ?_, ?_, h.started, ?_, ?_, ?_, ?_⟩
      · intro i t hi hn
        show q.timer = some i ∨ t.cancelled = true ∧ t.loop < q.loop
        rw [ht, hl]
        exact h.unfired i t hi hn
      · intro i hi
        obtain ⟨t, hget, hc, hloop⟩ := h.own i (ht.symm.trans hi)
        exact ⟨t, hget, hc, hloop.trans hl.symm⟩
      · intro f hf
        exact Nat.le_trans (h.flights f hf) (Nat.le_of_eq hl.symm)
      · intro _
        show m.asking q.loop = 0
        rw [hl]
        exact hquiet
      · intro hrun _
        obtain ⟨rfl, hne⟩ := hr hrun
        refine h.waits hrun ?_
        intro y hy
        rw [hone] at hy
        rw [List.mem_singleton.mp hy]
        exact hne
      · rw [hdone]
        intro y hy
        exact absurd hy List.not_mem_nil
    rcases o with (e | f) | _
    · exact shown _ _ htidy rfl rfl (by rintro ⟨⟩)
    · exact shown _ _ htidy rfl rfl (by rintro ⟨⟩)
    · by_cases hl : m.poller.loop ≠ x.finished
      · have he : m.poller.conclude x.finished x.result (.ok ()) = (m.poller, .done) := if_pos hl
        simp only [he]
        exact shown m.poller m.history h.tidy rfl rfl fun _ => ⟨rfl, fun he => hl he.symm⟩
      · have he : m.poller.conclude x.finished x.result (.ok ()) =
            ({ m.poller with result := x.result, status := .succeeded }, .done) := if_neg hl
        simp only [he] at htidy ⊢
        exact shown _ _ htidy rfl rfl (by rintro ⟨⟩)

/-- Every event that can come keeps the poller steady. -/
theorem step (h : Steady m fired) {e : Event κ} (hp : m.Permits fired e) :
    Steady (m.step e) (fired ++ firings [e]) := by
  cases e with
  | start task c =>
    rw [show firings [Event.start task c] = [] from rfl, List.append_nil]
    exact h.start task c
  | cancel =>
    rw [show firings [(Event.cancel : Event κ)] = [] from rfl, List.append_nil]
    exact h.cancel
  | fire i => exact h.fire hp
  | answer j a =>
    rw [show firings [(Event.answer j a : Event κ)] = [] from rfl, List.append_nil]
    exact h.answer j a hp
  | broken j => exact hp.elim
  | conclude k o =>
    rw [show firings [(Event.conclude k o : Event κ)] = [] from rfl, List.append_nil]
    exact h.conclude k o

/-- **Every disciplined run keeps the poller steady.** -/
theorem run (h : Steady m fired) {es : List (Event κ)} (hd : m.Disciplined fired es) :
    Steady (m.run es) (fired ++ firings es) := by
  induction es generalizing m fired with
  | nil =>
    rw [show firings ([] : List (Event κ)) = [] from rfl, List.append_nil]
    exact h
  | cons e es ih =>
    obtain ⟨hp, hd⟩ := hd
    have hfire : firings (e :: es) = firings [e] ++ firings es := by
      show ([e] ++ es).filterMap Event.fired? = _
      rw [List.filterMap_append]
      rfl
    rw [hfire, ← List.append_assoc]
    exact ih (h.step hp) hd

end Steady

/--
**One live loop, and a running poller is never stranded.** After any disciplined run, while no
result is being applied: at most one timer is armed; a running poller either has one armed timer,
of its own loop, and asks nothing, or has none and asks once; and what it shows agrees with its
status.
-/
theorem one_live_loop {kind : JobKind} {base limit : Option Number} {es : List (Event κ)}
    (hd : (Polling.new kind base limit).Disciplined [] es)
    (hm : (Polling.new kind base limit).run es = m) (hfree : m.applying = []) :
    (∀ i j t u, m.Armed (firings es) i t → m.Armed (firings es) j u → i = j) ∧
    (m.poller.status = .running →
      ((∃ i t, m.Armed (firings es) i t ∧ t.loop = m.poller.loop) ∧ m.asking m.poller.loop = 0) ∨
      ((∀ i t, ¬m.Armed (firings es) i t) ∧ m.asking m.poller.loop = 1)) ∧
    (m.poller.status = .running ∨ m.poller.status = .idle →
      m.poller.result = .null ∧ m.poller.error = none) ∧
    (m.poller.status = .succeeded → m.poller.error = none) ∧
    (m.poller.status = .failed → m.poller.error.isSome ∧ m.poller.result = .null) ∧
    (m.poller.status ≠ .running → m.poller.interval = m.poller.base) := by
  have h : Steady m (firings es) := hm ▸ (Steady.new kind base limit).run hd
  have own : ∀ i t, m.Armed (firings es) i t → m.poller.timer = some i := by
    rintro i t ⟨ht, hc, hi⟩
    rcases h.unfired i t ht hi with hown | ⟨hc', -⟩
    · exact hown
    · exact absurd (hc.symm.trans hc') Bool.false_ne_true
  refine ⟨?_, ?_, h.tidy.unfinished, h.tidy.succeeded, h.tidy.failed, h.tidy.interval⟩
  · intro i j t u hi hj
    exact Option.some.inj ((own i t hi).symm.trans (own j u hj))
  · intro hr
    obtain ⟨i, hi, ⟨hf, hzero⟩ | ⟨hf, hone⟩⟩ := h.waits hr (by simp [hfree])
    · obtain ⟨t, ht, hc, hl⟩ := h.own i hi
      exact .inl ⟨⟨i, t, ⟨ht, hc, hf⟩, hl⟩, hzero⟩
    · refine .inr ⟨?_, hone⟩
      intro j t hj
      obtain rfl : i = j := Option.some.inj (hi.symm.trans (own j t hj))
      exact hj.2.2 hf

/-- A job that is superseded while it is asked about, another whose result starts a third and then
cannot be applied, and a fourth that is started when this is told. -/
theorem one_live_loop_restarted :
    ∃ (es : List (Event String)) (m : Polling String),
      (Polling.new .compile none none).Disciplined [] es ∧
      (Polling.new .compile none none).run es = m ∧ m.applying = [] ∧ m.timers.length = 4 ∧
      m.poller.status = .running ∧
      ((∃ i t, m.Armed (firings es) i t ∧ t.loop = m.poller.loop) ∧ m.asking m.poller.loop = 0 ∨
        (∀ i t, ¬m.Armed (firings es) i t) ∧ m.asking m.poller.loop = 1) := by
  let ended : Option JobAnswer := some (.known (.text "SUCCESS") .null)
  let es : List (Event String) :=
    [.start (.text "a") none, .fire 0, .start (.text "b") none, .answer 0 ended, .fire 1,
      .answer 0 ended, .start (.text "c") none, .conclude 0 (.error (.fault .noTimer)),
      .start (.text "d") none]
  have hd : (Polling.new .compile none none).Disciplined [] es :=
    ⟨trivial, ⟨rfl, by decide, by decide⟩, trivial, rfl, ⟨rfl, by decide, by decide⟩, rfl, trivial,
      trivial, trivial, trivial⟩
  have hfree : ((Polling.new .compile none none).run es).applying = [] := by with_unfolding_all rfl
  have hlength : ((Polling.new .compile none none).run es).timers.length = 4 := by decide +kernel
  have hrunning : ((Polling.new .compile none none).run es).poller.status = .running := by
    decide +kernel
  exact ⟨es, _, hd, rfl, hfree, hlength, hrunning, (one_live_loop hd rfl hfree).2.1 hrunning⟩

end Polling

end AsmLens
