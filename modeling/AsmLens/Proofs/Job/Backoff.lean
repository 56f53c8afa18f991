import AsmLens.Proofs.Job.Polling
import AsmLens.Proofs.Number.Doubling

/-!
# Backing off

The poller keeps one interval for all of its loops. It goes back to the base whenever a loop starts
or ends, and while a loop is live every answer that the job is pending, or that did not come, doubles
it. So the timers of a loop are spaced by what happened to this loop alone: the first comes after the
base, and the one that follows the `k`-th such answer after `2 ^ k` times the base, up to the limit.

* `deferrals` — how often a live loop was put off
* `Number.backoff` — the delays of a loop
* `Polling.Paced` — the invariant: the interval of the live loop, and the delays of all timers
* `Polling.backoff_law` — the main result
-/

namespace AsmLens

/-! ## Answers that put a loop off -/

variable {κ : Type}

/-- That a moment puts a loop off: an answer to the live loop that is not final. -/
def Moment.Defers (before : List (Moment κ)) (l : Nat) : Moment κ → Prop
  | .answered f a => f.loop = l ∧ ¬Final a ∧ Live before l
  | _ => False

instance (before : List (Moment κ)) (l : Nat) (m : Moment κ) : Decidable (m.Defers before l) :=
  match m with
  | .answered f a => inferInstanceAs (Decidable (f.loop = l ∧ ¬Final a ∧ Live before l))
  | .started _ _ _ | .cancelled | .polled _ | .applied _ _ _ | .told _ => instDecidableFalse

/-- How often a loop was put off while it was live. -/
def deferrals (l : Nat) : List (Moment κ) → Nat
  | [] => 0
  | m :: h => deferrals l h + if m.Defers h l then 1 else 0

theorem deferrals_cons_of_not {m : Moment κ} {h : List (Moment κ)} {l : Nat} (hm : ¬m.Defers h l) :
    deferrals l (m :: h) = deferrals l h := by
  rw [deferrals, if_neg hm, Nat.add_zero]

/-- A loop that was not started was not put off. -/
theorem deferrals_eq_zero {h : List (Moment κ)} {l : Nat} (hl : ∀ t c, .started l t c ∉ h) :
    deferrals l h = 0 := by
  induction h with
  | nil => rfl
  | cons m h ih =>
    have hold : ∀ t c, .started l t c ∉ h := fun t c hm => hl t c (List.mem_cons_of_mem m hm)
    rw [deferrals_cons_of_not, ih hold]
    cases m with
    | answered f a =>
      rintro ⟨-, -, hlive⟩
      obtain ⟨t, c, hm⟩ := hlive.exists_started
      exact hold t c hm
    | _ => exact not_false

/-! ## Delays -/

/-- The delays of the timers of a loop, oldest first. -/
def Timers.delays (ts : Timers) (l : Nat) : List Number :=
  (ts.filter fun t => t.loop = l).map Timer.delay

namespace Timers

theorem delays_arm (ts : Timers) (d : Number) (k : JobKind) (loop l : Nat) :
    (ts.arm d k loop).delays l = ts.delays l ++ if loop = l then [d] else [] := by
  unfold delays arm
  rw [List.filter_append, List.map_append]
  by_cases h : loop = l <;> simp [h]

/-- Cancelling a timer leaves the delays of all timers. -/
theorem delays_cancel (ts : Timers) (i l : Nat) : (ts.cancel i).delays l = ts.delays l := by
  unfold cancel
  induction ts generalizing i with
  | nil => cases i <;> rfl
  | cons t ts ih =>
    cases i with
    | zero =>
      rw [List.modify_zero_cons]
      unfold delays
      by_cases h : t.loop = l <;> simp [h]
    | succ i =>
      rw [List.modify_succ_cons]
      have hrest := ih i
      unfold delays at hrest ⊢
      by_cases h : t.loop = l <;> simp [h, hrest]

theorem delays_eq_nil {ts : Timers} {l : Nat} (h : ∀ t ∈ ts, t.loop ≠ l) : ts.delays l = [] := by
  rw [delays, List.filter_eq_nil_iff.mpr (by simpa using h), List.map_nil]

end Timers

theorem Poller.delays_dropTimer (p : Poller κ) (ts : Timers) (l : Nat) :
    (p.dropTimer ts).delays l = ts.delays l := by
  unfold dropTimer
  split
  · exact Timers.delays_cancel ..
  · rfl

namespace Number

/-- The delays of a loop: the base, and after `k` deferrals `2 ^ k` times the base up to a limit. -/
def backoff (base limit : Number) : Nat → Number
  | 0 => base
  | k + 1 => (base.doubled (k + 1)).min limit

/-- Each delay is twice the one before it, up to the limit. -/
theorem backoff_succ {base limit : Number} (hb : base.Nonneg) (hl : limit.Nonneg) (k : Nat) :
    base.backoff limit (k + 1) = (base.backoff limit k).double.min limit := by
  cases k with
  | zero => rfl
  | succ k => exact (min_double_min (hb.doubled (k + 1)) hl).symm

end Number

namespace Polling

variable {m : Polling κ} {base limit : Number}

/-! ## Invariant -/

/-- The interval of the live loop, and the delays of the timers of every loop that was started. -/
structure Paced (m : Polling κ) (base limit : Number) : Prop where
  base_eq : m.poller.base = base
  limit_eq : m.poller.limit = limit
  interval : Live m.history m.poller.loop →
    m.poller.interval = base.backoff limit (deferrals m.poller.loop m.history)
  delays : ∀ l t c, .started l t c ∈ m.history → m.timers.delays l =
    (List.range (deferrals l m.history + 1)).map (base.backoff limit)

namespace Paced

theorem new (kind : JobKind) (base limit : Option Number) :
    Paced (Polling.new kind base limit : Polling κ) (base.getD kind.intervals.1)
      (limit.getD kind.intervals.2) where
  base_eq := rfl
  limit_eq := rfl
  interval := fun h => h.elim
  delays := fun _ _ _ h => absurd h List.not_mem_nil

/-- A moment that puts no loop off, with a poller whose live loop has its interval and timers with
the same delays. -/
theorem quiet {n : Polling κ} {moment : Moment κ} (h : Paced m base limit)
    (hn : n.history = moment :: m.history) (hs : ∀ l, ¬moment.Starts l)
    (hd : ∀ l, ¬moment.Defers m.history l) (hb : n.poller.base = m.poller.base)
    (hl : n.poller.limit = m.poller.limit)
    (hi : Live n.history n.poller.loop →
      n.poller.loop = m.poller.loop ∧ n.poller.interval = m.poller.interval)
    (ht : ∀ l, n.timers.delays l = m.timers.delays l) : Paced n base limit := by
  refine ⟨hb.trans h.base_eq, hl.trans h.limit_eq, fun hlive => ?_, fun l t c hm => ?_⟩
  · obtain ⟨hloop, hinterval⟩ := hi hlive
    rw [hn, hloop] at hlive
    rw [hinterval, hloop, hn, deferrals_cons_of_not (hd _)]
    exact h.interval (hlive.resolve_left (hs _)).2
  · rw [hn] at hm ⊢
    rw [ht, deferrals_cons_of_not (hd l)]
    exact h.delays l t c (Moment.mem_of_started_mem_cons (hs l) hm)

theorem follow (h : Paced m base limit) (loop : Nat) (next : Poller.Next κ) :
    Paced (m.follow loop next) base limit := by
  cases next with
  | done => exact h
  | apply r c =>
    exact h.quiet rfl (fun _ => not_false) (fun _ => not_false) rfl rfl (fun _ => ⟨rfl, rfl⟩)
      fun _ => rfl
  | tell e =>
    exact h.quiet rfl (fun _ => not_false) (fun _ => not_false) rfl rfl (fun _ => ⟨rfl, rfl⟩)
      fun _ => rfl

/-! ### Steps -/

/-- A job started: its loop has no timers yet, and gets its first. -/
theorem start (h : Paced m base limit) (hs : Sound m) (task : Doc) (c : Option κ) :
    Paced (m.step (.start task c)) base limit := by
  have hold : ∀ {l t c}, .started l t c ∈ m.history → l < m.poller.loop + 1 :=
    fun hm => Nat.lt_succ_of_le (hs.consistent.bound _ _ _ hm)
  have hzero : deferrals (m.poller.loop + 1) m.history = 0 :=
    deferrals_eq_zero fun t c hm => Nat.lt_irrefl _ (hold hm)
  have hnone : m.timers.delays (m.poller.loop + 1) = [] := by
    refine Timers.delays_eq_nil fun t ht he => ?_
    obtain ⟨task', c', hm⟩ := hs.consistent.timers t ht (hs.timers t ht)
    exact Nat.lt_irrefl _ (he ▸ hold hm)
  have hdelays : ∀ l, (m.step (.start task c)).timers.delays l =
      m.timers.delays l ++ if m.poller.loop + 1 = l then [m.poller.base] else [] := by
    intro l
    rw [← m.poller.delays_dropTimer m.timers l]
    exact Timers.delays_arm ..
  have hsame : ∀ l, deferrals l (m.step (.start task c)).history = deferrals l m.history :=
    fun l => deferrals_cons_of_not not_false
  refine ⟨h.base_eq, h.limit_eq, fun _ => ?_, fun l t c' hm => ?_⟩
  · rw [hsame]
    show m.poller.base = base.backoff limit (deferrals (m.poller.loop + 1) m.history)
    rw [hzero, h.base_eq]
    rfl
  · rw [hdelays, hsame]
    rcases List.mem_cons.mp hm with he | hm
    · obtain rfl : l = m.poller.loop + 1 := (Moment.started.inj he).1
      rw [hnone, hzero, if_pos rfl, h.base_eq]
      rfl
    · rw [if_neg (Nat.ne_of_gt (hold hm)), List.append_nil]
      exact h.delays l t c' hm

theorem cancel (h : Paced m base limit) : Paced (m.step .cancel) base limit := by
  refine h.quiet rfl (fun _ => not_false) (fun _ => not_false) rfl rfl ?_
    (m.poller.delays_dropTimer m.timers)
  rintro (hs | ⟨he, -⟩)
  · exact hs.elim
  · exact absurd trivial he

theorem fire (h : Paced m base limit) (i : Nat) : Paced (m.step (.fire i)) base limit := by
  rw [step]
  cases ht : m.timers[i]? with
  | none => exact h
  | some t =>
    cases hd : m.poller.pollDue? t.loop with
    | none => simpa only [hd] using h
    | some task =>
      simp only [hd]
      exact h.quiet rfl (fun _ => not_false) (fun _ => not_false) rfl rfl (fun _ => ⟨rfl, rfl⟩)
        fun _ => rfl

/-- The live loop put off: its interval is doubled, and its next timer armed. -/
theorem deferred (h : Paced m base limit) (hb : base.Nonneg) (hl : limit.Nonneg) {f : Flight}
    (hf : f.loop = m.poller.loop) (hlive : Live m.history f.loop) {a : Option JobAnswer}
    (ha : ¬Final a) (fs : List Flight) :
    Paced { m with
      poller := { m.poller with
        timer := some m.timers.length
        interval := m.poller.interval.double.min m.poller.limit }
      timers := m.timers.arm (m.poller.interval.double.min m.poller.limit) m.poller.kind m.poller.loop
      flights := fs
      history := .answered f a :: m.history } base limit := by
  rw [hf] at hlive
  have hdefers : (Moment.answered f a).Defers m.history m.poller.loop := ⟨hf, ha, hlive⟩
  have hone : deferrals m.poller.loop (.answered f a :: m.history) =
      deferrals m.poller.loop m.history + 1 := by
    rw [deferrals, if_pos hdefers]
  have hnext : m.poller.interval.double.min m.poller.limit =
      base.backoff limit (deferrals m.poller.loop m.history + 1) := by
    rw [Number.backoff_succ hb hl, h.limit_eq, h.interval hlive]
  refine ⟨h.base_eq, h.limit_eq, fun _ => ?_, fun l t c hm => ?_⟩
  · show m.poller.interval.double.min m.poller.limit = base.backoff limit (deferrals m.poller.loop _)
    rw [hone, hnext]
  · have hold := h.delays l t c (Moment.mem_of_started_mem_cons (m := .answered f a) not_false hm)
    rw [Timers.delays_arm, hold]
    by_cases he : m.poller.loop = l
    · subst he
      rw [if_pos rfl, hone, hnext, List.range_succ (n := deferrals m.poller.loop m.history + 1),
        List.map_append]
      rfl
    · rw [if_neg he, List.append_nil, deferrals_cons_of_not]
      exact fun hd => he (hf.symm.trans hd.1)

theorem answer (h : Paced m base limit) (hb : base.Nonneg) (hl : limit.Nonneg) (hs : Sound m)
    (j : Nat) (a : Option JobAnswer) : Paced (m.step (.answer j a)) base limit := by
  rw [step]
  cases hf : m.flights[j]? with
  | none => exact h
  | some f =>
    have hstarted := hs.consistent.started_of_flight (List.mem_of_getElem? hf)
    rcases Poller.settle_outcomes m.poller m.timers f.loop a with ⟨hne, he⟩ | ⟨hloop, ⟨ha, he⟩ | hfin⟩
    · -- an answer to another loop than the poller's puts no loop off
      simp only [he]
      refine h.quiet rfl (fun _ => not_false) (fun l hd => ?_) rfl rfl (fun _ => ⟨rfl, rfl⟩)
        fun _ => rfl
      exact hne (hd.1.trans (hs.consistent.live l hd.2.2))
    · simp only [he]
      obtain ⟨c, hm⟩ := hstarted
      exact h.deferred hb hl hloop (hs.consistent.live_of_started hm hloop).1 ha _
    · -- a final answer ends the loop, and the poller's new one is not live
      obtain ⟨b, rfl, hb', hcases⟩ := hfin
      have hended : ∀ {q : Poller κ} {next : Poller.Next κ},
          m.poller.settle m.timers f.loop (some b) = ((q, m.timers), next) →
          q.base = m.poller.base → q.limit = m.poller.limit → q.loop = m.poller.loop + 1 →
          Paced { m with
            poller := q, flights := m.flights.eraseIdx j
            history := .answered f (some b) :: m.history } base limit := by
        intro q next _ hqb hql hqloop
        refine h.quiet rfl (fun _ => not_false) (fun l hd => hd.2.1 ⟨b, rfl, hb'⟩) hqb hql
          (fun hlive => ?_) fun _ => rfl
        rcases hlive with hst | ⟨-, hlive⟩
        · exact hst.elim
        · have : q.loop = m.poller.loop := hs.consistent.live _ hlive
          omega
      rcases hcases with ⟨-, he⟩ | ⟨-, e, he⟩ | ⟨-, -, he⟩ <;>
        simp only [he] <;> exact (hended he rfl rfl rfl).follow _ _

theorem conclude (h : Paced m base limit) (k : Nat) (o : Result Unit) :
    Paced (m.step (.conclude k o)) base limit := by
  rw [step]
  cases hx : m.applying[k]? with
  | none => exact h
  | some x =>
    have hsame : (m.poller.conclude x.finished x.result o).1.base = m.poller.base ∧
        (m.poller.conclude x.finished x.result o).1.limit = m.poller.limit ∧
        (m.poller.conclude x.finished x.result o).1.loop = m.poller.loop ∧
        (m.poller.conclude x.finished x.result o).1.interval = m.poller.interval := by
      unfold Poller.conclude
      split
      · exact ⟨rfl, rfl, rfl, rfl⟩
      · exact ⟨rfl, rfl, rfl, rfl⟩
      · split <;> exact ⟨rfl, rfl, rfl, rfl⟩
    obtain ⟨hb, hl, hloop, hinterval⟩ := hsame
    have hq : Paced { m with
        poller := (m.poller.conclude x.finished x.result o).1
        applying := m.applying.eraseIdx k } base limit := by
      refine ⟨hb.trans h.base_eq, hl.trans h.limit_eq, ?_, h.delays⟩
      dsimp only
      rw [hloop, hinterval]
      exact h.interval
    exact hq.follow _ _

/-- Every event keeps the timers paced. -/
theorem step (h : Paced m base limit) (hb : base.Nonneg) (hl : limit.Nonneg) (hs : Sound m)
    (e : Event κ) : Paced (m.step e) base limit := by
  cases e with
  | start task c => exact h.start hs task c
  | cancel => exact h.cancel
  | fire i => exact h.fire i
  | answer j a => exact h.answer hb hl hs j a
  | broken j => exact ⟨h.base_eq, h.limit_eq, h.interval, h.delays⟩
  | conclude k o => exact h.conclude k o

/-- **Every run keeps the timers paced.** -/
theorem run (h : Paced m base limit) (hb : base.Nonneg) (hl : limit.Nonneg) (hs : Sound m)
    (es : List (Event κ)) : Paced (m.run es) base limit := by
  induction es generalizing m with
  | nil => exact h
  | cons e es ih => exact ih (h.step hb hl hs e) (hs.step e)

end Paced

/-! ## Main result -/

/--
**A loop backs off from the base to the limit, whatever became of other loops.** In any run of any
poller whose base and limit are not negative: the timer that a start arms has the base as its delay,
and the timer that the `k`-th deferral of the live loop arms has `2 ^ k` times the base, or the limit
if that is less; a loop has these timers and no others. The multiples are exact, short of the
greatest finite number.
-/
theorem backoff_law {kind : JobKind} {base? limit? : Option Number} {es : List (Event κ)}
    (hbase : base?.getD kind.intervals.1 = base) (hlimit : limit?.getD kind.intervals.2 = limit)
    (hb : base.Nonneg) (hl : limit.Nonneg) (hm : (Polling.new kind base? limit?).run es = m) :
    (∀ task c, ∃ ts, (m.step (.start task c)).timers =
      ts ++ [⟨base, m.poller.kind, (m.step (.start task c)).poller.loop, false⟩]) ∧
    (∀ j f a, m.flights[j]? = some f → Live m.history f.loop → ¬Final a →
      (m.step (.answer j a)).timers = m.timers ++
        [⟨(base.doubled (deferrals f.loop m.history + 1)).min limit, m.poller.kind, f.loop, false⟩]) ∧
    (∀ l t c, .started l t c ∈ m.history → m.timers.delays l =
      base :: (List.range (deferrals l m.history)).map fun k => (base.doubled (k + 1)).min limit) ∧
    ∀ k, (base.doubled k).place? = base.timesPow2 k := by
  have hs : Sound m := hm ▸ (Sound.new kind base? limit?).run es
  have h : Paced m base limit := by
    have hnew := Paced.new (κ := κ) kind base? limit?
    rw [hbase, hlimit] at hnew
    exact hm ▸ hnew.run hb hl (.new kind base? limit?) es
  refine ⟨fun task c => ⟨m.poller.dropTimer m.timers, ?_⟩, fun j f a hf hlive ha => ?_,
    fun l t c hst => ?_, base.place?_doubled⟩
  · rw [← h.base_eq]
    rfl
  · have hloop := hs.consistent.live _ hlive
    rcases Poller.settle_outcomes m.poller m.timers f.loop a with
      ⟨hne, -⟩ | ⟨-, ⟨-, he⟩ | ⟨b, rfl, hp, -⟩⟩
    · exact absurd hloop hne
    · have hnext := h.interval (hloop ▸ hlive)
      simp only [Polling.step, hf, he]
      show m.timers ++ [_] = _
      rw [hnext, h.limit_eq, ← Number.backoff_succ hb hl, hloop]
      rfl
    · exact absurd ⟨b, rfl, hp⟩ ha
  · rw [h.delays l t c hst, List.range_succ_eq_map, List.map_cons, List.map_map]
    rfl

/-- A job that is superseded after two deferrals, by one that is polled once. -/
def supersededEvents : List (Event String) :=
  let pending := JobAnswer.known (.text "PENDING") .null
  [.start (.text "a") none, .fire 0, .answer 0 (some pending), .fire 1, .answer 0 none,
    .start (.text "b") none, .fire 3]

/-- The delays of the first job doubled twice; the second one starts again at the base. -/
theorem backoff_law_restarted :
    ∃ m : Polling String, (Polling.new .symexec none none).run supersededEvents = m ∧
      m.timers.delays 1 = [.float (.ofInt 5), .float (.ofInt 10), .float (.ofInt 20)] ∧
      (m.step (.answer 0 none)).timers = m.timers ++ [⟨.float (.ofInt 10), .symexec, 2, false⟩] := by
  have hbase : (none : Option Number).getD JobKind.symexec.intervals.1 = .float (.ofInt 5) := rfl
  have hlimit : (none : Option Number).getD JobKind.symexec.intervals.2 = .float (.ofInt 60) := rfl
  have hrun : (Polling.new .symexec none none).run supersededEvents = _ := rfl
  obtain ⟨-, hnext, hall, -⟩ :=
    backoff_law hbase hlimit (by decide +kernel) (by decide +kernel) hrun
  refine ⟨_, rfl, ?_, ?_⟩
  · refine (hall 1 (.text "a") none ?_).trans ?_
    · exact List.mem_of_getElem? (i := 6) (by with_unfolding_all rfl)
    · decide +kernel
  · refine (hnext 0 ⟨2, .text "b"⟩ none ?_ ?_ ?_).trans ?_
    · with_unfolding_all rfl
    all_goals decide +kernel

end Polling

end AsmLens
