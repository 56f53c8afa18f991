import AsmLens.Job.Rehearsal
import AsmLens.Proofs.Job.Polling

/-!
# Rehearsals are runs

A rehearsal puts the steps of a poller together as a program does: a tick asks, waits, takes the
answer, and applies the result at once. Each of its operations does what some events do, one after
another, and a listener is told what the history says. So what holds of every run holds of every
rehearsal.

* `World.Follows` — a rehearsal that stands where a run does
* `World.Follows.act`, `World.Follows.tick`, `World.Follows.fire` — it goes on as the run can
-/

namespace AsmLens.Rehearsal

open Polling (Event)

/-- What a listener is told of at a moment. -/
def Entry.ofMoment? : Moment Doc → Option Entry
  | .polled f => some (.polled f.task)
  | .applied _ r c => some (.result r (c.getD .null))
  | .told e => some (.failure e)
  | _ => none

/-- The events that an action consists of. -/
def Action.events (a : Action) : List (Event Doc) :=
  (a.start.map fun s => Event.start s.1 (some s.2)).toList ++ if a.cancel then [.cancel] else []

/-- A rehearsal that stands where a run does: a listener was told what the history says. -/
structure World.Follows (w : World) (m : Polling Doc) : Prop where
  poller : w.poller = m.poller
  timers : w.timers = m.timers
  entries : w.script.listens = true → w.entries = m.history.reverse.filterMap Entry.ofMoment?

namespace World.Follows

variable {w : World} {m : Polling Doc}

/-- A moment that nobody is told of. -/
theorem silent (h : w.Follows m) {n : Moment Doc} (hn : Entry.ofMoment? n = none) :
    w.Follows { m with history := n :: m.history } := by
  refine ⟨h.poller, h.timers, fun hl => ?_⟩
  rw [h.entries hl, List.reverse_cons, List.filterMap_append, List.filterMap_cons_none hn,
    List.filterMap_nil, List.append_nil]

/-- A moment that a listener is told of. -/
theorem record (h : w.Follows m) {n : Moment Doc} {e : Entry} (hn : Entry.ofMoment? n = some e) :
    (w.record e).Follows { m with history := n :: m.history } := by
  refine ⟨h.poller, h.timers, fun hl => ?_⟩
  show w.entries ++ [e] = _
  rw [h.entries hl, List.reverse_cons, List.filterMap_append, List.filterMap_cons_some hn,
    List.filterMap_nil]

theorem start (h : w.Follows m) (task context : Doc) :
    (w.put (w.poller.start w.timers task (some context))).Follows
      (m.step (.start task (some context))) := by
  rw [h.poller, h.timers]
  exact ⟨rfl, rfl, (h.silent (n := .started _ task (some context)) rfl).entries⟩

theorem cancel (h : w.Follows m) :
    (w.put (w.poller.cancel w.timers)).Follows (m.step .cancel) := by
  rw [h.poller, h.timers]
  exact ⟨rfl, rfl, (h.silent (n := .cancelled) rfl).entries⟩

/-- What is done from outside; polls in flight and results being applied stay. -/
theorem act (h : w.Follows m) (a : Action) :
    (w.act a).Follows (m.run a.events) ∧
      (m.run a.events).flights = m.flights ∧ (m.run a.events).applying = m.applying := by
  obtain ⟨_ | ⟨task, context⟩, cancel⟩ := a
  · cases cancel with
    | false => exact ⟨h, rfl, rfl⟩
    | true => exact ⟨h.cancel, rfl, rfl⟩
  · cases cancel with
    | false => exact ⟨h.start task context, rfl, rfl⟩
    | true => exact ⟨(h.start task context).cancel, rfl, rfl⟩

/-- A failure told, if there is a listener. -/
theorem tell (h : w.Follows m) (e : Problem) :
    ∃ es, (w.tell e).1.Follows
      (({ m with history := .told e :: m.history } : Polling Doc).run es) := by
  cases hl : w.script.listens with
  | false =>
    refine ⟨[], ?_⟩
    rw [World.tell, hl]
    exact ⟨h.poller, h.timers, fun ht => absurd (hl.symm.trans ht) Bool.false_ne_true⟩
  | true =>
    have hr := h.record (n := .told e) rfl
    cases hf : w.script.onFailure with
    | none =>
      refine ⟨[], ?_⟩
      rw [World.tell, hl]
      simp only [World.record, hf]
      exact hr
    | some task =>
      refine ⟨Action.events ⟨some (task, .null), false⟩, ?_⟩
      rw [World.tell, hl]
      simp only [World.record, hf]
      exact (hr.act ⟨some (task, .null), false⟩).1

/-- What follows an answer that ends no job well, or an outcome. -/
theorem follow (h : w.Follows m) {next : Poller.Next Doc} (hn : ∀ r c, next ≠ .apply r c)
    (loop : Nat) : ∃ es, (w.follow next).1.Follows ((m.follow loop next).run es) := by
  cases next with
  | done => exact ⟨[], h⟩
  | tell e => exact h.tell e
  | apply r c => exact absurd rfl (hn r c)

/-- The outcome of applying a result. -/
theorem conclude (h : w.Follows m) {xs : List Application} {x : Application}
    (hx : m.applying = xs ++ [x]) (o : Result Unit) :
    ∃ es, (World.follow { w with poller := (w.poller.conclude x.finished x.result o).1 }
      (w.poller.conclude x.finished x.result o).2).1.Follows (m.run es) := by
  have hat : m.applying[xs.length]? = some x := by
    rw [hx, List.getElem?_concat_length]
  cases he : m.poller.conclude x.finished x.result o with
  | mk q next =>
    have hstep : m.step (.conclude xs.length o) =
        Polling.follow { m with poller := q, applying := m.applying.eraseIdx xs.length } x.loop
          next := by
      simp only [Polling.step, hat, he]
    have hw : ({ w with poller := q } : World).Follows
        { m with poller := q, applying := m.applying.eraseIdx xs.length } :=
      ⟨rfl, h.timers, h.entries⟩
    have hn : ∀ r c, next ≠ .apply r c := by
      rintro r c rfl
      exact Poller.conclude_ne_apply _ _ _ _ _ _ (congrArg Prod.snd he)
    obtain ⟨es, hes⟩ := hw.follow hn x.loop
    rw [h.poller, he]
    refine ⟨.conclude xs.length o :: es, ?_⟩
    show Follows _ ((m.step (.conclude xs.length o)).run es)
    rw [hstep]
    exact hes

theorem run_append (m : Polling Doc) (es fs : List (Event Doc)) :
    m.run (es ++ fs) = (m.run es).run fs :=
  List.foldl_append

/-- A result handed out and applied. -/
theorem apply (h : w.Follows m) (loop : Nat) (r : Doc) (c : Option Doc) :
    ∃ es, (w.apply r c).1.Follows ((m.follow loop (.apply r c)).run es) := by
  cases hl : w.script.listens with
  | false =>
    -- without a listener there is nothing that could fail
    have hm : w.Follows (m.follow loop (.apply r c)) :=
      ⟨h.poller, h.timers, fun ht => absurd (hl.symm.trans ht) Bool.false_ne_true⟩
    obtain ⟨es, hes⟩ := hm.conclude (x := ⟨m.poller.loop, loop, r⟩) rfl (.ok ())
    refine ⟨es, ?_⟩
    rw [World.apply, hl]
    rw [← h.poller] at hes
    exact hes
  | true =>
    have hm : (w.record (.result r (c.getD .null))).Follows (m.follow loop (.apply r c)) := by
      have hr := h.record (n := .applied loop r c) rfl
      exact ⟨hr.poller, hr.timers, hr.entries⟩
    obtain ⟨ha, -, hx⟩ := hm.act (w.script.onResult w.poller.task).action
    obtain ⟨es, hes⟩ := ha.conclude (x := ⟨m.poller.loop, loop, r⟩) hx
      (w.script.onResult w.poller.task).ending
    refine ⟨(w.script.onResult w.poller.task).action.events ++ es, ?_⟩
    rw [run_append, World.apply, hl]
    rw [← h.poller] at hes
    exact hes

/-- The answer to a poll taken. -/
theorem settle (h : w.Follows m) {fs : List Flight} {f : Flight} (hf : m.flights = fs ++ [f])
    (a : Option JobAnswer) : ∃ es, (w.settle f.loop a).1.Follows (m.run es) := by
  have hat : m.flights[fs.length]? = some f := by
    rw [hf, List.getElem?_concat_length]
  cases hs : m.poller.settle m.timers f.loop a with
  | mk state next =>
    have hstep : m.step (.answer fs.length a) =
        Polling.follow { m with
          poller := state.1
          timers := state.2
          flights := m.flights.eraseIdx fs.length
          history := .answered f a :: m.history } f.loop next := by
      simp only [Polling.step, hat, hs]
    have hw : (w.put state).Follows { m with
        poller := state.1
        timers := state.2
        flights := m.flights.eraseIdx fs.length
        history := .answered f a :: m.history } :=
      ⟨rfl, rfl, (h.silent (n := .answered f a) rfl).entries⟩
    have hnext : ∃ es, (w.settle f.loop a).1.Follows ((m.step (.answer fs.length a)).run es) := by
      rw [hstep, World.settle, h.poller, h.timers, hs]
      cases next with
      | done => exact ⟨[], hw⟩
      | tell e => exact hw.tell e
      | apply r c => exact hw.apply f.loop r c
    obtain ⟨es, hes⟩ := hnext
    exact ⟨.answer fs.length a :: es, hes⟩

/-- The next exchange about a job is taken off the list; nothing else changes. -/
theorem nextExchange (h : w.Follows m) (task : Doc) : (w.nextExchange task).2.Follows m := by
  unfold World.nextExchange
  dsimp only
  split
  · split
    · exact ⟨h.poller, h.timers, h.entries⟩
    · exact h
  · exact h

/-- **A timer's poll in a rehearsal goes as a run does.** -/
theorem tick (h : w.Follows m) {i : Nat} {t : Timer} (ht : m.timers[i]? = some t) :
    ∃ es, (w.tick t).1.Follows (m.run es) := by
  rw [World.tick, h.poller]
  cases hd : m.poller.pollDue? t.loop with
  | none => exact ⟨[], h⟩
  | some task =>
    have hstep : m.step (.fire i) = { m with
        flights := m.flights ++ [⟨t.loop, task⟩]
        history := .polled ⟨t.loop, task⟩ :: m.history } := by
      simp only [Polling.step, ht, hd]
    have hr := (h.record (n := .polled ⟨t.loop, task⟩) rfl).nextExchange task
    have hw : ((w.record (.polled task)).nextExchange task).2.Follows (m.step (.fire i)) := by
      rw [hstep]
      exact ⟨hr.poller, hr.timers, hr.entries⟩
    cases he : (w.record (.polled task)).nextExchange task with
    | mk e v =>
      rw [he] at hw
      obtain ⟨ha, hf, -⟩ := hw.act e.meanwhile
      have hf : ((m.step (.fire i)).run e.meanwhile.events).flights =
          m.flights ++ [⟨t.loop, task⟩] := hf.trans (by rw [hstep])
      -- what is done meanwhile leaves the poll in flight, at the end of the list
      have answer : ∀ a, ∃ es, ((v.act e.meanwhile).settle t.loop a).1.Follows (m.run es) := by
        intro a
        obtain ⟨es, hes⟩ := ha.settle hf a
        refine ⟨.fire i :: (e.meanwhile.events ++ es), ?_⟩
        show Follows _ ((m.step (.fire i)).run (e.meanwhile.events ++ es))
        rw [run_append]
        exact hes
      cases hp : e.reply with
      | answer a =>
        simpa only [he, hp] using answer (some a)
      | unreached message =>
        simpa only [he, hp] using answer none
      | fault f =>
        refine ⟨.fire i :: e.meanwhile.events, ?_⟩
        simp only [he, hp]
        exact ha

/-- **A timer that fires in a rehearsal fires in a run, whether or not it was cancelled.** -/
theorem fire (h : w.Follows m) (i : Int) (force : Bool) :
    ∃ es, (w.fire i force).1.Follows (m.run es) := by
  rw [World.fire, h.timers]
  cases ht : (m.timers.resolve? i).bind (m.timers[·]?) with
  | none => exact ⟨[], h⟩
  | some t =>
    obtain ⟨j, -, hj⟩ := Option.bind_eq_some_iff.mp ht
    dsimp only
    split
    · exact ⟨[], h⟩
    · exact h.tick hj

end World.Follows

end AsmLens.Rehearsal
