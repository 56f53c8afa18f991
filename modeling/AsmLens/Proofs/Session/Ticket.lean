import AsmLens.Proofs.Session.Course

/-!
# Tickets

A symbolic execution is handed in under a ticket, is taken by the service under a name, and is
followed by a loop of the poller. The log of a session keeps these three together, so that from a
loop one gets to the contract and the generation that its job was handed in for.

* `Ticketed`, `Followed`, `Begun` — how the three refer to each other
* `Orderly` — a log in which they do, and in which no two jobs have one ticket
* `Orderly.append` — what has to be shown of the deeds that come to such a log
-/

namespace AsmLens.Course

open Deed

variable {log log' : List Deed}

/-- That a target is what a ticket was handed in for. -/
def Ticketed (log : List Deed) (ticket : Nat) (target : SymexecTarget) : Prop :=
  ∃ generation : Nat, target.generation = generation ∧
    .submitted ticket target.contract generation ∈ log

/-- That a loop was opened for a job that was handed in for its target, and taken. -/
def Followed (log : List Deed) (l : Nat) (t : Doc) (x : Option SymexecTarget) : Prop :=
  ∃ ticket task target, t = .text task ∧ x = some target ∧ Ticketed log ticket target ∧
    .accepted ticket task l ∈ log

/-- That a job that was taken has a loop, opened with what its ticket was handed in for. -/
def Begun (log : List Deed) (ticket : Nat) (task : String) (l : Nat) : Prop :=
  ∃ target, .symexec (.started l (.text task) (some target)) ∈ log ∧ Ticketed log ticket target

theorem Ticketed.mono (hl : ∀ d ∈ log, d ∈ log') {ticket : Nat} {target : SymexecTarget}
    (h : Ticketed log ticket target) : Ticketed log' ticket target := by
  obtain ⟨generation, hg, hs⟩ := h
  exact ⟨generation, hg, hl _ hs⟩

theorem Followed.mono (hl : ∀ d ∈ log, d ∈ log') {l : Nat} {t : Doc} {x : Option SymexecTarget}
    (h : Followed log l t x) : Followed log' l t x := by
  obtain ⟨ticket, task, target, ht, hx, hticket, ha⟩ := h
  exact ⟨ticket, task, target, ht, hx, hticket.mono hl, hl _ ha⟩

theorem Begun.mono (hl : ∀ d ∈ log, d ∈ log') {ticket l : Nat} {task : String}
    (h : Begun log ticket task l) : Begun log' ticket task l := by
  obtain ⟨target, hs, hticket⟩ := h
  exact ⟨target, hl _ hs, hticket.mono hl⟩

/-- A log in which loops, names and tickets of symbolic executions belong together. -/
structure Orderly (log : List Deed) : Prop where
  started : ∀ l t x, .symexec (.started l t x) ∈ log → Followed log l t x
  accepted : ∀ ticket task l, .accepted ticket task l ∈ log → Begun log ticket task l
  /-- The ticket is the number of deeds before. -/
  tickets : ∀ newer older ticket contract generation,
    log = newer ++ .submitted ticket contract generation :: older → ticket = older.length

/-- A deed that neither hands in nor takes nor starts a symbolic execution. -/
def Plain (d : Deed) : Prop :=
  (∀ ticket contract generation, d ≠ .submitted ticket contract generation) ∧
    (∀ ticket task l, d ≠ .accepted ticket task l) ∧ ∀ l t x, d ≠ .symexec (.started l t x)

theorem plain_ofKind {kind : JobKind} {m : ∀ κ, Moment κ}
    (hm : ∀ l t x, m SymexecTarget ≠ .started l t x) : Plain (.ofKind kind m) := by
  cases kind with
  | compile =>
    exact ⟨fun _ _ _ h => (nomatch h), fun _ _ _ h => (nomatch h), fun _ _ _ h => (nomatch h)⟩
  | symexec =>
    exact ⟨fun _ _ _ h => (nomatch h), fun _ _ _ h => (nomatch h),
      fun l t x h => hm l t x (Deed.symexec.inj h)⟩

namespace Orderly

theorem nil : Orderly [] where
  started := fun _ _ _ hm => absurd hm List.not_mem_nil
  accepted := fun _ _ _ hm => absurd hm List.not_mem_nil
  tickets := fun newer older ticket contract generation he => absurd he.symm (by simp)

/-- Deeds that come to a log: whatever they start or take belongs together with the rest, and
whatever they hand in has the number of deeds before as its ticket. -/
theorem append (h : Orderly log) (new : List Deed)
    (hs : ∀ l t x, .symexec (.started l t x) ∈ new → Followed (new ++ log) l t x)
    (ha : ∀ ticket task l, .accepted ticket task l ∈ new → Begun (new ++ log) ticket task l)
    (ht : ∀ newer older ticket contract generation,
      new = newer ++ .submitted ticket contract generation :: older →
        ticket = (older ++ log).length) : Orderly (new ++ log) := by
  have hl : ∀ d ∈ log, d ∈ new ++ log := fun d hd => List.mem_append_right _ hd
  refine ⟨fun l t x hm => ?_, fun ticket task l hm => ?_, ?_⟩
  · rcases List.mem_append.mp hm with hm | hm
    · exact hs l t x hm
    · exact (h.started l t x hm).mono hl
  · rcases List.mem_append.mp hm with hm | hm
    · exact ha ticket task l hm
    · exact (h.accepted ticket task l hm).mono hl
  · -- the job was handed in before the new deeds, or is one of them
    intro newer older ticket contract generation he
    rcases List.append_eq_append_iff.mp he with ⟨between, -, hlog⟩ | ⟨between, hnew, hrest⟩
    · exact h.tickets between older _ _ _ hlog
    · cases between with
      | nil => exact h.tickets [] older _ _ _ hrest.symm
      | cons d between =>
        obtain ⟨rfl, rfl⟩ := List.cons.inj hrest
        exact ht newer between _ _ _ hnew

theorem plain (h : Orderly log) {d : Deed} (hd : Plain d) : Orderly (d :: log) := by
  obtain ⟨hsub, hacc, hst⟩ := hd
  refine h.append [d] ?_ ?_ ?_
  · intro l t x hm
    exact absurd (List.mem_singleton.mp hm).symm (hst l t x)
  · intro ticket task l hm
    exact absurd (List.mem_singleton.mp hm).symm (hacc ticket task l)
  · intro newer older ticket contract generation he
    have hm : .submitted ticket contract generation ∈ [d] := he ▸ List.mem_append_cons_self
    exact absurd (List.mem_singleton.mp hm).symm (hsub ticket contract generation)

/-- A job handed in, under the next ticket. -/
theorem submitted (h : Orderly log) (contract : String) (generation : Nat) :
    Orderly (.submitted log.length contract generation :: log) := by
  refine h.append [.submitted log.length contract generation] ?_ ?_ ?_
  · intro l t x hm
    exact nomatch List.mem_singleton.mp hm
  · intro ticket task l hm
    exact nomatch List.mem_singleton.mp hm
  · intro newer older ticket contract' generation' he
    rcases List.append_eq_singleton_iff.mp he.symm with ⟨-, hd⟩ | ⟨-, hd⟩
    · obtain ⟨hsub, rfl⟩ := List.cons.inj hd
      exact (Deed.submitted.inj hsub).1
    · exact nomatch hd

/-- A job taken, and a loop opened for it. -/
theorem begun (h : Orderly log) {ticket : Nat} {target : SymexecTarget} (task : String) (l : Nat)
    (hticket : Ticketed log ticket target) :
    Orderly (.symexec (.started l (.text task) (some target)) ::
      .accepted ticket task l :: log) := by
  have hticket := hticket.mono fun d hd => List.mem_cons_of_mem (.symexec
    (.started l (.text task) (some target))) (List.mem_cons_of_mem (.accepted ticket task l) hd)
  refine h.append [.symexec (.started l (.text task) (some target)), .accepted ticket task l]
    ?_ ?_ ?_
  · intro l' t x hm
    rcases List.mem_pair.mp hm with he | he
    · obtain ⟨rfl, rfl, rfl⟩ := Moment.started.inj (Deed.symexec.inj he)
      exact ⟨ticket, task, target, rfl, rfl, hticket, by simp⟩
    · exact nomatch he
  · intro ticket' task' l' hm
    rcases List.mem_pair.mp hm with he | he
    · exact nomatch he
    · obtain ⟨rfl, rfl, rfl⟩ := Deed.accepted.inj he
      exact ⟨target, List.mem_cons_self, hticket⟩
  · intro newer older ticket' contract generation he
    have hm : Deed.submitted ticket' contract generation ∈
        [Deed.symexec (.started l (.text task) (some target)), .accepted ticket task l] :=
      he ▸ List.mem_append_cons_self
    rcases List.mem_pair.mp hm with he | he
    · exact nomatch he
    · exact nomatch he

/-- A ticket stands for one job. -/
theorem eq_of_ticket (h : Orderly log) {ticket : Nat} {contract contract' : String}
    {generation generation' : Nat} (hs : .submitted ticket contract generation ∈ log)
    (hs' : .submitted ticket contract' generation' ∈ log) :
    contract = contract' ∧ generation = generation' := by
  obtain ⟨newer, older, he⟩ := List.append_of_mem hs
  obtain ⟨newer', older', he'⟩ := List.append_of_mem hs'
  -- both stand at the same place of the log, which the ticket counts
  have hlen : older.length = older'.length :=
    (h.tickets newer older _ _ _ he).symm.trans (h.tickets newer' older' _ _ _ he')
  have htail := (List.append_inj' (he.symm.trans he') (by simp [hlen])).2
  exact (Deed.submitted.inj (List.cons.inj htail).1).2

end Orderly

end AsmLens.Course
