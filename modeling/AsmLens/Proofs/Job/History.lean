import AsmLens.Job.Poller
import Mathlib.Data.List.Nodup

/-!
# What happens to a poller

The *history* of a poller says what was done to it and what it did, newest first. From a history
alone follows which loop is *live*: the one that was started last, unless it was cancelled or got
its final answer since.

* `Live` — the live loop of a history
* `Lawful` — histories in which every moment is due to what came before it
* `Lawful.nodup_started`, `Lawful.nodup_applied` — in these, no loop is started twice, and none
  hands out two results
-/

namespace AsmLens

/-- A poll whose answer has not come: the loop of the timer, and the job that was asked about. -/
structure Flight where
  loop : Nat
  task : Doc

/-- What happens to a poller, or what it does. -/
inductive Moment (κ : Type)
  /-- A job was started and opened a loop. -/
  | started (loop : Nat) (task : Doc) (context : Option κ)
  /-- The running job was given up. -/
  | cancelled
  /-- A timer asked about a job. -/
  | polled (f : Flight)
  /-- What came back was handled; it is no answer if the service could not be reached. -/
  | answered (f : Flight) (a : Option JobAnswer)
  /-- The result of a loop was handed out, with a context. -/
  | applied (loop : Nat) (result : Doc) (context : Option κ)
  /-- A failure was told. -/
  | told (e : Problem)

/-- A final answer: the job ended, or the service does not know it. -/
def Final (a : Option JobAnswer) : Prop := ∃ b, a = some b ∧ b.isPending = false

instance (a : Option JobAnswer) : Decidable (Final a) :=
  match a with
  | none => isFalse fun h => h.elim fun _ hb => Option.some_ne_none _ hb.1.symm
  | some b => decidable_of_iff (b.isPending = false)
      ⟨fun h => ⟨b, rfl, h⟩, fun ⟨_, h, hb⟩ => Option.some.inj h ▸ hb⟩

namespace Moment

variable {κ : Type}

/-- That a moment opens a loop. -/
def Starts (l : Nat) : Moment κ → Prop
  | started l' _ _ => l' = l
  | _ => False

/-- That a loop is over after a moment if it was live before: another one was opened, the running
job was given up, or the loop got its final answer. -/
def Ends (l : Nat) : Moment κ → Prop
  | started _ _ _ => True
  | cancelled => True
  | answered f a => f.loop = l ∧ Final a
  | _ => False

instance (l : Nat) (m : Moment κ) : Decidable (m.Starts l) :=
  match m with
  | started l' _ _ => inferInstanceAs (Decidable (l' = l))
  | cancelled | polled _ | answered _ _ | applied _ _ _ | told _ => instDecidableFalse

instance (l : Nat) (m : Moment κ) : Decidable (m.Ends l) :=
  match m with
  | answered f a => inferInstanceAs (Decidable (f.loop = l ∧ Final a))
  | started _ _ _ | cancelled => instDecidableTrue
  | polled _ | applied _ _ _ | told _ => instDecidableFalse

/-- The loop that a moment opens. -/
def startedLoop? : Moment κ → Option Nat
  | started l _ _ => some l
  | _ => none

/-- The loop whose result a moment hands out. -/
def appliedLoop? : Moment κ → Option Nat
  | applied l _ _ => some l
  | _ => none

end Moment

/-- Whether a loop was opened last and has not ended since; the history has the newest first. -/
def Live {κ : Type} : List (Moment κ) → Nat → Prop
  | [], _ => False
  | m :: h, l => m.Starts l ∨ ¬m.Ends l ∧ Live h l

instance decidableLive {κ : Type} (h : List (Moment κ)) (l : Nat) : Decidable (Live h l) :=
  match h with
  | [] => instDecidableFalse
  | m :: h => match decidableLive h l with
    | isTrue hl => decidable_of_iff (m.Starts l ∨ ¬m.Ends l) (by simp [Live, hl])
    | isFalse hl => decidable_of_iff (m.Starts l) (by simp [Live, hl])

/-- A live loop was started. -/
theorem Live.exists_started {κ : Type} {h : List (Moment κ)} {l : Nat} (hl : Live h l) :
    ∃ t c, .started l t c ∈ h := by
  induction h with
  | nil => exact hl.elim
  | cons m h ih =>
    rcases hl with hs | ⟨-, hl⟩
    · cases m with
      | started l' t c =>
        obtain rfl : l' = l := hs
        exact ⟨t, c, List.mem_cons_self⟩
      | _ => exact hs.elim
    · obtain ⟨t, c, hm⟩ := ih hl
      exact ⟨t, c, List.mem_cons_of_mem _ hm⟩

/-- A start is not in a moment that opens no loop. -/
theorem Moment.mem_of_started_mem_cons {κ : Type} {m : Moment κ} {h : List (Moment κ)} {l : Nat}
    {t : Doc} {c : Option κ} (hs : ¬m.Starts l) (hm : .started l t c ∈ m :: h) :
    .started l t c ∈ h := by
  rcases List.mem_cons.mp hm with rfl | hm
  · exact absurd rfl hs
  · exact hm

/-- That a moment is due to what came before it. -/
def Moment.Due {κ : Type} (h : List (Moment κ)) : Moment κ → Prop
  | started l _ _ => ∀ l' t c, started l' t c ∈ h → l' < l
  | polled f => Live h f.loop ∧ ∃ c, started f.loop f.task c ∈ h
  | answered f _ => polled f ∈ h
  | applied l r c => ∃ t a before, h = answered ⟨l, t⟩ (some a) :: before ∧ a.isSuccess = true ∧
      a.result = r ∧ Live before l ∧ started l t c ∈ before
  | cancelled => True
  | told _ => True

/-- A history in which every moment is due to what came before it. -/
def Lawful {κ : Type} : List (Moment κ) → Prop
  | [] => True
  | m :: h => m.Due h ∧ Lawful h

/-! ## Lawful histories -/

namespace Lawful

variable {κ : Type} {h : List (Moment κ)}

theorem due {newer older : List (Moment κ)} {m : Moment κ} (hl : Lawful (newer ++ m :: older)) :
    m.Due older ∧ Lawful older := by
  induction newer with
  | nil => exact hl
  | cons n newer ih => exact ih hl.2

theorem due_of_mem {m : Moment κ} (hl : Lawful h) (hm : m ∈ h) :
    ∃ newer older, h = newer ++ m :: older ∧ m.Due older ∧ Lawful older := by
  obtain ⟨newer, older, rfl⟩ := List.append_of_mem hm
  exact ⟨newer, older, rfl, hl.due⟩

/-- A loop that handed out a result had been started. -/
theorem exists_started {l : Nat} {r : Doc} {c : Option κ} (hl : Lawful h)
    (hm : .applied l r c ∈ h) : ∃ t, .started l t c ∈ h := by
  obtain ⟨newer, older, rfl, ⟨t, a, before, rfl, -, -, -, hs⟩, -⟩ := hl.due_of_mem hm
  exact ⟨t, by simp [hs]⟩

/-- A loop that handed out a result is over. -/
theorem not_live {l : Nat} {r : Doc} {c : Option κ} (hl : Lawful h) (hm : .applied l r c ∈ h) :
    ¬Live h l := by
  induction h with
  | nil => exact absurd hm List.not_mem_nil
  | cons m h ih =>
    obtain ⟨hd, hl⟩ := hl
    rintro (hs | ⟨-, hv⟩)
    · -- a loop of the same number would have been opened twice
      cases m with
      | started l' t' c' =>
        obtain rfl : l' = l := hs
        rcases List.mem_cons.mp hm with he | hm
        · exact nomatch he
        · obtain ⟨t, hst⟩ := exists_started hl hm
          exact absurd (hd _ _ _ hst) (Nat.lt_irrefl _)
      | _ => exact hs
    · rcases List.mem_cons.mp hm with rfl | hm
      · -- the answer that brought the result was final
        obtain ⟨t, a, before, rfl, hsucc, -, -, -⟩ := hd
        rcases hv with hs | ⟨he, -⟩
        · exact hs
        · exact he ⟨rfl, a, rfl, by simp [JobAnswer.isPending, hsucc]⟩
      · exact ih hl hm hv

/-- **No loop hands out two results.** -/
theorem nodup_applied (hl : Lawful h) : (h.filterMap Moment.appliedLoop?).Nodup := by
  induction h with
  | nil => exact List.nodup_nil
  | cons m h ih =>
    obtain ⟨hd, hl⟩ := hl
    cases m with
    | applied l r c =>
      show (l :: h.filterMap Moment.appliedLoop?).Nodup
      rw [List.nodup_cons]
      refine ⟨fun hmem => ?_, ih hl⟩
      obtain ⟨t, a, before, rfl, -, -, hv, -⟩ := hd
      obtain ⟨n, hn, he⟩ := List.mem_filterMap.mp hmem
      cases n with
      | applied l' r' c' =>
        obtain rfl : l' = l := Option.some.inj he
        rcases List.mem_cons.mp hn with hn | hn
        · exact nomatch hn
        · exact not_live hl.2 hn hv
      | _ => exact nomatch he
    | _ => exact ih hl

/-- No two starts open one loop. -/
theorem nodup_started (hl : Lawful h) : (h.filterMap Moment.startedLoop?).Nodup := by
  induction h with
  | nil => exact List.nodup_nil
  | cons m h ih =>
    obtain ⟨hd, hl⟩ := hl
    cases m with
    | started l t c =>
      show (l :: h.filterMap Moment.startedLoop?).Nodup
      rw [List.nodup_cons]
      refine ⟨fun hmem => ?_, ih hl⟩
      obtain ⟨n, hn, he⟩ := List.mem_filterMap.mp hmem
      cases n with
      | started l' t' c' =>
        obtain rfl : l' = l := Option.some.inj he
        exact absurd (hd _ _ _ hn) (Nat.lt_irrefl _)
      | _ => exact nomatch he
    | _ => exact ih hl

end Lawful

end AsmLens
