import AsmLens.Log.Note
import AsmLens.Problem

/-!
# Traced computations

A computation that leaves notes for the log whether or not it succeeds. What it
computes does not depend on the notes: `outcome` of a sequence is the sequence of
the outcomes.
-/

namespace AsmLens

/-- An outcome and the notes left on the way to it. -/
structure Traced (α : Type) where
  notes : List Note
  outcome : Result α

namespace Traced

variable {α β : Type}

/-- A value without notes. -/
protected def pure (a : α) : Traced α := ⟨[], .ok a⟩

/-- One computation after another. -/
protected def bind (x : Traced α) (f : α → Traced β) : Traced β :=
  match x.outcome with
  | .ok a => ⟨x.notes ++ (f a).notes, (f a).outcome⟩
  | .error e => ⟨x.notes, .error e⟩

instance : Monad Traced where
  pure := Traced.pure
  bind := Traced.bind

/-- An outcome without notes. -/
def ofResult (r : Result α) : Traced α := ⟨[], r⟩

instance : MonadLift (Except Failure) Traced where
  monadLift := ofResult

instance : MonadLift (Except Problem) Traced where
  monadLift r := ofResult (liftM r)

instance : MonadLift (Except Fault) Traced where
  monadLift r := ofResult (liftM r)

/-- One note. -/
def note (level : LogLevel) (origin message : String) : Traced Unit :=
  ⟨[⟨level, origin, message⟩], .ok ()⟩

/-- Some notes. -/
def tell (notes : List Note) : Traced Unit := ⟨notes, .ok ()⟩

/-- A failure. -/
def fail (p : Problem) : Traced α := ⟨[], Failure.raise p⟩

/-- A fault. -/
def fault (f : Fault) : Traced α := ⟨[], .error (.fault f)⟩

@[simp] theorem outcome_pure (a : α) : (pure a : Traced α).outcome = .ok a := rfl

/-- The outcome of a sequence is the sequence of the outcomes. -/
@[simp] theorem outcome_bind (x : Traced α) (f : α → Traced β) :
    (x >>= f).outcome = x.outcome >>= fun a => (f a).outcome := by
  show (Traced.bind x f).outcome = _
  unfold Traced.bind
  split <;> rename_i h <;> rw [h] <;> rfl

/-- A sequence succeeds if both parts do. -/
theorem outcome_bind_eq_ok {x : Traced α} {f : α → Traced β} {b : β} :
    (x >>= f).outcome = .ok b ↔ ∃ a, x.outcome = .ok a ∧ (f a).outcome = .ok b := by
  rw [outcome_bind]
  cases x.outcome with
  | ok a => exact ⟨fun h => ⟨a, rfl, h⟩, fun ⟨_, ha, h⟩ => Except.ok.inj ha ▸ h⟩
  | error e => exact ⟨fun h => (nomatch h), fun ⟨_, ha, _⟩ => (nomatch ha)⟩

/-- A sequence fails with its first part, or with what follows the value of that. -/
theorem outcome_bind_eq_error {x : Traced α} {f : α → Traced β} {e : Failure} :
    (x >>= f).outcome = .error e ↔
      x.outcome = .error e ∨ ∃ a, x.outcome = .ok a ∧ (f a).outcome = .error e := by
  rw [outcome_bind]
  cases x.outcome with
  | ok a => exact ⟨fun h => .inr ⟨a, rfl, h⟩, fun h => h.elim (fun h => (nomatch h))
      fun ⟨_, ha, h⟩ => Except.ok.inj ha ▸ h⟩
  | error d => exact ⟨fun h => .inl (congrArg Except.error (Except.error.inj h)),
      fun h => h.elim (fun h => congrArg Except.error (Except.error.inj h))
        fun ⟨_, ha, _⟩ => (nomatch ha)⟩

theorem pure_bind (a : α) (f : α → Traced β) : (pure a : Traced α) >>= f = f a := rfl

theorem lift_ok (a : α) : (liftM (.ok a : Except Fault α) : Traced α) = pure a := rfl

theorem bind_pure_bind {γ : Type} (x : Traced α) (f : α → β) (g : β → Traced γ) :
    ((x >>= fun a => pure (f a)) >>= g) = x >>= fun a => g (f a) := by
  obtain ⟨notes, outcome⟩ := x
  cases outcome with
  | error e => rfl
  | ok a =>
    have hnotes : notes ++ [] = notes := List.append_nil notes
    show Traced.mk ((notes ++ []) ++ (g (f a)).notes) _ = Traced.mk (notes ++ (g (f a)).notes) _
    rw [hnotes]

/-- What leaves no notes succeeds as it does by itself. -/
theorem outcome_lift_eq_ok {r : Except Problem α} {a : α} :
    (liftM r : Traced α).outcome = .ok a ↔ r = .ok a := by
  cases r with
  | ok b => exact ⟨fun h => congrArg Except.ok (Except.ok.inj h),
      fun h => congrArg Except.ok (Except.ok.inj h)⟩
  | error e => exact ⟨fun h => (nomatch h), fun h => (nomatch h)⟩

theorem outcome_liftFault_eq_ok {r : Except Fault α} {a : α} :
    (liftM r : Traced α).outcome = .ok a ↔ r = .ok a := by
  cases r with
  | ok b => exact ⟨fun h => congrArg Except.ok (Except.ok.inj h),
      fun h => congrArg Except.ok (Except.ok.inj h)⟩
  | error e => exact ⟨fun h => (nomatch h), fun h => (nomatch h)⟩

theorem outcome_liftFault_eq_fault {r : Except Fault α} {f : Fault} :
    (liftM r : Traced α).outcome = .error (.fault f) ↔ r = .error f := by
  cases r with
  | ok b => exact ⟨fun h => (nomatch h), fun h => (nomatch h)⟩
  | error g => exact ⟨fun h => congrArg Except.error (Failure.fault.inj (Except.error.inj h)),
      fun h => congrArg _ (congrArg Failure.fault (Except.error.inj h))⟩

/-- What every step of a walk over a list keeps, the whole walk keeps. -/
theorem of_outcome_foldlM {P : β → Prop} {f : β → α → Traced β} {l : List α} {b c : β}
    (hf : ∀ b a c, P b → (f b a).outcome = .ok c → P c) (hb : P b)
    (h : (l.foldlM f b).outcome = .ok c) : P c := by
  induction l generalizing b with
  | nil => exact Except.ok.inj h ▸ hb
  | cons a l ih =>
    obtain ⟨d, hd, h⟩ := outcome_bind_eq_ok.mp h
    exact ih (hf b a d hb hd) h

theorem exists_outcome_bind {x : Traced α} {f : α → Traced β} {a : α} (hx : x.outcome = .ok a)
    (hf : ∃ b, (f a).outcome = .ok b) : ∃ b, (x >>= f).outcome = .ok b := by
  obtain ⟨b, hb⟩ := hf
  exact ⟨b, outcome_bind_eq_ok.mpr ⟨a, hx, hb⟩⟩

/-- A walk over a list succeeds if every step does, wherever it starts. -/
theorem exists_outcome_foldlM {f : β → α → Traced β} {l : List α}
    (hf : ∀ a ∈ l, ∀ b, ∃ c, (f b a).outcome = .ok c) (b : β) :
    ∃ c, (l.foldlM f b).outcome = .ok c := by
  induction l generalizing b with
  | nil => exact ⟨b, rfl⟩
  | cons a l ih =>
    obtain ⟨d, hd⟩ := hf a List.mem_cons_self b
    exact exists_outcome_bind hd (ih (fun x hx => hf x (List.mem_cons_of_mem _ hx)) d)

@[simp] theorem outcome_ofResult (r : Result α) : (ofResult r).outcome = r := rfl

end Traced

end AsmLens
