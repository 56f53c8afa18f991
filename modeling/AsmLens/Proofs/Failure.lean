import AsmLens.Log.Traced
import Mathlib.Data.List.Forall2

/-!
# How operations fail

Statements on the failures of operations, whatever they are: `FailsOnly P x` says that `x` gives a
value or fails with something that has the property `P`. It goes through computations step by
step, so every function of the program has a lemma on how it fails that follows its definition.

* `FailsOnly` — all failures have a property
* `FailsOnly.bind`, `mapM`, `tracedBind`, `tracedFoldlM` — one step after another
-/

namespace AsmLens

/-- What stands on the right of a relation between lists is related to something on the left. -/
theorem exists_of_forall₂ {α β : Type} {R : α → β → Prop} {l : List α} {bs : List β}
    (h : List.Forall₂ R l bs) {b : β} (hb : b ∈ bs) : ∃ a ∈ l, R a b := by
  induction h with
  | nil => exact absurd hb List.not_mem_nil
  | @cons a c l cs hac _ ih =>
    rcases List.mem_cons.mp hb with rfl | hb
    · exact ⟨a, List.mem_cons_self, hac⟩
    · obtain ⟨x, hx, hxb⟩ := ih hb
      exact ⟨x, List.mem_cons_of_mem a hx, hxb⟩

/-- If each element of a list is related to something, the list is. -/
theorem exists_forall₂ {α β : Type} {R : α → β → Prop} {l : List α} (h : ∀ a ∈ l, ∃ b, R a b) :
    ∃ bs, List.Forall₂ R l bs := by
  induction l with
  | nil => exact ⟨[], .nil⟩
  | cons a l ih =>
    obtain ⟨b, hb⟩ := h a List.mem_cons_self
    obtain ⟨bs, hbs⟩ := ih fun x hx => h x (List.mem_cons_of_mem a hx)
    exact ⟨b :: bs, .cons hb hbs⟩

/-- A value, or a failure that has a property. -/
def FailsOnly {ε α : Type} (P : ε → Prop) (x : Except ε α) : Prop := ∀ e, x = .error e → P e

namespace FailsOnly

variable {ε α β : Type} {P : ε → Prop}

theorem ok (a : α) : FailsOnly P (.ok a) := nofun

theorem error {e : ε} (h : P e) : FailsOnly P (.error e : Except ε α) := by
  intro d hd
  exact Except.error.inj hd ▸ h

theorem mono {Q : ε → Prop} {x : Except ε α} (hx : FailsOnly P x) (h : ∀ e, P e → Q e) :
    FailsOnly Q x :=
  fun e he => h e (hx e he)

theorem of_exists {x : Except ε α} (h : ∃ a, x = .ok a) : FailsOnly P x := by
  obtain ⟨a, rfl⟩ := h
  exact ok a

theorem bind {x : Except ε α} {f : α → Except ε β} (hx : FailsOnly P x)
    (hf : ∀ a, x = .ok a → FailsOnly P (f a)) : FailsOnly P (x >>= f) := by
  cases x with
  | ok a => exact hf a rfl
  | error e => exact error (hx e rfl)

theorem map {x : Except ε α} {f : α → β} (hx : FailsOnly P x) : FailsOnly P (x.map f) := by
  cases x with
  | ok a => exact ok (f a)
  | error e => exact error (hx e rfl)

theorem mapM {f : α → Except ε β} {l : List α} (hf : ∀ a ∈ l, FailsOnly P (f a)) :
    FailsOnly P (l.mapM f) := by
  induction l with
  | nil => exact ok []
  | cons a l ih =>
    rw [List.mapM_cons]
    exact bind (hf a List.mem_cons_self) fun _ _ =>
      bind (ih fun b hb => hf b (List.mem_cons_of_mem a hb)) fun _ _ => ok _

/-- A sequence gives a value if both parts do. -/
theorem bind_eq_ok {x : Except ε α} {f : α → Except ε β} {b : β} :
    (x >>= f) = .ok b ↔ ∃ a, x = .ok a ∧ f a = .ok b := by
  cases x with
  | ok a => exact ⟨fun h => ⟨a, rfl, h⟩, fun ⟨_, ha, h⟩ => Except.ok.inj ha ▸ h⟩
  | error e => exact ⟨fun h => (nomatch h), fun ⟨_, ha, _⟩ => (nomatch ha)⟩

/-- A sequence fails with its first part, or with what follows the value of that. -/
theorem bind_eq_error {x : Except ε α} {f : α → Except ε β} {e : ε} :
    (x >>= f) = .error e ↔ x = .error e ∨ ∃ a, x = .ok a ∧ f a = .error e := by
  cases x with
  | ok a => exact ⟨fun h => .inr ⟨a, rfl, h⟩, fun h => h.elim (fun h => (nomatch h))
      fun ⟨_, ha, h⟩ => Except.ok.inj ha ▸ h⟩
  | error d => exact ⟨fun h => .inl (congrArg Except.error (Except.error.inj h)),
      fun h => h.elim (fun h => congrArg Except.error (Except.error.inj h))
        fun ⟨_, ha, _⟩ => (nomatch ha)⟩

/-- A list is mapped to the values of its elements, one by one. -/
theorem mapM_eq_ok {f : α → Except ε β} {l : List α} {bs : List β} :
    l.mapM f = .ok bs ↔ List.Forall₂ (fun a b => f a = .ok b) l bs := by
  induction l generalizing bs with
  | nil =>
    rw [List.forall₂_nil_left_iff]
    exact ⟨fun h => (Except.ok.inj h).symm, fun h => congrArg Except.ok h.symm⟩
  | cons a l ih =>
    rw [List.mapM_cons, bind_eq_ok, List.forall₂_cons_left_iff]
    constructor
    · rintro ⟨b, hb, h⟩
      obtain ⟨cs, hcs, h⟩ := bind_eq_ok.mp h
      exact ⟨b, cs, hb, ih.mp hcs, (Except.ok.inj h).symm⟩
    · rintro ⟨b, cs, hb, hcs, rfl⟩
      exact ⟨b, hb, bind_eq_ok.mpr ⟨cs, ih.mpr hcs, rfl⟩⟩

/-- A list fails with the first of its elements that does. -/
theorem mapM_eq_error {f : α → Except ε β} {l : List α} {e : ε} :
    l.mapM f = .error e ↔ ∃ before a after, l = before ++ a :: after ∧
      (∀ x ∈ before, ∃ b, f x = .ok b) ∧ f a = .error e := by
  induction l with
  | nil =>
    refine ⟨fun h => (nomatch h), ?_⟩
    rintro ⟨before, a, after, h, -⟩
    exact absurd h (by simp)
  | cons a l ih =>
    rw [List.mapM_cons, bind_eq_error]
    constructor
    · rintro (h | ⟨b, hb, h⟩)
      · exact ⟨[], a, l, rfl, nofun, h⟩
      · rcases bind_eq_error.mp h with h | ⟨_, _, h⟩
        · obtain ⟨before, c, after, rfl, hbefore, hc⟩ := ih.mp h
          exact ⟨a :: before, c, after, rfl, List.forall_mem_cons.mpr ⟨⟨b, hb⟩, hbefore⟩, hc⟩
        · exact nomatch h
    · rintro ⟨before, c, after, hsplit, hbefore, hc⟩
      cases before with
      | nil =>
        obtain ⟨rfl, -⟩ := List.cons.inj hsplit
        exact .inl hc
      | cons x before =>
        obtain ⟨rfl, rfl⟩ := List.cons.inj hsplit
        obtain ⟨b, hb⟩ := hbefore a List.mem_cons_self
        have hrest := ih.mpr ⟨before, c, after, rfl,
          fun x hx => hbefore x (List.mem_cons_of_mem a hx), hc⟩
        exact .inr ⟨b, hb, bind_eq_error.mpr (.inl hrest)⟩

/-- What a list was mapped to came from its elements. -/
theorem mem_of_mapM {f : α → Except ε β} {l : List α} {bs : List β} (h : l.mapM f = .ok bs) {b : β}
    (hb : b ∈ bs) : ∃ a ∈ l, f a = .ok b :=
  exists_of_forall₂ (mapM_eq_ok.mp h) hb

/-! ## Outcomes -/

variable {Q : Failure → Prop}

theorem raise {p : Problem} (h : Q (.problem p)) : FailsOnly Q (Failure.raise p : Result α) :=
  error h

/-- Failures that are problems. -/
theorem liftProblem {x : Except Problem α} (hx : FailsOnly (fun p => Q (.problem p)) x) :
    FailsOnly Q (liftM x : Result α) := by
  cases x with
  | ok a => exact ok a
  | error p => exact error (hx p rfl)

/-- Failures that are faults. -/
theorem liftFault {x : Except Fault α} (hx : FailsOnly (fun f => Q (.fault f)) x) :
    FailsOnly Q (liftM x : Result α) := by
  cases x with
  | ok a => exact ok a
  | error f => exact error (hx f rfl)

theorem liftProblem_eq_ok {x : Except Problem α} {a : α} :
    (liftM x : Result α) = .ok a ↔ x = .ok a := by
  cases x with
  | ok b => exact ⟨fun h => congrArg Except.ok (Except.ok.inj h),
      fun h => congrArg Except.ok (Except.ok.inj h)⟩
  | error p => exact ⟨fun h => (nomatch h), fun h => (nomatch h)⟩

theorem liftFault_eq_ok {x : Except Fault α} {a : α} :
    (liftM x : Result α) = .ok a ↔ x = .ok a := by
  cases x with
  | ok b => exact ⟨fun h => congrArg Except.ok (Except.ok.inj h),
      fun h => congrArg Except.ok (Except.ok.inj h)⟩
  | error f => exact ⟨fun h => (nomatch h), fun h => (nomatch h)⟩

theorem liftProblem_eq_error {x : Except Problem α} {e : Failure} :
    (liftM x : Result α) = .error e ↔ ∃ p, x = .error p ∧ e = .problem p := by
  cases x with
  | ok b => exact ⟨fun h => (nomatch h), fun ⟨_, h, _⟩ => (nomatch h)⟩
  | error p => exact ⟨fun h => ⟨p, rfl, (Except.error.inj h).symm⟩,
      fun ⟨_, hp, he⟩ => by rw [he, ← Except.error.inj hp]; rfl⟩

theorem liftFault_eq_error {x : Except Fault α} {e : Failure} :
    (liftM x : Result α) = .error e ↔ ∃ f, x = .error f ∧ e = .fault f := by
  cases x with
  | ok b => exact ⟨fun h => (nomatch h), fun ⟨_, h, _⟩ => (nomatch h)⟩
  | error f => exact ⟨fun h => ⟨f, rfl, (Except.error.inj h).symm⟩,
      fun ⟨_, hf, he⟩ => by rw [he, ← Except.error.inj hf]; rfl⟩

/-! ## Traced computations -/

theorem tracedBind {x : Traced α} {f : α → Traced β} (hx : FailsOnly Q x.outcome)
    (hf : ∀ a, x.outcome = .ok a → FailsOnly Q (f a).outcome) :
    FailsOnly Q (x >>= f).outcome := by
  rw [Traced.outcome_bind]
  exact bind hx hf

theorem tracedProblem {x : Except Problem α} (hx : FailsOnly (fun p => Q (.problem p)) x) :
    FailsOnly Q (liftM x : Traced α).outcome := by
  cases x with
  | ok a => exact ok a
  | error p => exact error (hx p rfl)

theorem tracedFault {x : Except Fault α} (hx : FailsOnly (fun f => Q (.fault f)) x) :
    FailsOnly Q (liftM x : Traced α).outcome := by
  cases x with
  | ok a => exact ok a
  | error f => exact error (hx f rfl)

theorem tracedFoldlM {f : β → α → Traced β} {l : List α}
    (hf : ∀ a ∈ l, ∀ b, FailsOnly Q (f b a).outcome) (b : β) :
    FailsOnly Q (l.foldlM f b).outcome := by
  induction l generalizing b with
  | nil => exact ok b
  | cons a l ih =>
    rw [List.foldlM_cons]
    exact tracedBind (hf a List.mem_cons_self b) fun c _ =>
      ih (fun x hx => hf x (List.mem_cons_of_mem a hx)) c

end FailsOnly

end AsmLens
