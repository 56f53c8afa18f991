import AsmLens.Log.Traced

/-!
# Computations in place

A computation in place writes into a state as it goes, and what it wrote before a
failure stays written. If everything that can fail comes before the first write, it is
as good as a computation of the whole next state: it does all of it or nothing
(`Traced.settle`).
-/

namespace AsmLens

/-- A computation that writes into a state. -/
structure InPlace (σ α : Type) where
  run : σ → σ × Traced α

/-- The state after a computation of the next one; if the computation fails, it is the old one. -/
def Traced.settle {σ : Type} (t : Traced σ) (s : σ) : σ × Traced Unit :=
  (t.outcome.toOption.getD s, ⟨t.notes, t.outcome.map fun _ => ()⟩)

namespace InPlace

variable {σ τ α β : Type}

/-- A value, with nothing written. -/
protected def pure (a : α) : InPlace σ α := ⟨fun s => (s, pure a)⟩

/-- One computation after another; it goes on with what the first one left. -/
protected def bind (x : InPlace σ α) (f : α → InPlace σ β) : InPlace σ β where
  run s :=
    let (s, t) := x.run s
    match t.outcome with
    | .ok a =>
      let (s, u) := (f a).run s
      (s, ⟨t.notes ++ u.notes, u.outcome⟩)
    | .error e => (s, ⟨t.notes, .error e⟩)

instance : Monad (InPlace σ) where
  pure := InPlace.pure
  bind := InPlace.bind

/-- A computation that writes nothing. -/
def check (t : Traced α) : InPlace σ α := ⟨fun s => (s, t)⟩

/-- The state as it is. -/
def get : InPlace σ σ := ⟨fun s => (s, pure s)⟩

/-- A change of the state. -/
def write (f : σ → σ) : InPlace σ Unit := ⟨fun s => (f s, pure ())⟩

/-- One change for each item of a list. -/
def writeAll (f : σ → α → σ) : List α → InPlace σ Unit
  | [] => pure ()
  | a :: as => do
    write fun s => f s a
    writeAll f as

/-- A computation in a part of the state. -/
def on (part : σ → τ) (put : σ → τ → σ) (x : InPlace τ α) : InPlace σ α where
  run s :=
    let (t, r) := x.run (part s)
    (put s t, r)

/-! ## Step by step -/

theorem run_bind_ok {x : InPlace σ α} {f : α → InPlace σ β} {s s' : σ} {notes : List Note} {a : α}
    (h : x.run s = (s', ⟨notes, .ok a⟩)) :
    (x >>= f).run s =
      (((f a).run s').1, ⟨notes ++ ((f a).run s').2.notes, ((f a).run s').2.outcome⟩) := by
  show (InPlace.bind x f).run s = _
  simp [InPlace.bind, h]

theorem run_bind_error {x : InPlace σ α} {f : α → InPlace σ β} {s s' : σ} {notes : List Note}
    {e : Failure} (h : x.run s = (s', ⟨notes, .error e⟩)) :
    (x >>= f).run s = (s', ⟨notes, .error e⟩) := by
  show (InPlace.bind x f).run s = _
  simp [InPlace.bind, h]

theorem run_get_bind (f : σ → InPlace σ β) (s : σ) : (get >>= f).run s = (f s).run s := rfl

theorem run_write_bind (f : σ → σ) (g : Unit → InPlace σ β) (s : σ) :
    (write f >>= g).run s = (g ()).run (f s) := rfl

theorem run_writeAll (f : σ → α → σ) (as : List α) (s : σ) :
    (writeAll f as).run s = (as.foldl f s, pure ()) := by
  induction as generalizing s with
  | nil => rfl
  | cons a as ih => rw [writeAll, run_write_bind, ih, List.foldl_cons]

theorem run_writeAll_bind (f : σ → α → σ) (as : List α) (g : Unit → InPlace σ β) (s : σ) :
    (writeAll f as >>= g).run s = (g ()).run (as.foldl f s) := by
  rw [run_bind_ok (run_writeAll f as s)]
  rfl

/-! ## All or nothing -/

/-- What can fail comes first, when nothing is written yet. -/
theorem settle_bind {t : Traced α} {f : α → InPlace σ Unit} {g : α → Traced σ} {s : σ}
    (h : ∀ a, t.outcome = .ok a → (f a).run s = (g a).settle s) :
    (check t >>= f).run s = (t >>= g).settle s := by
  obtain ⟨notes, outcome⟩ := t
  cases outcome with
  | error e => rfl -- nothing was written on either side
  | ok a =>
    have hrun : (check ⟨notes, .ok a⟩ : InPlace σ α).run s = (s, ⟨notes, .ok a⟩) := rfl
    rw [run_bind_ok hrun, h a rfl]
    rfl

/-- What is written last cannot fail any more. -/
theorem settle_write {x : InPlace σ Unit} {y : Unit → InPlace σ Unit} {t : Traced σ} {s : σ}
    {f : σ → σ} {notes : σ → List Note} (hx : x.run s = t.settle s)
    (hy : ∀ s, (y ()).run s = (f s, Traced.tell (notes s))) :
    (x >>= y).run s = (t >>= fun s => ⟨notes s, .ok (f s)⟩).settle s := by
  obtain ⟨ns, outcome⟩ := t
  cases outcome with
  | error e => exact run_bind_error hx
  | ok s' =>
    rw [run_bind_ok hx, hy]
    rfl

/-- A part of the state is changed as a whole or not at all, and so is the state. -/
theorem settle_on {part : σ → τ} {put : σ → τ → σ} {x : InPlace τ Unit} {t : Traced τ} {s : σ}
    (hx : x.run (part s) = t.settle (part s)) (hput : put s (part s) = s) :
    (on part put x).run s = (t >>= fun u => pure (put s u)).settle s := by
  obtain ⟨ns, outcome⟩ := t
  show (put s (x.run (part s)).1, (x.run (part s)).2) = _
  rw [hx]
  cases outcome with
  | error e => exact congrArg (·, _) hput
  | ok u =>
    have hnotes : ns ++ [] = ns := List.append_nil ns
    show (put s u, Traced.mk ns _) = (put s u, Traced.mk (ns ++ []) _)
    rw [hnotes]
    rfl

end InPlace

end AsmLens
