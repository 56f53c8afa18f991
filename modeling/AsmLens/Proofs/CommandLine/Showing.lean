import AsmLens.CommandLine.Run
import AsmLens.Proofs.Problem
import AsmLens.Proofs.View.Resolve

/-!
# How showing a table ends

A table is shown line by line or as a document. Showing it fails only with the faults that its parts
meet: a row, a document, or the means of a measurement.

* `Action.Gives` — what an action gives on a console, and how it fails
* `Shows` — the faults that the parts of a table may meet
* `gives_showAnnotated`, `gives_showResolved` — how showing a table ends
-/

namespace AsmLens.CommandLine

open Terminal (Tone)

/-! ## Actions -/

/-- A failure that is a fault with a property. -/
def Faulty (Q : Fault → Prop) : Failure → Prop
  | .problem _ => False
  | .fault f => Q f

namespace Action

variable {α β : Type} {E : Failure → Prop} {x : Action α} {c : Console}

/-- On a console an action gives a value with a property, which may be one of the console as well, or
fails with something that has a property. -/
def Gives (E : Failure → Prop) (x : Action α) (c : Console) (J : Console → α → Prop) : Prop :=
  match x c with
  | (d, .ok a) => J d a
  | (_, .error e) => E e

theorem Gives.pure {J : Console → α → Prop} {a : α} (h : J c a) : Gives E (Pure.pure a) c J := h

theorem Gives.bind {f : α → Action β} {J : Console → α → Prop} {K : Console → β → Prop}
    (hx : Gives E x c J) (hf : ∀ d a, J d a → Gives E (f a) d K) : Gives E (x >>= f) c K := by
  unfold Gives at hx
  show match Action.bind x f c with
    | (d, .ok a) => K d a
    | (_, .error e) => E e
  rcases hc : x c with ⟨d, e | a⟩
  · rw [hc] at hx
    rw [Action.bind, hc]
    exact hx
  · rw [hc] at hx
    rw [Action.bind, hc]
    exact hf d a hx

theorem Gives.imp {E' : Failure → Prop} {J K : Console → α → Prop} (hx : Gives E x c J)
    (hE : ∀ e, E e → E' e) (hJ : ∀ d a, J d a → K d a) : Gives E' x c K := by
  unfold Gives at hx ⊢
  rcases hc : x c with ⟨d, e | a⟩
  · rw [hc] at hx
    exact hE e hx
  · rw [hc] at hx
    exact hJ d a hx

theorem Gives.problem {y : Except Problem α} (h : Raises y) :
    Gives Failure.Clean (liftM y) c fun d a => d = c ∧ y = .ok a := by
  cases y with
  | ok a => exact ⟨rfl, rfl⟩
  | error p => exact h p rfl

theorem Gives.fault {y : Except Fault α} {Q : Fault → Prop} (h : FailsOnly Q y) :
    Gives (Faulty Q) (liftM y) c fun d a => d = c ∧ y = .ok a := by
  cases y with
  | ok a => exact ⟨rfl, rfl⟩
  | error f => exact h f rfl

theorem Gives.traced {t : Traced α} (h : FailsOnly E t.outcome) :
    Gives E (liftM t) c fun d a => d = c.tell t.notes ∧ t.outcome = .ok a := by
  obtain ⟨notes, outcome⟩ := t
  cases outcome with
  | ok a => exact ⟨rfl, rfl⟩
  | error e => exact h e rfl

end Action

open CommandLine.Action (Gives)

variable {Q : Fault → Prop} {c : Console}

/-! ## Showing -/

theorem gives_print (line : String) : Gives (Faulty Q) (Action.print line) c fun _ _ => True := trivial

theorem gives_printLines {lines : List (Except Fault String)} (h : ∀ line ∈ lines, FailsOnly Q line) :
    Gives (Faulty Q) (printLines lines) c fun _ _ => True := by
  induction lines generalizing c with
  | nil => trivial
  | cons line lines ih =>
    refine .bind (.fault (h line List.mem_cons_self)) fun _ _ _ => .bind (gives_print _) fun _ _ _ => ?_
    exact ih fun l hl => h l (List.mem_cons_of_mem line hl)

/-- That the faults which showing a table may meet have a property. -/
structure Shows (Q : Fault → Prop) (found : Compilation) (t : RegionTable) : Prop where
  doc : ∀ listing, FailsOnly Q (found.toDoc (some t.contract) listing)
  row : ∀ r ∈ t.regions.values, ∀ on, FailsOnly Q (r.row on)
  functionRow : ∀ f ∈ t.functionGas, ∀ on, FailsOnly Q (RegionTable.functionRow on f)
  means : ∀ r ∈ t.regions.values, ∀ g, r.gas = some g → FailsOnly Q g.means
  rows : ∀ r ∈ t.regions.values, ∀ g, r.gas = some g → FailsOnly Q g.rows

theorem shows_any (found : Compilation) (t : RegionTable) : Shows (fun _ => True) found t :=
  ⟨fun _ _ _ => trivial, fun _ _ _ _ _ => trivial, fun _ _ _ _ _ => trivial,
    fun _ _ _ _ _ _ => trivial, fun _ _ _ _ _ _ => trivial⟩

variable {found : Compilation} {t : RegionTable}

theorem gives_printWithSummary (h : Shows Q found t) :
    Gives (Faulty Q) (printWithSummary t) c fun _ _ => True := by
  have table : ∀ c, Gives (Faulty Q) (printTable t) c fun _ _ => True := by
    refine fun c => .bind (J := fun _ _ => True) trivial fun look _ _ => .bind (gives_print _) fun _ _ _ =>
      gives_printLines fun line hline => ?_
    obtain ⟨r, hr, rfl⟩ := List.mem_map.mp hline
    exact h.row r (List.mem_mergeSort.mp hr) _
  have summary : ∀ c, Gives (Faulty Q) (printSummary t) c fun _ _ => True := by
    refine fun c => .bind (J := fun _ _ => True) trivial fun look _ _ => .bind (gives_print _) fun _ _ _ =>
      .bind (gives_printLines ?_) fun _ _ _ => ?_
    · intro line hline
      obtain ⟨p, -, rfl⟩ := List.mem_map.mp hline
      exact .ok _
    · dsimp only
      split
      · refine .bind (gives_print _) fun _ _ _ => gives_printLines fun line hline => ?_
        obtain ⟨f, hf, rfl⟩ := List.mem_map.mp hline
        exact h.functionRow f hf _
      · exact .pure trivial
  refine .bind (table c) fun d _ _ => ?_
  split
  · exact summary d
  · exact .pure trivial

theorem gives_showAnnotated (h : Shows Q found t) (o : AnnotateOptions) :
    Gives (Faulty Q) (showAnnotated o found t) c fun _ n => n = 0 := by
  refine .bind (J := fun _ _ => True) trivial fun _ _ _ => ?_
  dsimp only
  split
  · exact .bind (.fault (h.doc _)) fun _ _ _ => .bind (gives_print _) fun _ _ _ => .pure rfl
  · split
    · exact .bind (gives_print _) fun _ _ _ => .pure rfl
    · exact .bind (gives_printWithSummary h) fun _ _ _ => .pure rfl

theorem failsOnly_resolvedDoc (h : Shows Q found t) (o : ResolveOptions) :
    FailsOnly Q (resolvedDoc o t (t.resolve o.view o.cursor)) := by
  have members : ∀ r ∈ t.regions.values, FailsOnly Q (regionMembers r) := by
    intro r hr
    unfold regionMembers
    dsimp only
    split
    · exact .ok _
    · next g hg => exact (h.means r hr g hg).bind fun _ _ => .ok _
  unfold resolvedDoc
  cases hr : t.resolve o.view o.cursor with
  | none => exact .ok _
  | some r => exact (members r (RegionTable.of_resolve_eq_some hr).1).bind fun _ _ => .ok _

theorem gives_printRegion (h : Shows Q found t) {r : Region} (hr : r ∈ t.regions.values) :
    Gives (Faulty Q) (printRegion r) c fun _ _ => True := by
  refine .bind (J := fun _ _ => True) trivial fun look _ _ => .bind (gives_print _) fun _ _ _ =>
    .bind (.fault (h.row r hr _)) fun _ _ _ => .bind (gives_print _) fun _ _ _ => ?_
  split
  · next g hg =>
    refine .bind (.fault (h.rows r hr g hg)) fun _ lines _ => gives_printLines fun line hline => ?_
    obtain ⟨s, -, rfl⟩ := List.mem_map.mp hline
    exact .ok s
  · exact .pure trivial

theorem gives_showResolved (h : Shows Q found t) (o : ResolveOptions) :
    Gives (Faulty Q) (showResolved o t) c fun _ n => n = 0 := by
  unfold showResolved
  dsimp only
  split
  · exact .bind (.fault (failsOnly_resolvedDoc h o)) fun _ _ _ => .bind (gives_print _) fun _ _ _ =>
      .pure rfl
  · split
    · next r hr =>
      have hmem := (RegionTable.of_resolve_eq_some hr).1
      exact .bind (gives_printRegion h hmem) fun _ _ _ => .pure rfl
    · exact .bind (J := fun _ _ => True) trivial fun _ _ _ => .bind (gives_print _) fun _ _ _ => .pure rfl

end AsmLens.CommandLine
