import AsmLens.Proofs.Assembly.Emission

/-!
# When an assembly runs out of its text

A listing fails at the first instruction of the primary file whose range ends beyond the text, and
at no other. A position need be looked up only where a range is met first: a range that was met
before lies in the text, so a repeated one hides nothing.

* `Instruction.Overruns` — that an instruction runs out of a text
* `Builder.problem?_fate` — such an instruction fails, and no other
* `Builder.addAll_snd`, `Builder.failure_runSection` — a run fails as its first instruction does
  that fails
* `Builder.Written.fateOnSight_eq` — positions looked up where a range is met first
* `Assembly.overrun_iff` — the main result
-/

namespace AsmLens

/-- That an instruction of the primary file comes from the range between two offsets, which is not
the one left out and ends beyond a text of `n` bytes. -/
structure Instruction.Overruns (n : Nat) (excluded : Option SourceRange) (i : Instruction)
    (first last : Int) : Prop where
  primary : i.source = some 0
  begins : i.first = some first
  ends : i.last = some last
  nonneg : 0 ≤ first
  ordered : first ≤ last
  kept : excluded ≠ some ⟨first, last⟩
  beyond : (n : Int) < last

/-- That an instruction comes from another file, lacks an offset, has a negative one or reversed ones,
or comes from the range left out. -/
inductive Instruction.Harmless (excluded : Option SourceRange) (i : Instruction) : Prop
  | foreign (h : i.source ≠ some 0)
  | unbegun (h : i.first = none)
  | unended (h : i.last = none)
  | negative {first : Int} (hf : i.first = some first) (h : first < 0)
  | reversed {first last : Int} (hf : i.first = some first) (hl : i.last = some last)
      (h : last < first)
  | leftOut {first last : Int} (hf : i.first = some first) (hl : i.last = some last)
      (h : excluded = some ⟨first, last⟩)

/-- The offset that lies beyond a text of `n` bytes: the first one if it does, or else the last. -/
def overrunOffset (n : Nat) (first last : Int) : Int := if (n : Int) < first then first else last

theorem Instruction.overruns_iff {n : Nat} {excluded : Option SourceRange} {i : Instruction}
    {first last : Int} :
    i.Overruns n excluded first last ↔
      i.range? = some ⟨first, last⟩ ∧ excluded ≠ some ⟨first, last⟩ ∧ (n : Int) < last := by
  rw [range?_eq_some]
  constructor
  · rintro ⟨hs, hf, hl, h₀, hle, hk, hn⟩
    exact ⟨⟨hs, hf, hl, h₀, hle⟩, hk, hn⟩
  · rintro ⟨⟨hs, hf, hl, h₀, hle⟩, hk, hn⟩
    exact ⟨hs, hf, hl, h₀, hle, hk, hn⟩

theorem Instruction.Harmless.not_overruns {n : Nat} {excluded : Option SourceRange} {i : Instruction}
    (h : i.Harmless excluded) (first last : Int) : ¬i.Overruns n excluded first last := by
  rintro ⟨hs, hf, hl, h₀, hle, hk, -⟩
  cases h with
  | foreign h => exact h hs
  | unbegun h => exact nomatch hf.symm.trans h
  | unended h => exact nomatch hl.symm.trans h
  | negative hf' h =>
    obtain rfl := Option.some.inj (hf.symm.trans hf')
    exact absurd h₀ (Int.not_le.mpr h)
  | reversed hf' hl' h =>
    obtain rfl := Option.some.inj (hf.symm.trans hf')
    obtain rfl := Option.some.inj (hl.symm.trans hl')
    exact absurd hle (Int.not_le.mpr h)
  | leftOut hf' hl' h =>
    obtain rfl := Option.some.inj (hf.symm.trans hf')
    obtain rfl := Option.some.inj (hl.symm.trans hl')
    exact hk h

/-- Of a range that starts in the primary file and ends beyond the text, the first offset is looked
up before the last. -/
theorem LineIndex.position_of_overrun {ix : LineIndex} {r : SourceRange} (h₀ : 0 ≤ r.first)
    (h : (ix.length : Int) < r.last) :
    ix.position r = .error (.outOfRange (overrunOffset ix.length r.first r.last) ix.length) := by
  rw [position, cursor_eq_error (o := r.last) (by omega), overrunOffset]
  by_cases hf : (ix.length : Int) < r.first
  · rw [if_pos hf, cursor_eq_error (by omega)]
    rfl
  · rw [if_neg hf, cursor_eq_ok h₀ (by omega)]
    rfl

namespace Builder

variable {b : Builder} {i : Instruction} {is : List Instruction} {p : Problem}

/-! ## Runs -/

/-- **An instruction fails exactly if it runs out of the text.** -/
theorem problem?_fate :
    (b.fate i).problem? = some p ↔ ∃ first last,
      i.Overruns b.index.length b.excluded first last ∧
        p = .outOfRange (overrunOffset b.index.length first last) b.index.length := by
  simp only [Instruction.overruns_iff]
  unfold fate
  cases hr : i.range? with
  | none => exact ⟨fun h => (nomatch h), fun ⟨_, _, ⟨h, _⟩, _⟩ => (nomatch h)⟩
  | some r =>
    obtain ⟨h₀, hle⟩ := Instruction.le_of_range? hr
    by_cases he : b.excluded = some r
    · simp only [if_pos he]
      refine ⟨fun h => (nomatch h), ?_⟩
      rintro ⟨first, last, ⟨hr, hk, -⟩, -⟩
      exact absurd (he.trans hr) hk
    · simp only [if_neg he]
      by_cases hn : r.last ≤ b.index.length
      · rw [LineIndex.position_eq_ok h₀ hle hn]
        refine ⟨fun h => (nomatch h), ?_⟩
        rintro ⟨first, last, ⟨hr, -, hlt⟩, -⟩
        obtain rfl := Option.some.inj hr
        exact absurd hn (Int.not_le.mpr hlt)
      · have hlt : (b.index.length : Int) < r.last := Int.not_le.mp hn
        rw [LineIndex.position_of_overrun h₀ hlt]
        constructor
        · intro h
          exact ⟨r.first, r.last, ⟨rfl, he, hlt⟩, (Option.some.inj h).symm⟩
        · rintro ⟨first, last, ⟨hr, -, -⟩, rfl⟩
          obtain rfl := Option.some.inj hr
          rfl

/-- What becomes of an instruction does not depend on those before it. -/
theorem fate_add (b : Builder) (i j : Instruction) : (b.add i).fate j = b.fate j := by
  unfold fate
  rw [index_add, excluded_add]

theorem fate_addSection (b : Builder) (s : Section) (is : List Instruction) (j : Instruction) :
    (b.addSection s is).1.fate j = b.fate j := by
  obtain ⟨hi, he⟩ := (b.emit s.header).index_addAll is
  unfold fate addSection
  rw [hi, he]
  rfl

/-- A run fails as the first of its instructions does that fails. -/
theorem addAll_snd (b : Builder) (is : List Instruction) :
    (b.addAll is).2 = is.findSome? fun i => (b.fate i).problem? := by
  induction is generalizing b with
  | nil => rfl
  | cons i is ih =>
    rw [addAll, List.findSome?_cons]
    cases hf : (b.fate i).problem? with
    | some p => rfl
    | none =>
      simp only [ih, fate_add]

theorem outcome_runSection (b : Builder) (s : Section) (is : List Instruction) :
    (b.runSection s is).outcome = match is.findSome? fun i => (b.fate i).problem? with
      | none => .ok (b.addSection s is).1
      | some p => .error (.problem p) := by
  have hsnd : (b.addSection s is).2 = is.findSome? fun i => (b.fate i).problem? :=
    addAll_snd (b.emit s.header) is
  rw [← hsnd, runSection, Traced.outcome_bind]
  cases b.addSection s is with
  | mk d q =>
    cases q with
    | none => rfl
    | some q => rfl

end Builder

namespace Assembly

/-- An assembly fails as the first of its instructions does that fails. -/
theorem tabulate_eq_error {a : Assembly} {b : Builder} {f : Failure} :
    (a.tabulate b).outcome = .error f ↔ ∃ p,
      ((a.constructor ++ a.runtime).findSome? fun i => (b.fate i).problem?) = some p ∧
        f = .problem p := by
  rw [tabulate, Traced.outcome_bind, Builder.outcome_runSection, List.findSome?_append]
  cases a.constructor.findSome? fun i => (b.fate i).problem? with
  | some p =>
    constructor
    · exact fun h => ⟨p, rfl, (Except.error.inj h).symm⟩
    · rintro ⟨q, hq, rfl⟩
      obtain rfl := Option.some.inj hq
      rfl
  | none =>
    -- the runtime code is added to what the constructor left, and fails as if it came first
    have hfate := b.fate_addSection .constructor a.constructor
    show ((b.addSection .constructor a.constructor).1.runSection .runtime a.runtime >>= _).outcome =
      _ ↔ _
    rw [Traced.outcome_bind, Builder.outcome_runSection]
    simp only [hfate]
    cases a.runtime.findSome? fun i => (b.fate i).problem? with
    | some p =>
      constructor
      · exact fun h => ⟨p, rfl, (Except.error.inj h).symm⟩
      · rintro ⟨q, hq, rfl⟩
        obtain rfl := Option.some.inj hq
        rfl
    | none => exact ⟨fun h => (nomatch h), fun ⟨_, h, _⟩ => (nomatch h)⟩

theorem exists_tabulate_eq_error {a : Assembly} {b : Builder} :
    (∃ f, (a.tabulate b).outcome = .error f) ↔
      ∃ i ∈ a.constructor ++ a.runtime, ∃ p, (b.fate i).problem? = some p := by
  simp only [tabulate_eq_error]
  constructor
  · rintro ⟨f, p, hp, -⟩
    obtain ⟨i, hi, hp⟩ := List.exists_of_findSome?_eq_some hp
    exact ⟨i, hi, p, hp⟩
  · rintro ⟨i, hi, p, hp⟩
    cases hf : (a.constructor ++ a.runtime).findSome? fun i => (b.fate i).problem? with
    | some q => exact ⟨_, q, rfl, rfl⟩
    | none => exact nomatch hp.symm.trans (List.findSome?_eq_none_iff.mp hf i hi)

end Assembly

/-! ## Looking positions up -/

namespace Builder

/-- What becomes of an instruction if a position is looked up only for a range that is met first. -/
def fateOnSight (b : Builder) (i : Instruction) : Fate :=
  match i.range? with
  | none => .unmapped
  | some r =>
    if b.excluded = some r then .dropped
    else
      match b.table.find? r.key with
      | some g => .mapped r g.position
      | none =>
        match b.index.position r with
        | .ok p => .mapped r p
        | .error e => .failed e

/-- **A range that was met before lies in the text**, at the position that was looked up then. -/
theorem Written.fateOnSight_eq {ix : LineIndex} {excluded : Option SourceRange} {o : Transcript}
    {b : Builder} (h : b.Written ix excluded o) (i : Instruction) : b.fateOnSight i = b.fate i := by
  unfold fateOnSight fate
  cases hr : i.range? with
  | none => rfl
  | some r =>
    by_cases he : b.excluded = some r
    · simp only [if_pos he]
    · simp only [if_neg he]
      cases hg : b.table.find? r.key with
      | none => rfl
      | some g =>
        obtain ⟨s, hs, hk, rfl⟩ := h.find?_eq_some.mp hg
        obtain rfl := SourceRange.key_injective hk
        obtain ⟨x, -, hx⟩ := List.mem_filterMap.mp hs
        obtain ⟨h₀, hle, hn⟩ := Origin.le_of_range? hx
        rw [h.index, LineIndex.position_eq_ok h₀ hle hn]
        rfl

end Builder

/-! ## Main result -/

/--
**An assembly fails exactly if an instruction runs out of the text.** Whatever the text, the
assembly and the range that is left out are: the listing fails if and only if some instruction of
the constructor or of the runtime code comes from the primary file, with offsets that are not
negative, not reversed and not those of the range left out, and ends beyond the text; and it fails
with the offset beyond the text of the first such instruction. Whatever was handed to the builder
before, any other instruction is taken without a failure, and looking positions up only where a
range is met first makes no difference.
-/
theorem Assembly.overrun_iff (source contract : String) (excluded : Option SourceRange)
    (generation : Int) (a : Assembly) :
    ((∃ f, (a.tabulate (.new (.ofText source) contract excluded generation)).outcome = .error f) ↔
      ∃ i ∈ a.constructor ++ a.runtime, ∃ first last,
        i.Overruns source.utf8ByteSize excluded first last) ∧
    (∀ f, (a.tabulate (.new (.ofText source) contract excluded generation)).outcome = .error f →
      ∃ before i after first last, a.constructor ++ a.runtime = before ++ i :: after ∧
        (∀ j ∈ before, ∀ x y, ¬j.Overruns source.utf8ByteSize excluded x y) ∧
        i.Overruns source.utf8ByteSize excluded first last ∧
        f = .problem (.outOfRange (overrunOffset source.utf8ByteSize first last)
          source.utf8ByteSize)) ∧
    ∀ cs i,
      (i.Harmless excluded → (((Builder.new (.ofText source) contract excluded generation).callAll
        cs).call (.single i)).2 = none) ∧
      ((Builder.new (.ofText source) contract excluded generation).callAll cs).fateOnSight i =
        ((Builder.new (.ofText source) contract excluded generation).callAll cs).fate i := by
  have hn : (LineIndex.ofText source).length = source.utf8ByteSize := LineIndex.length_ofText source
  have hfails : ∀ i p, ((Builder.new (.ofText source) contract excluded generation).fate i).problem? =
      some p ↔ ∃ first last, i.Overruns source.utf8ByteSize excluded first last ∧
        p = .outOfRange (overrunOffset source.utf8ByteSize first last) source.utf8ByteSize := by
    intro i p
    rw [← hn]
    exact Builder.problem?_fate
  refine ⟨⟨?_, ?_⟩, ?_, fun cs i => ?_⟩
  · intro hf
    obtain ⟨i, hi, p, hp⟩ := exists_tabulate_eq_error.mp hf
    obtain ⟨first, last, ho, -⟩ := (hfails i p).mp hp
    exact ⟨i, hi, first, last, ho⟩
  · rintro ⟨i, hi, first, last, ho⟩
    exact exists_tabulate_eq_error.mpr ⟨i, hi, _, (hfails i _).mpr ⟨first, last, ho, rfl⟩⟩
  · intro f hf
    obtain ⟨p, hp, rfl⟩ := tabulate_eq_error.mp hf
    obtain ⟨before, i, after, he, hp, hbefore⟩ := List.findSome?_eq_some_iff.mp hp
    obtain ⟨first, last, ho, rfl⟩ := (hfails i p).mp hp
    refine ⟨before, i, after, first, last, he, fun j hj x y hover => ?_, ho, rfl⟩
    exact nomatch (hbefore j hj).symm.trans ((hfails j _).mpr ⟨x, y, hover, rfl⟩)
  · have hw := (Builder.Written.new (.ofText source) contract excluded generation).callAll cs
    refine ⟨fun hi => ?_, hw.fateOnSight_eq i⟩
    refine (Builder.addAll_snd _ [i]).trans (List.findSome?_eq_none_iff.mpr fun j hj => ?_)
    obtain rfl := List.mem_singleton.mp hj
    refine Option.eq_none_iff_forall_ne_some.mpr fun p hp => ?_
    obtain ⟨first, last, ho, -⟩ := Builder.problem?_fate.mp hp
    rw [hw.excluded] at ho
    exact hi.not_overruns first last ho

end AsmLens
