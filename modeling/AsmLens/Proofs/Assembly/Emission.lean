import AsmLens.Proofs.Assembly.Agreement

/-!
# What an assembly emits

The table of an assembly is made only if no instruction fails. Then every instruction has its line,
apart from those that are left out, and every range that is not left out lies in the text.

* `Instruction.isLeftOut` — which instructions are left out
* `Assembly.transcript` — the lines of an assembly
* `Assembly.agrees_of_tabulate` — the table of an assembly agrees with its lines
-/

namespace AsmLens

/-- An instruction has a range if it is one of the primary file, with ends that are in order. -/
theorem Instruction.range?_eq_some {i : Instruction} {first last : Int} :
    i.range? = some ⟨first, last⟩ ↔
      i.source = some 0 ∧ i.first = some first ∧ i.last = some last ∧ 0 ≤ first ∧ first ≤ last := by
  unfold range?
  constructor
  · intro h
    split at h
    · next hsource hfirst hlast =>
      split at h
      · exact nomatch h
      · next hne =>
        simp only [Option.some.injEq, SourceRange.mk.injEq] at h
        obtain ⟨rfl, rfl⟩ := h
        exact ⟨hsource, hfirst, hlast, by omega, by omega⟩
    · exact nomatch h
  · rintro ⟨hsource, hfirst, hlast, h₀, hle⟩
    have hne : ¬(first < 0 ∨ last < first) := by omega
    simp [hsource, hfirst, hlast, hne]

/-- Whether an instruction comes from the range that is left out. -/
def Instruction.isLeftOut (excluded : Option SourceRange) (i : Instruction) : Bool :=
  i.range?.isSome && i.range? = excluded

theorem Instruction.isLeftOut_iff {excluded : Option SourceRange} {i : Instruction} :
    i.isLeftOut excluded = true ↔ ∃ r, i.range? = some r ∧ excluded = some r := by
  unfold isLeftOut
  cases hr : i.range? with
  | none => simp
  | some r => simp [eq_comm]

/-- The lines of instructions of which none fails. -/
def emitted (excluded : Option SourceRange) (is : List Instruction) : Transcript :=
  (is.filter fun i => !i.isLeftOut excluded).map .code

/-- The lines of an assembly: those of the constructor and those of the runtime code, each below
their header. -/
def Assembly.transcript (a : Assembly) (excluded : Option SourceRange) : Transcript :=
  .header .constructor :: emitted excluded a.constructor ++
    .header .runtime :: emitted excluded a.runtime

/-- That the ranges of instructions end in a text of `n` bytes, apart from the one left out. -/
def EndsWithin (n : Nat) (excluded : Option SourceRange) (is : List Instruction) : Prop :=
  ∀ i ∈ is, ∀ r, i.range? = some r → excluded ≠ some r → r.last ≤ n

theorem transcribe_eq_emitted {n : Nat} {excluded : Option SourceRange} {is : List Instruction}
    (h : EndsWithin n excluded is) : transcribe n excluded is = emitted excluded is := by
  induction is with
  | nil => rfl
  | cons i is ih =>
    have ih := ih fun j hj => h j (List.mem_cons_of_mem _ hj)
    cases hr : i.range? with
    | none =>
      have hkept : i.isLeftOut excluded = false := by simp [Instruction.isLeftOut, hr]
      simp [transcribe, emitted, hr, hkept, ih]
    | some r =>
      by_cases he : excluded = some r
      · have hleft : i.isLeftOut excluded = true := Instruction.isLeftOut_iff.mpr ⟨r, hr, he⟩
        subst he
        simpa [transcribe, emitted, hr, hleft] using ih
      · have hkept : i.isLeftOut excluded = false := by
          simp [Instruction.isLeftOut, hr, Ne.symm he]
        have hn : r.last ≤ n := h i List.mem_cons_self r hr he
        simp [transcribe, emitted, hr, hkept, he, hn, ih]

/-! ## Runs without a failure -/

namespace Builder

variable {b : Builder}

theorem index_add (b : Builder) (i : Instruction) : (b.add i).index = b.index := by
  unfold add
  cases b.fate i <;> rfl

theorem excluded_add (b : Builder) (i : Instruction) : (b.add i).excluded = b.excluded := by
  unfold add
  cases b.fate i <;> rfl

theorem last_le_of_fate {i : Instruction} {r : SourceRange} (h : (b.fate i).problem? = none)
    (hr : i.range? = some r) (he : b.excluded ≠ some r) : r.last ≤ b.index.length := by
  -- a range past the end has no position, which is the one way to fail
  refine Int.not_lt.mp fun hlt => ?_
  obtain ⟨o, ho⟩ := LineIndex.position_eq_error hlt
  simp [fate, hr, he, ho, Fate.problem?] at h

theorem endsWithin_of_addAll {is : List Instruction} (h : (b.addAll is).2 = none) :
    EndsWithin b.index.length b.excluded is := by
  induction is generalizing b with
  | nil => intro i hi; simp at hi
  | cons i is ih =>
    rw [addAll] at h
    cases hf : (b.fate i).problem? with
    | some p => simp [hf] at h
    | none =>
      rw [hf] at h
      have hrest := ih h
      rw [index_add, excluded_add] at hrest
      intro j hj r hr he
      rcases List.mem_cons.mp hj with rfl | hj
      · exact last_le_of_fate hf hr he
      · exact hrest j hj r hr he

theorem index_addAll (b : Builder) (is : List Instruction) :
    (b.addAll is).1.index = b.index ∧ (b.addAll is).1.excluded = b.excluded := by
  induction is generalizing b with
  | nil => exact ⟨rfl, rfl⟩
  | cons i is ih =>
    rw [addAll]
    split
    · exact ⟨b.index_add i, b.excluded_add i⟩
    · rw [(ih _).1, (ih _).2]
      exact ⟨b.index_add i, b.excluded_add i⟩

theorem endsWithin_of_runSection {c : Builder} {s : Section} {is : List Instruction}
    (h : (b.runSection s is).outcome = .ok c) :
    EndsWithin b.index.length b.excluded is ∧ c.index = b.index ∧ c.excluded = b.excluded := by
  have hc := eq_of_runSection h
  rw [runSection, Traced.outcome_bind] at h
  cases hs : b.addSection s is with
  | mk d p =>
    cases p with
    | some p =>
      rw [hs] at h
      exact absurd h (by rintro ⟨⟩)
    | none =>
      have hall : ((b.emit s.header).addAll is).2 = none := congrArg Prod.snd hs
      have hends := endsWithin_of_addAll hall
      obtain ⟨hi, he⟩ := (b.emit s.header).index_addAll is
      rw [hc]
      exact ⟨hends, hi, he⟩

end Builder

/-! ## Main result -/

namespace Assembly

variable {a : Assembly} {source contract : String} {excluded : Option SourceRange}
  {generation : Int} {t : RegionTable}

theorem endsWithin_of_tabulate {b : Builder} (h : (a.tabulate b).outcome = .ok t) :
    EndsWithin b.index.length b.excluded (a.constructor ++ a.runtime) := by
  obtain ⟨c, hc, h⟩ := Traced.outcome_bind_eq_ok.mp h
  obtain ⟨d, hd, -⟩ := Traced.outcome_bind_eq_ok.mp h
  obtain ⟨hconstructor, hi, he⟩ := Builder.endsWithin_of_runSection hc
  obtain ⟨hruntime, -⟩ := Builder.endsWithin_of_runSection hd
  -- the runtime code is added to what the constructor left, which has the same text and exclusion
  rw [hi, he] at hruntime
  intro i hmem
  rcases List.mem_append.mp hmem with hmem | hmem
  · exact hconstructor i hmem
  · exact hruntime i hmem

/-- **The table of an assembly agrees with the lines of the assembly**, and the ranges of these
lines end in the text. -/
theorem agrees_of_tabulate
    (h : (a.tabulate (Builder.new (.ofText source) contract excluded generation)).outcome =
      .ok t) :
    Agrees source.utf8ByteSize excluded (a.transcript excluded) t ∧
      EndsWithin source.utf8ByteSize excluded (a.constructor ++ a.runtime) := by
  have hends : EndsWithin source.utf8ByteSize excluded (a.constructor ++ a.runtime) := by
    rw [← LineIndex.length_ofText]
    exact endsWithin_of_tabulate h
  have hlines : transcriptOf source excluded a.calls = a.transcript excluded := by
    have hc := transcribe_eq_emitted fun i hi => hends i (List.mem_append_left a.runtime hi)
    have hr := transcribe_eq_emitted fun i hi => hends i (List.mem_append_right a.constructor hi)
    simp [transcriptOf, calls, Builder.Call.transcript, transcript, hc, hr]
  refine ⟨?_, hends⟩
  rw [← hlines, eq_of_tabulate h]
  exact Builder.agrees_callAll source contract excluded generation a.calls

end Assembly

end AsmLens
