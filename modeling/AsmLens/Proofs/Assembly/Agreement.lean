import AsmLens.Proofs.Assembly.Transcript

/-!
# The listing and the regions agree

A builder makes the listing and the regions at once. Whatever calls it took, and whichever of
them failed, the two agree line for line: a line lies in a span of a region exactly when an
instruction of that range emitted it.

* `Agrees` — what the agreement of a transcript and a table consists of
* `listing_agrees` — the table of every run agrees with the transcript of the run
-/

namespace AsmLens

/-- The origin of a listing line; lines are counted from one. -/
def lineAt (o : Transcript) (l : Int) : Option Origin :=
  if l < 1 then none else o[(l - 1).toNat]?

/-- The table of a transcript: what its lines and its regions say of each other. -/
structure Agrees (n : Nat) (excluded : Option SourceRange) (o : Transcript) (t : RegionTable) :
    Prop where
  lines : t.lines.toList = o.map Origin.text
  /-- A line lies in a span of a region if an instruction emitted it whose range has the key of
  the region and lies in the text, and only then. -/
  covered : ∀ (k : String) (l : Int), (∃ r, t.find? k = some r ∧ Span.Covers r.spans l) ↔
    ∃ i r, lineAt o l = some (.code i) ∧ i.range? = some r ∧ r.key = k ∧ r.last ≤ n
  /-- A line belongs to one region at most. -/
  unique : ∀ p ∈ t.regions.toList, ∀ q ∈ t.regions.toList, ∀ l,
    Span.Covers p.2.spans l → Span.Covers q.2.spans l → p = q
  /-- Headers, instructions without a range and instructions that failed belong to none. -/
  uncovered : ∀ l, (∀ i r, lineAt o l = some (.code i) → i.range? = some r → n < r.last) →
    ∀ p ∈ t.regions.toList, ¬Span.Covers p.2.spans l
  /-- The spans of a region are the maximal runs of its lines, of which there is one at least. -/
  runs : ∀ p ∈ t.regions.toList, p.2.spans ≠ [] ∧ MaximalRuns p.2.spans t.lines.size
  /-- The regions are those of the emitted ranges, each once, in the order of first emission. -/
  keys : t.regions.toList.map (fun p => (p.1, p.2.range)) =
    (rangesIn n o).eraseDups.map fun r => (r.key, r)
  /-- The range that is left out has no region. -/
  excluded : ∀ r, excluded = some r → r.key ∉ t.regions.keys

/-! ## The lines of a range -/

section

variable {n : Nat} {r : SourceRange} {o : Transcript} {l : Int}

theorem mem_linesOf :
    l ∈ linesOf n r o ↔ ∃ x, lineAt o l = some x ∧ x.range? n = some r := by
  rw [linesOf, List.mem_filterMap]
  constructor
  · rintro ⟨⟨x, k⟩, hp, hl⟩
    obtain ⟨hk, hx⟩ := List.mk_mem_zipIdx_iff_le_and_getElem?_sub.mp hp
    split at hl
    · next hr =>
      obtain rfl : (k : Int) = l := Option.some.inj hl
      refine ⟨x, ?_, hr⟩
      rw [lineAt, if_neg (by omega), show ((k : Int) - 1).toNat = k - 1 by omega]
      exact hx
    · exact absurd hl (by simp)
  · rintro ⟨x, hx, hr⟩
    rw [lineAt] at hx
    split at hx
    · exact absurd hx (by simp)
    · next hl =>
      refine ⟨(x, l.toNat), List.mk_mem_zipIdx_iff_le_and_getElem?_sub.mpr ⟨by omega, ?_⟩, ?_⟩
      · rw [show l.toNat - 1 = (l - 1).toNat by omega]
        exact hx
      · rw [if_pos hr, Int.toNat_of_nonneg (by omega)]

/-- The lines of a range are lines of the listing, in ascending order. -/
theorem linesOf_ascending (n : Nat) (r : SourceRange) (o : Transcript) :
    (linesOf n r o).Pairwise (· < ·) ∧ ∀ l ∈ linesOf n r o, 1 ≤ l ∧ l ≤ o.length := by
  induction o using List.reverseRecOn with
  | nil => exact ⟨List.Pairwise.nil, by simp [linesOf]⟩
  | append_singleton o x ih =>
    obtain ⟨hs, hw⟩ := ih
    rw [linesOf_append_one, List.length_append, List.length_singleton]
    split
    · refine ⟨List.pairwise_append.mpr ⟨hs, List.pairwise_singleton _ _, fun l hl m hm => ?_⟩, ?_⟩
      · rw [List.mem_singleton.mp hm]
        have := hw l hl
        omega
      · intro l hl
        rcases List.mem_append.mp hl with hl | hl
        · have := hw l hl
          omega
        · rw [List.mem_singleton.mp hl]
          omega
    · rw [List.append_nil]
      exact ⟨hs, fun l hl => by have := hw l hl; omega⟩

theorem linesOf_ne_nil (h : r ∈ rangesIn n o) : linesOf n r o ≠ [] := by
  obtain ⟨x, hx, hr⟩ := List.mem_filterMap.mp h
  obtain ⟨k, hk⟩ := List.getElem?_of_mem hx
  refine List.ne_nil_of_mem (a := (k : Int) + 1) (mem_linesOf.mpr ⟨x, ?_, hr⟩)
  rw [lineAt, if_neg (by omega), show ((k : Int) + 1 - 1).toNat = k by omega]
  exact hk

/-- The spans of a region cover the lines of its range. -/
theorem covers_regionIn {ix : LineIndex} :
    Span.Covers (regionIn ix o r).spans l ↔
      ∃ x, lineAt o l = some x ∧ x.range? ix.length = some r := by
  obtain ⟨hs, hw⟩ := linesOf_ascending ix.length r o
  rw [← mem_linesOf]
  exact (Region.maximalRuns_spansOf hs hw).2 l

theorem mem_regionsIn {ix : LineIndex} {p : String × Region} :
    p ∈ regionsIn ix o ↔ ∃ r ∈ rangesIn ix.length o, p = (r.key, regionIn ix o r) := by
  simp [regionsIn, eq_comm]

end

/-! ## The lines of calls -/

section

variable {n : Nat} {excluded : Option SourceRange} {i : Instruction}

/-- One more instruction: its line comes first, unless its range is the one that is left out. -/
theorem mem_transcribe_cons {j : Instruction} {is : List Instruction}
    (h : Origin.code i ∈ transcribe n excluded (j :: is)) :
    (i = j ∧ ∀ r, j.range? = some r → excluded ≠ some r) ∨
      Origin.code i ∈ transcribe n excluded is := by
  cases hj : j.range? with
  | none =>
    simp only [transcribe, hj] at h
    rcases List.mem_cons.mp h with he | h
    · exact .inl ⟨Origin.code.inj he, fun r hr => absurd hr (by simp)⟩
    · exact .inr h
  | some r =>
    have hne : excluded ≠ some r → ∀ s, some r = some s → excluded ≠ some s := by
      rintro he s hs
      exact hs ▸ he
    simp only [transcribe, hj] at h
    split at h
    · exact .inr h
    · next he =>
      split at h
      · rcases List.mem_cons.mp h with hi | h
        · exact .inl ⟨Origin.code.inj hi, hne he⟩
        · exact .inr h
      · exact .inl ⟨Origin.code.inj (List.mem_singleton.mp h), hne he⟩

/-- The lines come from the instructions, and none from one whose range is left out. -/
theorem of_mem_transcribe {is : List Instruction} (h : Origin.code i ∈ transcribe n excluded is) :
    i ∈ is ∧ ∀ r, i.range? = some r → excluded ≠ some r := by
  induction is with
  | nil => simp [transcribe] at h
  | cons j is ih =>
    rcases mem_transcribe_cons h with ⟨rfl, he⟩ | h
    · exact ⟨List.mem_cons_self, he⟩
    · obtain ⟨hi, he⟩ := ih h
      exact ⟨List.mem_cons_of_mem _ hi, he⟩

/-- The instructions of a call. -/
def Builder.Call.instructions : Builder.Call → List Instruction
  | whole _ is => is
  | single i => [i]

theorem of_mem_transcript {c : Builder.Call} (h : Origin.code i ∈ c.transcript n excluded) :
    i ∈ c.instructions ∧ ∀ r, i.range? = some r → excluded ≠ some r := by
  cases c with
  | whole s is =>
    rcases List.mem_cons.mp h with he | h
    · exact absurd he (by simp)
    · exact of_mem_transcribe h
  | single j => exact of_mem_transcribe h

theorem ne_excluded_of_mem_rangesIn {cs : List Builder.Call} {r : SourceRange}
    (h : r ∈ rangesIn n (cs.flatMap (Builder.Call.transcript n excluded))) :
    excluded ≠ some r := by
  obtain ⟨x, hx, hr⟩ := List.mem_filterMap.mp h
  obtain ⟨c, -, hc⟩ := List.mem_flatMap.mp hx
  cases x with
  | header s => exact absurd hr (by simp [Origin.range?])
  | code i => exact (of_mem_transcript hc).2 r (Option.filter_eq_some_iff.mp hr).1

end

/-! ## The table of a transcript -/

theorem Origin.range?_eq_some {x : Origin} {n : Nat} {r : SourceRange} :
    x.range? n = some r ↔ ∃ i, x = .code i ∧ i.range? = some r ∧ r.last ≤ n := by
  cases x with
  | header s => simp [range?]
  | code i => simp [range?, Option.filter_eq_some_iff]

section

variable {ix : LineIndex} {excluded : Option SourceRange} {o : Transcript} {b : Builder}

/-- The region under a key is that of the range with this key. -/
theorem Builder.Written.find?_eq_some (h : b.Written ix excluded o) {k : String} {g : Region} :
    b.table.find? k = some g ↔ ∃ r ∈ rangesIn ix.length o, r.key = k ∧ g = regionIn ix o r := by
  rw [RegionTable.find?, Ledger.find?_eq_some, h.regions, mem_regionsIn]
  simp only [Prod.mk.injEq, eq_comm]

theorem Builder.Written.of_mem_regions (h : b.Written ix excluded o) {p : String × Region}
    (hp : p ∈ b.table.regions.toList) :
    ∃ r ∈ rangesIn ix.length o, p = (r.key, regionIn ix o r) := by
  rw [h.regions] at hp
  exact mem_regionsIn.mp hp

/-- **A builder that holds what a transcript says has a listing and regions that agree.** -/
theorem Builder.Written.agrees (h : b.Written ix excluded o)
    (he : ∀ r ∈ rangesIn ix.length o, excluded ≠ some r) :
    Agrees ix.length excluded o b.table := by
  have size : b.table.lines.size = o.length := by
    rw [← Array.length_toList, h.lines, List.length_map]
  have emitted : ∀ {x : Origin} {l : Int} {r : SourceRange}, lineAt o l = some x →
      x.range? ix.length = some r → r ∈ rangesIn ix.length o := by
    intro x l r hx hr
    rw [lineAt] at hx
    split at hx
    · exact absurd hx (by simp)
    · exact List.mem_filterMap.mpr ⟨x, List.mem_of_getElem? hx, hr⟩
  refine ⟨h.lines, ?_, ?_, ?_, ?_, ?_, ?_⟩
  · intro k l
    constructor
    · rintro ⟨g, hg, hc⟩
      obtain ⟨r, -, hk, rfl⟩ := h.find?_eq_some.mp hg
      obtain ⟨x, hx, hr⟩ := covers_regionIn.mp hc
      obtain ⟨i, rfl, hi, hn⟩ := Origin.range?_eq_some.mp hr
      exact ⟨i, r, hx, hi, hk, hn⟩
    · rintro ⟨i, r, hx, hi, hk, hn⟩
      have hr : (Origin.code i).range? ix.length = some r :=
        Origin.range?_eq_some.mpr ⟨i, rfl, hi, hn⟩
      exact ⟨regionIn ix o r, h.find?_eq_some.mpr ⟨r, emitted hx hr, hk, rfl⟩,
        covers_regionIn.mpr ⟨_, hx, hr⟩⟩
  · intro p hp q hq l hcp hcq
    obtain ⟨r, -, rfl⟩ := h.of_mem_regions hp
    obtain ⟨s, -, rfl⟩ := h.of_mem_regions hq
    obtain ⟨x, hx, hr⟩ := covers_regionIn.mp hcp
    obtain ⟨y, hy, hs⟩ := covers_regionIn.mp hcq
    -- the line has one origin, and the origin one range
    obtain rfl : x = y := Option.some.inj (hx.symm.trans hy)
    obtain rfl : r = s := Option.some.inj (hr.symm.trans hs)
    rfl
  · intro l hl p hp hc
    obtain ⟨r, -, rfl⟩ := h.of_mem_regions hp
    obtain ⟨x, hx, hr⟩ := covers_regionIn.mp hc
    obtain ⟨i, rfl, hi, hn⟩ := Origin.range?_eq_some.mp hr
    -- an instruction whose range lies in the text is none of those that belong to no region
    exact absurd hn (by have := hl i r hx hi; omega)
  · intro p hp
    obtain ⟨r, hr, rfl⟩ := h.of_mem_regions hp
    obtain ⟨hs, hw⟩ := linesOf_ascending ix.length r o
    rw [size]
    exact ⟨Region.spansOf_ne_nil (linesOf_ne_nil hr), (Region.maximalRuns_spansOf hs hw).1⟩
  · rw [h.regions, regionsIn, List.map_map]
    rfl
  · intro r hr hk
    rw [Ledger.keys, h.regions, key_mem_regionsIn_iff] at hk
    exact he r hk hr

end

/-! ## The listing as one text -/

/-- The line of an instruction has no newline if its name and its operand have none. -/
theorem Instruction.newline_notMem_render {i : Instruction} (hn : '\n' ∉ i.name.toList)
    (hv : ∀ v, i.value = some v → '\n' ∉ v.toList) : '\n' ∉ i.render.toList := by
  rw [render]
  split
  · cases h : i.value with
    | none => simp
    | some v => simpa using hv v h
  · cases h : i.value with
    | none => simpa using hn
    | some v =>
      have := hv v h
      dsimp only
      split <;> simp [hn, this]

/-- Lines without newlines come back from the listing, if there are any. -/
theorem RegionTable.split_listing {t : RegionTable} (hne : t.lines.toList ≠ [])
    (h : ∀ l ∈ t.lines.toList, '\n' ∉ l.toList) :
    (t.listing.split '\n').toList.map (·.copy) = t.lines.toList := by
  have hs := String.toList_split_intercalate h
  rw [if_neg hne] at hs
  exact hs

/-! ## The table of an assembly -/

/-- The calls that the table of an assembly is made by. -/
def Assembly.calls (a : Assembly) : List Builder.Call :=
  [.whole .constructor a.constructor, .whole .runtime a.runtime]

/-- A section succeeds if none of its instructions fails. -/
theorem Builder.eq_of_runSection {b c : Builder} {s : Section} {is : List Instruction}
    (h : (b.runSection s is).outcome = .ok c) : c = (b.call (.whole s is)).1 := by
  rw [runSection, Traced.outcome_bind] at h
  show c = (b.addSection s is).1
  cases hs : b.addSection s is with
  | mk d p =>
    cases p with
    | none =>
      rw [hs] at h
      exact (Except.ok.inj h).symm
    | some p =>
      rw [hs] at h
      exact absurd h (by rintro ⟨⟩)

theorem Assembly.eq_of_tabulate {a : Assembly} {b : Builder} {t : RegionTable}
    (h : (a.tabulate b).outcome = .ok t) : t = (b.callAll a.calls).table := by
  obtain ⟨c, hc, h⟩ := Traced.outcome_bind_eq_ok.mp h
  obtain ⟨d, hd, h⟩ := Traced.outcome_bind_eq_ok.mp h
  obtain rfl : d.table = t := Except.ok.inj h
  rw [Builder.eq_of_runSection hd, Builder.eq_of_runSection hc]
  rfl

/-! ## Main results -/

/-- The lines that calls take in a source. -/
def transcriptOf (source : String) (excluded : Option SourceRange) (cs : List Builder.Call) :
    Transcript :=
  cs.flatMap (Builder.Call.transcript source.utf8ByteSize excluded)

theorem Builder.agrees_callAll (source contract : String) (excluded : Option SourceRange)
    (generation : Int) (cs : List Builder.Call) :
    Agrees source.utf8ByteSize excluded (transcriptOf source excluded cs)
      ((Builder.new (.ofText source) contract excluded generation).callAll cs).table := by
  have h := (Builder.Written.new (.ofText source) contract excluded generation).callAll cs
  rw [List.nil_append, LineIndex.length_ofText] at h
  have ha := h.agrees fun r hr => by
    rw [LineIndex.length_ofText] at hr
    exact ne_excluded_of_mem_rangesIn hr
  rw [LineIndex.length_ofText] at ha
  exact ha

/--
**The listing and the regions of a builder agree line for line, after any calls, whether or not
some of them failed.** The table of an assembly is one of these tables, and its listing splits
into its lines again if no name and no operand has a newline.
-/
theorem listing_agrees (source contract : String) (excluded : Option SourceRange)
    (generation : Int) :
    (∀ cs, Agrees source.utf8ByteSize excluded (transcriptOf source excluded cs)
      ((Builder.new (.ofText source) contract excluded generation).callAll cs).table) ∧
    ∀ (a : Assembly) (t : RegionTable),
      (a.tabulate (Builder.new (.ofText source) contract excluded generation)).outcome = .ok t →
      Agrees source.utf8ByteSize excluded (transcriptOf source excluded a.calls) t ∧
      ((∀ i ∈ a.constructor ++ a.runtime,
          '\n' ∉ i.name.toList ∧ ∀ v, i.value = some v → '\n' ∉ v.toList) →
        (t.listing.split '\n').toList.map (·.copy) = t.lines.toList) := by
  refine ⟨Builder.agrees_callAll source contract excluded generation, fun a t ht => ?_⟩
  have ha : Agrees source.utf8ByteSize excluded (transcriptOf source excluded a.calls) t := by
    rw [Assembly.eq_of_tabulate ht]
    exact Builder.agrees_callAll source contract excluded generation a.calls
  refine ⟨ha, fun hn => RegionTable.split_listing ?_ ?_⟩
  · rw [ha.lines]
    exact List.cons_ne_nil _ _
  · intro l hl
    rw [ha.lines] at hl
    obtain ⟨x, hx, rfl⟩ := List.mem_map.mp hl
    cases x with
    | header s => cases s <;> decide
    | code i =>
      obtain ⟨c, hc, hi⟩ := List.mem_flatMap.mp hx
      have hmem : i ∈ a.constructor ++ a.runtime := by
        have hi := (of_mem_transcript hi).1
        rw [Assembly.calls] at hc
        rcases List.mem_pair.mp hc with rfl | rfl
        · exact List.mem_append_left _ hi
        · exact List.mem_append_right _ hi
      exact Instruction.newline_notMem_render (hn i hmem).1 (hn i hmem).2

/-- An assembly of each kind of line: mapped twice, unmapped, and left out. -/
def Assembly.small : Assembly where
  constructor := [
    ⟨"PUSH1", some "80", some 0, some 0, some 4⟩,
    ⟨"MSTORE", none, some 0, some 0, some 4⟩,
    ⟨"JUMPDEST", none, some (-1), none, none⟩]
  runtime := [
    ⟨"STOP", none, some 0, some 2, some 3⟩,
    ⟨"tag", some "1", some 0, some 5, some 7⟩,
    ⟨"ADD", none, some 0, some 0, some 4⟩]

/-- A builder for the small assembly, in a text of three lines. -/
def Builder.small : Builder := Builder.new (.ofText "ab\ncde\nfg") "C" (some ⟨2, 3⟩) 1

theorem Assembly.exists_tabulate_small :
    ∃ t, (Assembly.small.tabulate Builder.small).outcome = .ok t := by
  have hok : (Assembly.small.tabulate Builder.small).outcome.isOk = true := by decide +kernel
  cases ht : (Assembly.small.tabulate Builder.small).outcome with
  | ok t => exact ⟨t, rfl⟩
  | error e =>
    rw [ht] at hok
    exact absurd hok (by rintro ⟨⟩)

/-- The lines of a small assembly come back from its listing, and two copies share a region. -/
theorem listing_agrees_small :
    ∃ t, (Assembly.small.tabulate Builder.small).outcome = .ok t ∧
      (∃ r, t.find? "0:4" = some r ∧ Span.Covers r.spans 7) ∧
      (t.listing.split '\n').toList.map (·.copy) =
        ["CONSTRUCTOR:", "\t\t\t\tPUSH1 80", "\t\t\t\tMSTORE", "\t\t\t\tJUMPDEST",
          "SUBROUTINES:", "\t\tTAG 1:", "\t\t\t\tADD"] := by
  obtain ⟨t, ht⟩ := Assembly.exists_tabulate_small
  obtain ⟨ha, hs⟩ := (listing_agrees "ab\ncde\nfg" "C" (some ⟨2, 3⟩) 1).2 Assembly.small t ht
  refine ⟨t, ht, (ha.covered "0:4" 7).mpr ?_, ?_⟩
  · exact ⟨⟨"ADD", none, some 0, some 0, some 4⟩, ⟨0, 4⟩, by decide +kernel, by decide,
      by decide +kernel, by decide +kernel⟩
  · rw [hs (by decide +kernel), ha.lines]
    decide +kernel

end AsmLens
