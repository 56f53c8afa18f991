import AsmLens.Proofs.Assembly.Emission
import AsmLens.Proofs.View.Resolve
import AsmLens.View.Highlight

/-!
# From one view to the other and back

The listing resolves line by line: a line belongs to the region of its instruction. A region that
the source was resolved to has a first line in the listing, and that line resolves to it again; a
region that was chosen in the listing starts in the source at a cursor that resolves to it or
inside it.

* `keyAt` — the region that a line was emitted for
* `Highlight.hover_eq` — what moving the cursor highlights
* `views_agree` — both ways between the views
-/

namespace AsmLens

/-- The key of the range that a listing line was emitted for, if it was emitted for one. -/
def keyAt (o : Transcript) (l : Int) : Option String :=
  match lineAt o l with
  | some (.code i) => i.range?.map SourceRange.key
  | _ => none

theorem keyAt_eq_some {o : Transcript} {l : Int} {k : String} :
    keyAt o l = some k ↔ ∃ i r, lineAt o l = some (.code i) ∧ i.range? = some r ∧ r.key = k := by
  unfold keyAt
  constructor
  · intro h
    split at h
    · next i hi =>
      obtain ⟨r, hr, hk⟩ := Option.map_eq_some_iff.mp h
      exact ⟨i, r, hi, hr, hk⟩
    · exact nomatch h
  · rintro ⟨i, r, hi, hr, hk⟩
    simp [hi, hr, hk]

theorem mem_of_lineAt {o : Transcript} {l : Int} {x : Origin} (h : lineAt o l = some x) :
    x ∈ o := by
  unfold lineAt at h
  split at h
  · exact nomatch h
  · exact List.mem_of_getElem? h

/-! ## The lines of an assembly -/

theorem of_mem_emitted {excluded : Option SourceRange} {is : List Instruction} {i : Instruction}
    (h : Origin.code i ∈ emitted excluded is) : i ∈ is ∧ i.isLeftOut excluded = false := by
  obtain ⟨j, hj, he⟩ := List.mem_map.mp h
  obtain rfl := Origin.code.inj he
  simpa using hj

theorem Assembly.of_mem_transcript {a : Assembly} {excluded : Option SourceRange} {i : Instruction}
    (h : Origin.code i ∈ a.transcript excluded) :
    i ∈ a.constructor ++ a.runtime ∧ i.isLeftOut excluded = false := by
  simp only [transcript, List.cons_append, List.mem_cons, List.mem_append, reduceCtorEq,
    false_or] at h
  rcases h with h | h
  · have hi := of_mem_emitted h
    exact ⟨List.mem_append_left _ hi.1, hi.2⟩
  · have hi := of_mem_emitted h
    exact ⟨List.mem_append_right _ hi.1, hi.2⟩

/-- The range that a line was emitted for ends in the text. -/
theorem EndsWithin.of_lineAt {n : Nat} {excluded : Option SourceRange} {a : Assembly} {l : Int}
    {i : Instruction} {r : SourceRange} (h : EndsWithin n excluded (a.constructor ++ a.runtime))
    (hi : lineAt (a.transcript excluded) l = some (.code i)) (hr : i.range? = some r) :
    r.last ≤ n := by
  obtain ⟨hmem, hkept⟩ := Assembly.of_mem_transcript (mem_of_lineAt hi)
  -- an instruction with a line was not left out, so its range was checked against the text
  refine h i hmem r hr fun he => ?_
  have hleft : i.isLeftOut excluded = true := Instruction.isLeftOut_iff.mpr ⟨r, hr, he⟩
  rw [hkept] at hleft
  exact Bool.false_ne_true hleft

/-! ## The compiled view -/

theorem Region.shows_compiled_iff {g : Region} {c : Cursor} :
    g.shows .compiled c = true ↔ Span.Covers g.spans c.line := by
  rw [Region.shows, List.any_eq_true]
  rfl

namespace RegionTable

variable {t : RegionTable} {n : Nat} {excluded : Option SourceRange} {o : Transcript}
  {ix : LineIndex} {c : Cursor} {k : String} {g : Region}

theorem mem_values_of_find? (h : t.find? k = some g) : g ∈ t.regions.values := by
  rw [find?, Ledger.find?_eq_some] at h
  exact List.mem_map.mpr ⟨_, h, rfl⟩

theorem Placed.key_of_find? (ht : t.Placed ix) (h : t.find? k = some g) : g.key = k := by
  rw [find?, Ledger.find?_eq_some] at h
  exact (ht.key _ h).symm

/-- A cursor resolves to the key of a region of the table. -/
theorem Placed.of_resolveKey {view : View} (ht : t.Placed ix) (h : t.resolveKey view c = some k) :
    ∃ g, t.find? k = some g ∧ g.shows view c = true := by
  obtain ⟨g, hg, rfl⟩ := Option.map_eq_some_iff.mp h
  obtain ⟨hmem, hs, -⟩ := of_resolve_eq_some hg
  exact ⟨g, ht.find?_eq hmem, hs⟩

/-- A listing line resolves to the one region that has the line in a span. -/
theorem resolveKey_compiled_iff (ht : t.Placed ix) (ha : Agrees n excluded o t) :
    t.resolveKey .compiled c = some k ↔ ∃ g, t.find? k = some g ∧ Span.Covers g.spans c.line := by
  constructor
  · intro h
    obtain ⟨g, hg, hs⟩ := ht.of_resolveKey h
    exact ⟨g, hg, Region.shows_compiled_iff.mp hs⟩
  · rintro ⟨g, hg, hc⟩
    cases hr : t.resolve .compiled c with
    | none =>
      have hnone := resolve_eq_none_iff.mp hr g (mem_values_of_find? hg)
      exact absurd (Region.shows_compiled_iff.mpr hc) hnone
    | some h =>
      obtain ⟨hmem, hs, -⟩ := of_resolve_eq_some hr
      have hh := ht.find?_eq hmem
      rw [find?, Ledger.find?_eq_some] at hg hh
      -- both have the line, so they are one entry of the table
      have he := ha.unique _ hh _ hg c.line (Region.shows_compiled_iff.mp hs) hc
      rw [resolveKey, hr, Option.map_some]
      exact congrArg (fun p => some p.1) he

/-- The listing resolves to what its lines were emitted for. -/
theorem resolveKey_compiled {a : Assembly} (ht : t.Placed ix)
    (ha : Agrees n excluded (a.transcript excluded) t)
    (hends : EndsWithin n excluded (a.constructor ++ a.runtime)) :
    t.resolveKey .compiled c = keyAt (a.transcript excluded) c.line := by
  ext k
  rw [resolveKey_compiled_iff ht ha, ha.covered, keyAt_eq_some]
  constructor
  · rintro ⟨i, r, hi, hr, hk, -⟩
    exact ⟨i, r, hi, hr, hk⟩
  · rintro ⟨i, r, hi, hr, hk⟩
    exact ⟨i, r, hi, hr, hk, hends.of_lineAt hi hr⟩

/-! ## Where the views scroll to -/

theorem revealLine_same (t : RegionTable) (k : String) (view : View) :
    t.revealLine view (some ⟨k, view⟩) = none := by
  simp [revealLine]

theorem revealLine_compiled (h : t.find? k = some g) :
    t.revealLine .compiled (some ⟨k, .source⟩) = g.spans.head?.map (·.first) := by
  simp [revealLine, h]

theorem revealLine_source (h : t.find? k = some g) :
    t.revealLine .source (some ⟨k, .compiled⟩) = some g.position.start.line := by
  simp [revealLine, h]

/-- A region has a first line in the listing, which one of its spans starts at. -/
theorem exists_first_line (ha : Agrees n excluded o t) (h : t.find? k = some g) :
    ∃ l, g.spans.head?.map (·.first) = some l ∧ Span.Covers g.spans l := by
  rw [find?, Ledger.find?_eq_some] at h
  -- regions come into being with their first span
  obtain ⟨hne, hruns⟩ := ha.runs _ h
  cases hs : g.spans with
  | nil => exact absurd hs hne
  | cons s ss =>
    have hmem : s ∈ g.spans := by simp [hs]
    have hw := hruns.within s hmem
    refine ⟨s.first, rfl, s, List.mem_cons_self, ?_⟩
    simp [Span.contains, hw.2.1]

/-- The start of a region resolves to a region that is no longer. -/
theorem Placed.resolve_start (ht : t.Placed ix) (ha : ix.Ascending) (hg : g ∈ t.regions.values) :
    ∃ h, t.resolve .source g.position.start = some h ∧ h.length ≤ g.length := by
  have hw := ht.within g hg
  have hshows : g.shows .source g.position.start = true := by
    rw [ht.shows_source_iff ha hg, ht.position g hg]
    refine ⟨Cursor.LE.refl _, (LineIndex.spot_le_iff ha).mpr ?_⟩
    omega
  cases hr : t.resolve .source g.position.start with
  | none => exact absurd hshows (resolve_eq_none_iff.mp hr g hg)
  | some h =>
    obtain ⟨-, -, hleast⟩ := of_resolve_eq_some hr
    have hle := hleast g hg hshows
    simp only [Region.specificLE, Bool.or_eq_true, Bool.and_eq_true, decide_eq_true_iff] at hle
    exact ⟨h, rfl, by omega⟩

end RegionTable

/-! ## Moving the cursor -/

namespace Highlight

variable {h : Highlight} {t : RegionTable} {view : View} {c : Cursor} {k : String}

theorem hover_eq (hf : h.frozen = false) (hk : t.resolveKey view c = some k)
    (hne : ∀ s, h.selection = some s → s.key ≠ k) :
    h.hover t view c = ⟨some ⟨k, view⟩, false⟩ := by
  have hany : (h.selection.any fun s => decide (s.key = k)) = false := by
    cases hs : h.selection with
    | none => rfl
    | some s => simpa using hne s hs
  simp [hover, hf, hk, hany]

/-- A region that is highlighted stays so, in whichever view the cursor comes upon it. -/
theorem hover_same {s : Selection} (hs : h.selection = some s)
    (hk : t.resolveKey view c = some s.key) : h.hover t view c = h := by
  unfold hover
  split
  · rfl
  · simp [hk, hs]

end Highlight

/-! ## Main result -/

/--
**The views of an assembly's table lead to each other.** A listing line resolves to the region
that it was emitted for. A region that the source resolves to is highlighted and has a listing
line that leads back to it. A region that is chosen in the listing has a first source line, and its
start resolves to a region that is no longer.
-/
theorem views_agree {source contract : String} {excluded : Option SourceRange} {generation : Int}
    {a : Assembly} {t : RegionTable}
    (h : (a.tabulate (Builder.new (.ofText source) contract excluded generation)).outcome =
      .ok t) :
    (t.lines.toList = (a.transcript excluded).map Origin.text ∧
      ∀ n column, t.resolveKey .compiled ⟨n, column⟩ = keyAt (a.transcript excluded) n) ∧
    (∀ p k, t.resolveKey .source p = some k →
      ∀ l : Highlight, l.frozen = false → (∀ s, l.selection = some s → s.key ≠ k) →
        l.hover t .source p = ⟨some ⟨k, .source⟩, false⟩ ∧
        t.revealLine .source (l.hover t .source p).selection = none ∧
        ∃ n, t.revealLine .compiled (l.hover t .source p).selection = some n ∧
          keyAt (a.transcript excluded) n = some k ∧
          ∀ column, t.resolveKey .compiled ⟨n, column⟩ = some k ∧
            (l.hover t .source p).hover t .compiled ⟨n, column⟩ = l.hover t .source p) ∧
    ∀ k g, t.find? k = some g → g.key = k ∧ ∀ l : Highlight,
      t.revealLine .source (l.select k .compiled).selection = some g.position.start.line ∧
      ∃ g', t.resolve .source g.position.start = some g' ∧ g'.length ≤ g.length := by
  have hplaced := Assembly.placed_of_tabulate h
  obtain ⟨hagrees, hends⟩ := Assembly.agrees_of_tabulate h
  have hcompiled : ∀ n column,
      t.resolveKey .compiled ⟨n, column⟩ = keyAt (a.transcript excluded) n :=
    fun n column => RegionTable.resolveKey_compiled hplaced hagrees hends
  refine ⟨⟨hagrees.lines, hcompiled⟩, ?_, ?_⟩
  · intro p k hk l hf hne
    obtain ⟨g, hg, -⟩ := hplaced.of_resolveKey hk
    obtain ⟨n, hn, hcovers⟩ := RegionTable.exists_first_line hagrees hg
    have hback : ∀ column, t.resolveKey .compiled ⟨n, column⟩ = some k := fun column =>
      (RegionTable.resolveKey_compiled_iff hplaced hagrees).mpr ⟨g, hg, hcovers⟩
    rw [Highlight.hover_eq hf hk hne]
    refine ⟨rfl, t.revealLine_same k .source, n, ?_, ?_, ?_⟩
    · rw [RegionTable.revealLine_compiled hg, hn]
    · rw [← hcompiled n 1]
      exact hback 1
    · intro column
      exact ⟨hback column, Highlight.hover_same rfl (hback column)⟩
  · intro k g hg
    refine ⟨hplaced.key_of_find? hg, fun l => ?_⟩
    refine ⟨RegionTable.revealLine_source hg, ?_⟩
    exact hplaced.resolve_start (LineIndex.ascending_ofText source)
      (RegionTable.mem_values_of_find? hg)

/-- In a small assembly the start of the third line leads to a listing line and back. -/
theorem views_agree_small :
    ∃ t, (Assembly.small.tabulate Builder.small).outcome = .ok t ∧
      t.resolveKey .source ⟨3, 1⟩ = some "5:7" ∧
      ∃ n, t.revealLine .compiled (some ⟨"5:7", .source⟩) = some n ∧
        t.resolveKey .compiled ⟨n, 1⟩ = some "5:7" := by
  obtain ⟨t, ht⟩ := Assembly.exists_tabulate_small
  have hk : t.resolveKey .source ⟨3, 1⟩ = some "5:7" := by
    obtain ⟨hkey, -⟩ := (Assembly.placed_of_tabulate ht).resolveKey_spec
      (P := fun r => r.shows .source ⟨3, 1⟩ = true) fun _ _ => Iff.rfl
    rw [hkey]
    obtain rfl := Assembly.eq_of_tabulate ht
    have hmost : ∃ g ∈ (Builder.small.callAll Assembly.small.calls).table.regions.values,
        (g.shows .source ⟨3, 1⟩ = true ∧
          ∀ r ∈ (Builder.small.callAll Assembly.small.calls).table.regions.values,
            r.shows .source ⟨3, 1⟩ = true → g.range.specificity ≤ r.range.specificity) ∧
        g.key = "5:7" := by decide +kernel
    obtain ⟨g, hg, hmost, hkey⟩ := hmost
    exact ⟨g, ⟨hg, hmost⟩, hkey⟩
  obtain ⟨-, hsource, -⟩ := views_agree ht
  obtain ⟨hhover, -, n, hn, -, hback⟩ :=
    hsource ⟨3, 1⟩ "5:7" hk Highlight.none rfl fun s hs => nomatch hs
  rw [hhover] at hn
  exact ⟨t, ht, hk, n, hn, (hback 1).1⟩

end AsmLens
