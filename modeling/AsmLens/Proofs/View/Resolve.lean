import AsmLens.Proofs.Region.Placed
import AsmLens.View.Resolve

/-!
# Resolution finds the innermost region

A cursor in the source resolves by walking over the sorted regions, and each region tests the
cursor line by line. In a placed table this is a look-up on offsets: the answer is the least of the
ranges around the offset of the cursor.

* `Position.contains_iff` — the test of an extent is a comparison of cursors
* `RegionTable.Innermost` — the least region with a property
* `RegionTable.Placed.resolve_eq_some_iff` — resolution finds it
* `RegionTable.Placed.shows_spot_iff` — the cursor of an offset lies in the ranges around the offset
-/

namespace AsmLens

/-- An extent contains the cursors from its start to its end, lines first. -/
theorem Position.contains_iff {p : Position} {c : Cursor} (h : p.start.LE p.stop) :
    p.contains c = true ↔ p.start.LE c ∧ c.LE p.stop := by
  simp only [Cursor.LE] at *
  fun_cases Position.contains p c with
  | case1 h₁ =>
    simp only [Bool.and_eq_true, decide_eq_true_iff]
    omega
  | case2 h₁ h₂ =>
    simp only [Bool.and_eq_true, decide_eq_true_iff] at h₂
    exact iff_of_true rfl (by omega)
  | case3 h₁ h₂ h₃ =>
    rw [decide_eq_true_iff]
    omega
  | case4 h₁ h₂ h₃ h₄ =>
    rw [decide_eq_true_iff]
    omega
  | case5 h₁ h₂ h₃ h₄ =>
    simp only [Bool.and_eq_true, decide_eq_true_iff] at h₂
    exact iff_of_false Bool.false_ne_true (by omega)

/-! ## The sorted regions -/

theorem Region.specificLE_trans (a b c : Region) (hab : a.specificLE b = true)
    (hbc : b.specificLE c = true) : a.specificLE c = true := by
  simp only [specificLE, SourceRange.positionLE, Bool.or_eq_true, Bool.and_eq_true,
    decide_eq_true_iff] at *
  omega

theorem Region.specificLE_total (a b : Region) : (a.specificLE b || b.specificLE a) = true := by
  simp only [specificLE, SourceRange.positionLE, Bool.or_eq_true, Bool.and_eq_true,
    decide_eq_true_iff]
  omega

namespace RegionTable

variable {t : RegionTable} {view : View} {c : Cursor} {g : Region}

/-- A cursor resolves to a region that shows it, and the regions before that one do not. -/
theorem of_resolve_eq_some (h : t.resolve view c = some g) :
    g ∈ t.regions.values ∧ g.shows view c = true ∧
      ∀ r ∈ t.regions.values, r.shows view c = true → g.specificLE r = true := by
  obtain ⟨hg, before, after, hl, hb⟩ := List.find?_eq_some_iff_append.mp h
  have hsorted : t.bySpecificity.Pairwise (fun a b => a.specificLE b = true) :=
    List.pairwise_mergeSort Region.specificLE_trans Region.specificLE_total _
  have hmem : ∀ r, r ∈ t.bySpecificity ↔ r ∈ t.regions.values := fun r => List.mem_mergeSort
  refine ⟨(hmem g).mp (by rw [hl]; simp), hg, fun r hr hs => ?_⟩
  -- what was passed over does not show the cursor, and what comes later is no more specific
  rw [← hmem, hl] at hr
  rw [hl] at hsorted
  rcases List.mem_append.mp hr with hr | hr
  · exact absurd (hb r hr) (by simp [hs])
  · rcases List.mem_cons.mp hr with rfl | hr
    · simpa using Region.specificLE_total r r
    · exact (List.pairwise_cons.mp (List.pairwise_append.mp hsorted).2.1).1 r hr

theorem resolve_eq_none_iff :
    t.resolve view c = none ↔ ∀ r ∈ t.regions.values, ¬r.shows view c = true := by
  rw [resolve, List.find?_eq_none]
  simp only [bySpecificity, List.mem_mergeSort]

/-! ## The innermost region -/

/-- The least region with a property, by the order of ranges. -/
def Innermost (t : RegionTable) (P : Region → Prop) (g : Region) : Prop :=
  g ∈ t.regions.values ∧ P g ∧
    ∀ r ∈ t.regions.values, P r → g.range.specificity ≤ r.range.specificity

theorem innermost_congr {P Q : Region → Prop} (h : ∀ r ∈ t.regions.values, (P r ↔ Q r)) :
    t.Innermost P g ↔ t.Innermost Q g := by
  constructor
  · rintro ⟨hg, hp, hl⟩
    exact ⟨hg, (h g hg).mp hp, fun r hr hq => hl r hr ((h r hr).mpr hq)⟩
  · rintro ⟨hg, hq, hl⟩
    exact ⟨hg, (h g hg).mpr hq, fun r hr hp => hl r hr ((h r hr).mp hp)⟩

namespace Placed

variable {ix : LineIndex}

theorem innermost_unique {P : Region → Prop} {h : Region} (ht : t.Placed ix)
    (hg : t.Innermost P g) (hh : t.Innermost P h) : g = h :=
  ht.eq_of_range_eq hg.1 hh.1 (SourceRange.specificity_injective
    (le_antisymm (hg.2.2 h hh.1 hh.2.1) (hh.2.2 g hg.1 hg.2.1)))

/-- **A cursor resolves to the innermost of the regions that show it.** -/
theorem resolve_eq_some_iff (ht : t.Placed ix) :
    t.resolve view c = some g ↔ t.Innermost (fun r => r.shows view c = true) g := by
  have found : ∀ {g : Region}, t.resolve view c = some g →
      t.Innermost (fun r => r.shows view c = true) g := by
    intro g h
    obtain ⟨hg, hs, hl⟩ := of_resolve_eq_some h
    exact ⟨hg, hs, fun r hr hr' => (ht.specificLE_iff hg hr).mp (hl r hr hr')⟩
  refine ⟨found, fun hg => ?_⟩
  cases hr : t.resolve view c with
  | none => exact absurd hg.2.1 (resolve_eq_none_iff.mp hr g hg.1)
  | some h => rw [ht.innermost_unique (found hr) hg]

/-- A cursor resolves to the key of the innermost region, where a property says which show it. -/
theorem resolveKey_spec {P : Region → Prop} (ht : t.Placed ix)
    (h : ∀ r ∈ t.regions.values, (r.shows view c = true ↔ P r)) :
    (∀ k, t.resolveKey view c = some k ↔ ∃ g, t.Innermost P g ∧ g.key = k) ∧
      (t.resolveKey view c = none ↔ ∀ r ∈ t.regions.values, ¬P r) := by
  constructor
  · intro k
    rw [resolveKey, Option.map_eq_some_iff]
    simp only [ht.resolve_eq_some_iff, innermost_congr h]
  · rw [resolveKey, Option.map_eq_none_iff, resolve_eq_none_iff]
    exact forall₂_congr fun r hr => not_congr (h r hr)

/-! ## The source view -/

/-- A region shows the cursors from its start to its end. -/
theorem shows_source_iff (ht : t.Placed ix) (ha : ix.Ascending) (hg : g ∈ t.regions.values) :
    g.shows .source c = true ↔ g.position.start.LE c ∧ c.LE g.position.stop := by
  have hw := ht.within g hg
  refine Position.contains_iff ?_
  rw [ht.position g hg]
  exact (LineIndex.spot_le_iff ha).mpr (by omega)

/-- A region shows the cursor of an offset if its range lies around the offset. -/
theorem shows_spot_iff (ht : t.Placed ix) (ha : ix.Ascending) (hg : g ∈ t.regions.values)
    (o : Nat) : g.shows .source (ix.spot o) = true ↔ g.range.first ≤ o ∧ o ≤ g.range.last := by
  have hw := ht.within g hg
  rw [ht.shows_source_iff ha hg, ht.position g hg]
  show (ix.spot _).LE _ ∧ Cursor.LE _ (ix.spot _) ↔ _
  rw [LineIndex.spot_le_iff ha, LineIndex.spot_le_iff ha]
  omega

/-- Placed tables of one text that have the same ranges show the same. -/
theorem innermost_shows_of_ranges {u : RegionTable} (ht : t.Placed ix) (hu : u.Placed ix)
    (hr : ∀ r, (∃ g ∈ t.regions.values, g.range = r) ↔ ∃ g ∈ u.regions.values, g.range = r)
    (hg : t.Innermost (fun r => r.shows .source c = true) g) :
    ∃ h, u.Innermost (fun r => r.shows .source c = true) h ∧ h.key = g.key := by
  have shows : ∀ {g h : Region}, g ∈ t.regions.values → h ∈ u.regions.values →
      h.range = g.range → (g.shows .source c = true ↔ h.shows .source c = true) := by
    intro g h hg hh he
    rw [Region.shows, Region.shows, ht.position g hg, hu.position h hh, he]
  obtain ⟨hg, hs, hl⟩ := hg
  obtain ⟨h, hh, he⟩ := (hr g.range).mp ⟨g, hg, rfl⟩
  refine ⟨h, ⟨hh, (shows hg hh he).mp hs, fun s hs' hc => ?_⟩, by rw [Region.key, Region.key, he]⟩
  obtain ⟨r, hr', her⟩ := (hr s.range).mpr ⟨s, hs', rfl⟩
  rw [he, ← her]
  exact hl r hr' ((shows hr' hs' her.symm).mpr hc)

theorem resolveKey_eq_of_ranges {u : RegionTable} (ht : t.Placed ix) (hu : u.Placed ix)
    (hr : ∀ r, (∃ g ∈ t.regions.values, g.range = r) ↔ ∃ g ∈ u.regions.values, g.range = r) :
    u.resolveKey .source c = t.resolveKey .source c := by
  cases hg : t.resolve .source c with
  | some g =>
    obtain ⟨h, hh, hk⟩ := innermost_shows_of_ranges ht hu hr (ht.resolve_eq_some_iff.mp hg)
    rw [resolveKey, resolveKey, hg, hu.resolve_eq_some_iff.mpr hh, Option.map_some, hk]
    rfl
  | none =>
    cases hh : u.resolve .source c with
    | none => rw [resolveKey, resolveKey, hg, hh]
    | some h =>
      obtain ⟨g, hg', -⟩ := innermost_shows_of_ranges hu ht (fun r => (hr r).symm)
        (hu.resolve_eq_some_iff.mp hh)
      rw [ht.resolve_eq_some_iff.mpr hg'] at hg
      exact absurd hg (by simp)

end Placed

end RegionTable

/-! ## Main result -/

/-- That a region goes from an offset or before it up to that offset or behind it. -/
def Region.Around (o : Int) (g : Region) : Prop := g.range.first ≤ o ∧ o ≤ g.range.last

/-- That a cursor lies between the ends of a region, lines first. -/
def Region.Between (c : Cursor) (g : Region) : Prop := g.position.start.LE c ∧ c.LE g.position.stop

/--
**In the source view of an assembly's table, resolution is a look-up of the innermost range.**
The cursor of an offset resolves to the least of the ranges around the offset, any cursor to the
least of the ranges that it lies between the ends of, and a table with the same ranges resolves
as this one does.
-/
theorem resolve_source_innermost {source contract : String} {excluded : Option SourceRange}
    {generation : Int} {a : Assembly} {t : RegionTable}
    (h : (a.tabulate (Builder.new (.ofText source) contract excluded generation)).outcome =
      .ok t) :
    (∀ o : Int, 0 ≤ o → o ≤ source.utf8ByteSize →
      ∃ c, (LineIndex.ofText source).cursor o = .ok c ∧
        (∀ k, t.resolveKey .source c = some k ↔ ∃ g, t.Innermost (Region.Around o) g ∧ g.key = k) ∧
        (t.resolveKey .source c = none ↔ ∀ g ∈ t.regions.values, ¬g.Around o)) ∧
    (∀ c : Cursor,
      (∀ k, t.resolveKey .source c = some k ↔ ∃ g, t.Innermost (Region.Between c) g ∧ g.key = k) ∧
      (t.resolveKey .source c = none ↔ ∀ g ∈ t.regions.values, ¬g.Between c)) ∧
    ∀ (contract' : String) (excluded' : Option SourceRange) (generation' : Int) (b : Assembly)
      (u : RegionTable),
      (b.tabulate (Builder.new (.ofText source) contract' excluded' generation')).outcome = .ok u →
      (∀ r, (∃ g ∈ t.regions.values, g.range = r) ↔ ∃ g ∈ u.regions.values, g.range = r) →
      ∀ c, u.resolveKey .source c = t.resolveKey .source c := by
  have ht := Assembly.placed_of_tabulate h
  have ha := LineIndex.ascending_ofText source
  refine ⟨fun o h₀ ho => ?_, fun c => ?_, fun contract' excluded' generation' b u hu hr c => ?_⟩
  · refine ⟨_, LineIndex.cursor_eq_ok h₀ (by rw [LineIndex.length_ofText]; exact ho), ?_⟩
    refine ht.resolveKey_spec fun r hr => ?_
    rw [ht.shows_spot_iff ha hr, Int.toNat_of_nonneg h₀]
    rfl
  · exact ht.resolveKey_spec fun r hr => ht.shows_source_iff ha hr
  · exact ht.resolveKey_eq_of_ranges (Assembly.placed_of_tabulate hu) hr

/-- In a small assembly the newline after the second line resolves to the range around it. -/
theorem resolve_source_innermost_small :
    ∃ t, (Assembly.small.tabulate Builder.small).outcome = .ok t ∧
      ∃ c, (LineIndex.ofText "ab\ncde\nfg").cursor 6 = .ok c ∧
        t.resolveKey .source c = some "5:7" := by
  obtain ⟨t, ht⟩ := Assembly.exists_tabulate_small
  obtain ⟨c, hc, hk, -⟩ := (resolve_source_innermost ht).1 6 (by decide) (by decide +kernel)
  refine ⟨t, ht, c, hc, (hk _).mpr ?_⟩
  obtain rfl := Assembly.eq_of_tabulate ht
  have hmost : ∃ g ∈ (Builder.small.callAll Assembly.small.calls).table.regions.values,
      ((g.range.first ≤ 6 ∧ 6 ≤ g.range.last) ∧
        ∀ r ∈ (Builder.small.callAll Assembly.small.calls).table.regions.values,
          r.range.first ≤ 6 ∧ 6 ≤ r.range.last → g.range.specificity ≤ r.range.specificity) ∧
      g.key = "5:7" := by decide +kernel
  obtain ⟨g, hg, hmost, hkey⟩ := hmost
  exact ⟨g, ⟨hg, hmost⟩, hkey⟩

end AsmLens
