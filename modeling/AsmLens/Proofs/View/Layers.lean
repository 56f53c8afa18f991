import AsmLens.Proofs.View.Painting
import AsmLens.Proofs.View.Resolve

/-!
# Layers

The decorations around a cursor lie on each other, and the one painted last is seen. Painting sorts
the longest regions first and resolution the shortest, with ties broken the same way in both, so what
is seen at a cursor is as long as what the cursor resolves to, and is that region unless there is a
tie.

* `RegionTable.layers` — the decorations around a cursor, in the order of painting
* `RegionTable.Placed.map_key_layers` — they are those of the regions around it
* `RegionTable.painted_last_resolves` — the main result
-/

namespace AsmLens

/-- What is at least as specific is no longer. -/
theorem Region.length_le_of_specificLE {r r' : Region} (h : r.specificLE r' = true) :
    r.length ≤ r'.length := by
  simp only [specificLE, Bool.or_eq_true, Bool.and_eq_true, decide_eq_true_iff] at h
  omega

namespace RegionTable

variable {t : RegionTable} {ix : LineIndex}

/-- Whether the region under a key contains a cursor in the source. -/
def covers (t : RegionTable) (c : Cursor) (key : String) : Bool :=
  (t.find? key).any fun r => r.position.contains c

/-- The decorations of the source whose regions contain a cursor, in the order of painting. -/
def layers (t : RegionTable) (selection : Option Selection) (c : Cursor) : List Decoration :=
  (t.decorations .source selection).filter fun d => t.covers c d.key

/-- In an order of painting, the last of some regions is the shortest. -/
theorem length_getLast?_le {rs : List Region} {r g : Region}
    (h : rs.Pairwise fun a b => a.paintLE b = true) (hr : rs.getLast? = some r) (hg : g ∈ rs) :
    r.length ≤ g.length := by
  obtain ⟨before, rfl⟩ := List.getLast?_eq_some_iff.mp hr
  rcases List.mem_append.mp hg with hg | hg
  · have hlast := (List.pairwise_append.mp h).2.2 g hg r List.mem_cons_self
    exact Region.length_le_of_paintLE hlast
  · rw [List.mem_singleton.mp hg]

namespace Placed

theorem map_key_source (ht : t.Placed ix) (selection : Option Selection) :
    (t.decorations .source selection).map Decoration.key = t.byPainting.map Region.key := by
  have hareas := congrArg (List.map Area.key) (ht.map_area_decorations .source selection)
  rw [List.map_map, List.map_flatMap] at hareas
  exact hareas.trans List.map_eq_flatMap.symm

/-- The layers at a cursor are those of the regions that contain it. -/
theorem map_key_layers (ht : t.Placed ix) (selection : Option Selection) (c : Cursor) :
    (t.layers selection c).map Decoration.key =
      (t.byPainting.filter fun r => r.position.contains c).map Region.key := by
  have hcovers : ∀ r ∈ t.byPainting, t.covers c r.key = r.position.contains c := by
    intro r hr
    rw [covers, ht.find?_eq (mem_byPainting.mp hr)]
    rfl
  calc (t.layers selection c).map Decoration.key
    _ = ((t.decorations .source selection).map Decoration.key).filter (t.covers c) := by
      rw [List.filter_map]
      rfl
    _ = (t.byPainting.map Region.key).filter (t.covers c) := by rw [ht.map_key_source]
    _ = (t.byPainting.filter fun r => t.covers c r.key).map Region.key := List.filter_map
    _ = _ := by rw [List.filter_congr hcovers]

end Placed

/-! ## Main result -/

/--
**What is painted last at a cursor is what the cursor resolves to.** For the table of an assembly,
with any measurements merged into it, at any cursor in the source: there are no layers exactly if the
cursor resolves to nothing. Otherwise the region of the last layer is as long as the one that the
cursor resolves to, and it is that region unless another one that contains the cursor is as long.
-/
theorem painted_last_resolves {source contract : String} {excluded : Option SourceRange}
    {generation : Int} {a : Assembly} {t₀ t : RegionTable} {ss : List Survey}
    (h₀ : (a.tabulate (Builder.new (.ofText source) contract excluded generation)).outcome = .ok t₀)
    (h : t₀.mergeAll ss = .ok t) (selection : Option Selection) (c : Cursor) :
    (t.layers selection c = [] ↔ t.resolveKey .source c = none) ∧
    ∀ k, t.resolveKey .source c = some k → ∃ g d r, t.find? k = some g ∧
      (t.layers selection c).getLast? = some d ∧ t.find? d.key = some r ∧ r.length = g.length ∧
      ((∀ r' ∈ t.regions.values, r'.position.contains c = true → r'.length = g.length → r' = g) →
        d.key = k) := by
  have ht := placed_of_mergeAll h₀ h
  have hkeys := ht.map_key_layers selection c
  constructor
  · rw [← List.map_eq_nil_iff (f := Decoration.key), hkeys, List.map_eq_nil_iff,
      List.filter_eq_nil_iff, resolveKey, Option.map_eq_none_iff, resolve_eq_none_iff]
    exact forall_congr' fun r => imp_congr_left mem_byPainting
  · intro k hk
    obtain ⟨g, hg, rfl⟩ := Option.map_eq_some_iff.mp hk
    obtain ⟨hmem, hshows, hleast⟩ := of_resolve_eq_some hg
    have hpainted : g ∈ t.byPainting.filter fun r => r.position.contains c :=
      List.mem_filter.mpr ⟨mem_byPainting.mpr hmem, hshows⟩
    cases hlast : (t.byPainting.filter fun r => r.position.contains c).getLast? with
    | none =>
      rw [List.getLast?_eq_none_iff.mp hlast] at hpainted
      exact absurd hpainted List.not_mem_nil
    | some r =>
      obtain ⟨hr, hcontains⟩ := List.mem_filter.mp (List.mem_of_getLast? hlast)
      have hr := mem_byPainting.mp hr
      have hd : ((t.layers selection c).getLast?).map Decoration.key = some r.key := by
        rw [← List.getLast?_map, hkeys, List.getLast?_map, hlast]
        rfl
      obtain ⟨d, hd, hdk⟩ := Option.map_eq_some_iff.mp hd
      have hlength : r.length = g.length := by
        refine le_antisymm (length_getLast?_le (t.pairwise_byPainting.filter _) hlast hpainted) ?_
        exact Region.length_le_of_specificLE (hleast r hr hcontains)
      refine ⟨g, d, r, ht.find?_eq hmem, hd, hdk ▸ ht.find?_eq hr, hlength, fun halone => ?_⟩
      rw [hdk, halone r hr hcontains hlength]

/-- At the start of the second line the inner region is seen, with the outer one below it. -/
theorem painted_last_resolves_nested :
    ∃ t d, (nestedAssembly.tabulate Builder.small).outcome = .ok t ∧
      t.resolveKey .source ⟨2, 1⟩ = some "0:4" ∧ t.covers ⟨2, 1⟩ "0:9" = true ∧
      (t.layers none ⟨2, 1⟩).getLast? = some d ∧ d.key = "0:4" := by
  obtain ⟨t, ht⟩ := exists_tabulate_nested
  have hplaced := Assembly.placed_of_tabulate ht
  have hinner : ∃ g ∈ t.regions.values, (g.shows .source ⟨2, 1⟩ = true ∧
      ∀ r ∈ t.regions.values, r.shows .source ⟨2, 1⟩ = true →
        g.range.specificity ≤ r.range.specificity) ∧ g.key = "0:4" ∧
      (∀ r ∈ t.regions.values, r.length = g.length → r.key = g.key) ∧
      t.covers ⟨2, 1⟩ "0:9" = true := by
    rw [Assembly.eq_of_tabulate ht]
    decide +kernel
  obtain ⟨g, hg, hleast, hkey, halone, houter⟩ := hinner
  have hresolve : t.resolveKey .source ⟨2, 1⟩ = some "0:4" :=
    Option.map_eq_some_iff.mpr ⟨g, hplaced.resolve_eq_some_iff.mpr ⟨hg, hleast⟩, hkey⟩
  have hmerge : t.mergeAll [] = .ok t := rfl
  obtain ⟨g', d, r, hg', hd, -, -, hseen⟩ :=
    (painted_last_resolves ht hmerge none ⟨2, 1⟩).2 _ hresolve
  obtain rfl : g = g' := by
    rw [← hkey, hplaced.find?_eq hg] at hg'
    exact Option.some.inj hg'
  refine ⟨t, d, ht, hresolve, houter, hd, hseen fun r' hr' _ hlength => ?_⟩
  exact hplaced.eq_of_key_eq hr' hg (halone r' hr' hlength)

end RegionTable

end AsmLens
