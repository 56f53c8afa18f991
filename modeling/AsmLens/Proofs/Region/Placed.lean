import AsmLens.Proofs.Assembly.Agreement
import Mathlib.Data.Prod.Lex

/-!
# Placed regions

The regions of a table that a builder made lie in the text, each under the key and at the
position of its range. Ranges are ordered by length, then by their ends, and no two ranges are
equal in this order.

* `SourceRange.specificity` — what ranges are compared by
* `RegionTable.Placed` — tables whose regions are at the places of their ranges
* `Assembly.placed_of_tabulate` — the table of an assembly is one
-/

namespace AsmLens

/-! ## The order of ranges -/

namespace SourceRange

variable {a b : SourceRange}

/-- What ranges are compared by: the length, then the first offset, then the last. -/
def specificity (r : SourceRange) : ℤ ×ₗ ℤ ×ₗ ℤ := toLex (r.last - r.first, toLex (r.first, r.last))

theorem specificity_injective : Function.Injective specificity := by
  intro a b h
  obtain ⟨-, h⟩ := Prod.mk.inj (toLex.injective h)
  obtain ⟨hf, hl⟩ := Prod.mk.inj (toLex.injective h)
  cases a with | mk f l
  cases b with | mk f' l'
  obtain rfl : f = f' := hf
  obtain rfl : l = l' := hl
  rfl

theorem specificLE_iff : a.specificLE b = true ↔ a.specificity ≤ b.specificity := by
  rw [specificity, specificity, Prod.Lex.toLex_le_toLex, Prod.Lex.toLex_le_toLex]
  simp only [specificLE, positionLE, Bool.or_eq_true, Bool.and_eq_true, decide_eq_true_iff]
  rfl

end SourceRange

/-! ## Placed tables -/

/-- The regions lie in a text, each under the key and at the position of its range. -/
structure RegionTable.Placed (ix : LineIndex) (t : RegionTable) : Prop where
  key : ∀ p ∈ t.regions.toList, p.1 = p.2.range.key
  position : ∀ g ∈ t.regions.values, g.position = ix.place g.range
  within : ∀ g ∈ t.regions.values,
    0 ≤ g.range.first ∧ g.range.first ≤ g.range.last ∧ g.range.last ≤ ix.length

namespace RegionTable.Placed

variable {ix : LineIndex} {t : RegionTable} {g h : Region}

/-- A region is found under the key of its range. -/
theorem find?_eq (ht : t.Placed ix) (hg : g ∈ t.regions.values) :
    t.find? g.key = some g := by
  obtain ⟨⟨k, r⟩, hp, rfl⟩ := List.mem_map.mp hg
  rw [RegionTable.find?, Ledger.find?_eq_some]
  have hk : k = r.range.key := ht.key _ hp
  rw [show r.key = k from hk.symm]
  exact hp

/-- Regions of one range are one region. -/
theorem eq_of_range_eq (ht : t.Placed ix) (hg : g ∈ t.regions.values) (hh : h ∈ t.regions.values)
    (he : g.range = h.range) : g = h := by
  have hk : g.key = h.key := by rw [Region.key, Region.key, he]
  have hf := ht.find?_eq hg
  rw [hk, ht.find?_eq hh] at hf
  exact (Option.some.inj hf).symm

theorem length_eq (ht : t.Placed ix) (hg : g ∈ t.regions.values) : g.length = g.range.length := by
  rw [Region.length, ht.position g hg]
  rfl

/-- Regions are sorted as their ranges are. -/
theorem specificLE_iff (ht : t.Placed ix) (hg : g ∈ t.regions.values)
    (hh : h ∈ t.regions.values) :
    g.specificLE h = true ↔ g.range.specificity ≤ h.range.specificity := by
  rw [← SourceRange.specificLE_iff, Region.specificLE, ht.length_eq hg, ht.length_eq hh]
  rfl

end RegionTable.Placed

/-! ## The tables of builders -/

theorem mem_rangesIn_le {n : Nat} {o : Transcript} {r : SourceRange} (h : r ∈ rangesIn n o) :
    0 ≤ r.first ∧ r.first ≤ r.last ∧ r.last ≤ n := by
  obtain ⟨x, -, hr⟩ := List.mem_filterMap.mp h
  exact Origin.le_of_range? hr

/-- A builder that holds what a transcript says has a placed table. -/
theorem Builder.Written.placed {ix : LineIndex} {excluded : Option SourceRange} {o : Transcript}
    {b : Builder} (h : b.Written ix excluded o) : b.table.Placed ix := by
  refine ⟨?_, ?_, ?_⟩
  · intro p hp
    obtain ⟨r, -, rfl⟩ := h.of_mem_regions hp
    rfl
  · intro g hg
    obtain ⟨p, hp, rfl⟩ := List.mem_map.mp hg
    obtain ⟨r, -, rfl⟩ := h.of_mem_regions hp
    rfl
  · intro g hg
    obtain ⟨p, hp, rfl⟩ := List.mem_map.mp hg
    obtain ⟨r, hr, rfl⟩ := h.of_mem_regions hp
    exact mem_rangesIn_le hr

/-- The table of an assembly is placed. -/
theorem Assembly.placed_of_tabulate {a : Assembly} {ix : LineIndex} {contract : String}
    {excluded : Option SourceRange} {generation : Int} {t : RegionTable}
    (h : (a.tabulate (Builder.new ix contract excluded generation)).outcome = .ok t) :
    t.Placed ix := by
  rw [Assembly.eq_of_tabulate h]
  exact ((Builder.Written.new ix contract excluded generation).callAll a.calls).placed

end AsmLens
