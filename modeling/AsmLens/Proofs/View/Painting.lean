import AsmLens.Proofs.Gas.Merge
import AsmLens.Proofs.Region.Placed
import AsmLens.View.Decoration
import Mathlib.Data.List.Forall2
import Mathlib.Data.List.Nodup

/-!
# Painting

The regions of a placed table are painted in one order, the longest first, in both views. A color
comes from the place of a region in this order, and the place from its key, so what is painted for a
key can be said without the other view and without the order in which the regions arrived.

* `Region.areas`, `Region.decorations_eq_map` — what is painted for a region, apart from its looks
* `RegionTable.rank` — the place of a key in the order of painting
* `RegionTable.Placed.decorations_eq` — what is painted, region by region
* `RegionTable.Placed.byPainting_eq` — the order depends on the regions alone
* `RegionTable.Placed.forall₂_decorations` — what other gas and another selection change
* `RegionTable.painted_faithfully` — the main result
-/

namespace AsmLens

/-! ## Areas and looks -/

/-- What is painted for a region: from where to where, and whether in full lines. -/
structure Area where
  key : String
  start : Cursor
  stop : Cursor
  wholeLine : Bool

namespace Decoration

/-- What a decoration paints. -/
def area (d : Decoration) : Area := ⟨d.key, d.start, d.stop, d.wholeLine⟩

/-- An area with its looks. -/
def ofArea (style : String) (margin : Option String) (a : Area) : Decoration :=
  ⟨a.key, a.start, a.stop, style, a.wholeLine, margin⟩

/-- The mark in the margin of a region that is picked or not. -/
def mark (picked : Bool) : Option String := if picked then some highlightMargin else none

end Decoration

/-- Whether the region under a key is the selected one. -/
def Selection.picks (selection : Option Selection) (key : String) : Bool :=
  selection.any fun s => s.key = key

namespace Region

variable {r r' : Region} {view : View} {place : Nat} {d : Decoration}

/-- The areas of a region in a view: its extent in the source, its spans in the listing. -/
def areas (r : Region) : View → List Area
  | .source => [⟨r.key, r.position.start, r.position.stop, r.position.isMultiline⟩]
  | .compiled => r.spans.map fun s => ⟨r.key, ⟨s.first, 1⟩, ⟨s.last, 1⟩, true⟩

theorem key_of_mem_areas {a : Area} (h : a ∈ r.areas view) : a.key = r.key := by
  cases view with
  | source => rw [List.mem_singleton.mp h]
  | compiled =>
    obtain ⟨s, -, rfl⟩ := List.mem_map.mp h
    rfl

/-- All areas of a region get the same looks. -/
theorem decorations_eq_map (r : Region) (view : View) (place : Nat) (picked : Bool) :
    r.decorations view place picked =
      (r.areas view).map (.ofArea (r.style place picked) (Decoration.mark picked)) := by
  cases view with
  | source => rfl
  | compiled =>
    rw [areas, List.map_map]
    rfl

theorem map_area_decorations (r : Region) (view : View) (place : Nat) (picked : Bool) :
    (r.decorations view place picked).map Decoration.area = r.areas view := by
  rw [decorations_eq_map, List.map_map]
  exact List.map_id _

theorem of_mem_decorations {picked : Bool} (h : d ∈ r.decorations view place picked) :
    d.key = r.key ∧ d.style = r.style place picked ∧ d.margin = Decoration.mark picked := by
  rw [decorations_eq_map] at h
  obtain ⟨a, ha, rfl⟩ := List.mem_map.mp h
  exact ⟨key_of_mem_areas ha, rfl, rfl⟩

theorem key_of_unmeasured (h : r.unmeasured = r'.unmeasured) : r.key = r'.key :=
  (congrArg key h :)

/-- The gas of a region has no part in its areas. -/
theorem areas_of_unmeasured (h : r.unmeasured = r'.unmeasured) (view : View) :
    r.areas view = r'.areas view := by
  have ha : r.unmeasured.areas view = r'.unmeasured.areas view := by rw [h]
  cases view <;> exact ha

/-- Other gas changes only the style of a region; only whether it is picked changes its margin. -/
theorem forall₂_decorations (h : r.unmeasured = r'.unmeasured) (view : View) (place : Nat)
    (picked picked' : Bool) :
    List.Forall₂ (fun d d' => d.key = r.key ∧ d.area = d'.area ∧
        (picked = picked' → d.margin = d'.margin ∧ (r = r' → d = d')))
      (r.decorations view place picked) (r'.decorations view place picked') := by
  rw [decorations_eq_map, decorations_eq_map, ← areas_of_unmeasured h]
  refine List.forall₂_map_left_iff.mpr (List.forall₂_map_right_iff.mpr (List.forall₂_same.mpr ?_))
  intro a ha
  refine ⟨key_of_mem_areas ha, rfl, ?_⟩
  rintro rfl
  exact ⟨rfl, by rintro rfl; rfl⟩

/-! ## The order of painting -/

theorem paintLE_trans (a b c : Region) (hab : a.paintLE b = true) (hbc : b.paintLE c = true) :
    a.paintLE c = true := by
  simp only [paintLE, SourceRange.positionLE, Bool.or_eq_true, Bool.and_eq_true,
    decide_eq_true_iff] at *
  omega

theorem paintLE_total (a b : Region) : (a.paintLE b || b.paintLE a) = true := by
  simp only [paintLE, SourceRange.positionLE, Bool.or_eq_true, Bool.and_eq_true,
    decide_eq_true_iff]
  omega

/-- Only regions of one range tie. -/
theorem range_eq_of_paintLE (h : r.paintLE r' = true) (h' : r'.paintLE r = true) :
    r.range = r'.range := by
  simp only [paintLE, SourceRange.positionLE, Bool.or_eq_true, Bool.and_eq_true,
    decide_eq_true_iff] at h h'
  have hfirst : r.range.first = r'.range.first := by omega
  have hlast : r.range.last = r'.range.last := by omega
  cases hr : r.range
  cases hr' : r'.range
  rw [hr, hr'] at hfirst hlast
  obtain rfl := hfirst
  obtain rfl := hlast
  rfl

/-- What is painted first is no shorter. -/
theorem length_le_of_paintLE (h : r.paintLE r' = true) : r'.length ≤ r.length := by
  simp only [paintLE, Bool.or_eq_true, Bool.and_eq_true, decide_eq_true_iff] at h
  omega

end Region

/-- That a range lies within another one and is not the same. -/
def SourceRange.Encloses (a b : SourceRange) : Prop :=
  a.first ≤ b.first ∧ b.last ≤ a.last ∧ a ≠ b

instance (a b : SourceRange) : Decidable (a.Encloses b) := inferInstanceAs (Decidable (_ ∧ _))

theorem SourceRange.Encloses.length_lt {a b : SourceRange} (h : a.Encloses b) :
    b.length < a.length := by
  obtain ⟨hfirst, hlast, hne⟩ := h
  by_contra hle
  simp only [length] at hle
  refine hne ?_
  cases a
  cases b
  simp only [SourceRange.mk.injEq] at *
  omega

/-- The place of an element is that of its key, where no two have the same key. -/
theorem zipIdx_eq_map_idxOf {α β : Type} [DecidableEq β] {f : α → β} {l : List α}
    (h : (l.map f).Nodup) : l.zipIdx = l.map fun x => (x, (l.map f).idxOf (f x)) := by
  refine List.ext_getElem (by simp) fun i hi hi' => ?_
  have hl : i < (l.map f).length := by simpa using hi
  have hplace := h.idxOf_getElem i hl
  rw [List.getElem_map] at hplace
  rw [List.getElem_zipIdx, List.getElem_map, hplace, Nat.zero_add]

namespace RegionTable

variable {t u : RegionTable} {g r : Region} {ix : LineIndex} {view : View}
  {selection : Option Selection} {d : Decoration}

theorem byPainting_perm (t : RegionTable) : t.byPainting.Perm t.regions.values :=
  List.mergeSort_perm ..

theorem mem_byPainting : r ∈ t.byPainting ↔ r ∈ t.regions.values := List.mem_mergeSort

theorem pairwise_byPainting (t : RegionTable) :
    t.byPainting.Pairwise fun a b => a.paintLE b = true :=
  List.pairwise_mergeSort Region.paintLE_trans Region.paintLE_total _

/-- The place of a key in the order of painting. -/
def rank (t : RegionTable) (key : String) : Nat := (t.byPainting.map Region.key).idxOf key

/-- Gas has no part in the order of painting. -/
theorem byPainting_of_unmeasured (h : u.unmeasured = t.unmeasured) :
    u.byPainting.map Region.unmeasured = t.byPainting.map Region.unmeasured := by
  have hvalues : u.regions.values.map Region.unmeasured = t.regions.values.map Region.unmeasured := by
    have hv := congrArg (fun v => v.regions.values) h
    simpa [unmeasured, Ledger.values, Ledger.mapValues, List.map_map, Function.comp_def] using hv
  have hsort : ∀ l : List Region, (l.mergeSort Region.paintLE).map Region.unmeasured =
      (l.map Region.unmeasured).mergeSort Region.paintLE :=
    fun l => List.map_mergeSort fun _ _ _ _ => rfl
  rw [byPainting, byPainting, hsort, hsort, hvalues]

theorem rank_of_unmeasured (h : u.unmeasured = t.unmeasured) : u.rank = t.rank := by
  have hkeys : ∀ l : List Region, l.map Region.key = (l.map Region.unmeasured).map Region.key :=
    fun l => by rw [List.map_map]; rfl
  funext key
  rw [rank, rank, hkeys, byPainting_of_unmeasured h, ← hkeys]

namespace Placed

theorem eq_of_key_eq (ht : t.Placed ix) (hg : g ∈ t.regions.values) (hr : r ∈ t.regions.values)
    (h : g.key = r.key) : g = r := by
  have hf := ht.find?_eq hg
  rw [h, ht.find?_eq hr] at hf
  exact (Option.some.inj hf).symm

theorem map_key_values (ht : t.Placed ix) : t.regions.values.map Region.key = t.regions.keys := by
  rw [Ledger.values, Ledger.keys, List.map_map]
  exact List.map_congr_left fun p hp => (ht.key p hp).symm

theorem nodup_map_key_byPainting (ht : t.Placed ix) : (t.byPainting.map Region.key).Nodup := by
  rw [(t.byPainting_perm.map Region.key).nodup_iff, ht.map_key_values]
  exact t.regions.nodup

/-- A table that differs in gas alone is placed too. -/
theorem of_unmeasured (ht : t.Placed ix) (h : u.unmeasured = t.unmeasured) : u.Placed ix := by
  have hlist : (u.regions.toList.map fun p => (p.1, p.2.unmeasured)) =
      t.regions.toList.map fun p => (p.1, p.2.unmeasured) :=
    congrArg (fun v => v.regions.toList) h
  have partner : ∀ p ∈ u.regions.toList, ∃ q ∈ t.regions.toList,
      q.1 = p.1 ∧ q.2.unmeasured = p.2.unmeasured := by
    intro p hp
    have hmem := List.mem_map_of_mem (f := fun p => (p.1, p.2.unmeasured)) hp
    rw [hlist] at hmem
    obtain ⟨q, hq, he⟩ := List.mem_map.mp hmem
    exact ⟨q, hq, Prod.mk.inj he⟩
  have ranged : ∀ g ∈ u.regions.values, ∃ r ∈ t.regions.values,
      r.range = g.range ∧ r.position = g.position := by
    intro g hg
    obtain ⟨p, hp, rfl⟩ := List.mem_map.mp hg
    obtain ⟨q, hq, -, he⟩ := partner p hp
    exact ⟨q.2, List.mem_map_of_mem hq, (congrArg Region.range he :), (congrArg Region.position he :)⟩
  refine ⟨fun p hp => ?_, fun g hg => ?_, fun g hg => ?_⟩
  · obtain ⟨q, hq, hk, he⟩ := partner p hp
    rw [← hk, ht.key q hq]
    exact Region.key_of_unmeasured he
  · obtain ⟨r, hr, hrange, hposition⟩ := ranged g hg
    rw [← hposition, ← hrange, ht.position r hr]
  · obtain ⟨r, hr, hrange, -⟩ := ranged g hg
    rw [← hrange]
    exact ht.within r hr

/-! ## What is painted -/

/-- **Each region is painted at the place of its key.** -/
theorem decorations_eq (ht : t.Placed ix) (view : View) (selection : Option Selection) :
    t.decorations view selection = t.byPainting.flatMap fun r =>
      r.decorations view (t.rank r.key) (Selection.picks selection r.key) := by
  rw [decorations, zipIdx_eq_map_idxOf ht.nodup_map_key_byPainting, List.flatMap_map]
  rfl

theorem map_area_decorations (ht : t.Placed ix) (view : View) (selection : Option Selection) :
    (t.decorations view selection).map Decoration.area =
      t.byPainting.flatMap fun r => r.areas view := by
  rw [ht.decorations_eq, List.map_flatMap]
  exact List.flatMap_congr fun r _ => r.map_area_decorations ..

/-- How a key looks depends on the key and on the selection. -/
theorem of_mem_decorations (ht : t.Placed ix) (h : d ∈ t.decorations view selection) :
    ∃ r ∈ t.regions.values, d.key = r.key ∧
      d.style = r.style (t.rank r.key) (Selection.picks selection r.key) ∧
      d.margin = Decoration.mark (Selection.picks selection r.key) := by
  rw [ht.decorations_eq] at h
  obtain ⟨r, hr, hd⟩ := List.mem_flatMap.mp h
  exact ⟨r, mem_byPainting.mp hr, Region.of_mem_decorations hd⟩

/-- What is painted for a region comes before what is painted for those that it encloses. -/
theorem pairwise_decorations (ht : t.Placed ix) (view : View) (selection : Option Selection) :
    (t.decorations view selection).Pairwise fun d e =>
      ∀ g ∈ t.regions.values, ∀ r ∈ t.regions.values, g.range.Encloses r.range →
        ¬(d.key = r.key ∧ e.key = g.key) := by
  rw [ht.decorations_eq, List.pairwise_flatMap]
  constructor
  · intro a _
    refine List.pairwise_of_forall_mem_list fun d hd e he g hg r hr henc ⟨hdr, heg⟩ => ?_
    have hkey : g.key = r.key := by
      rw [← hdr, ← heg, (Region.of_mem_decorations hd).1, (Region.of_mem_decorations he).1]
    exact henc.2.2 (congrArg Region.range (ht.eq_of_key_eq hg hr hkey))
  · refine t.pairwise_byPainting.imp_of_mem fun {a b} ha hb hle d hd e he g hg r hr henc ⟨hdr, heg⟩ => ?_
    rw [(Region.of_mem_decorations hd).1] at hdr
    rw [(Region.of_mem_decorations he).1] at heg
    obtain rfl := ht.eq_of_key_eq (mem_byPainting.mp ha) hr hdr
    obtain rfl := ht.eq_of_key_eq (mem_byPainting.mp hb) hg heg
    have hlength := henc.length_lt
    have hle := Region.length_le_of_paintLE hle
    rw [ht.length_eq hr, ht.length_eq hg] at hle
    omega

/-- The order of painting depends on the regions alone, not on the order of their arrival. -/
theorem byPainting_eq (ht : t.Placed ix) (h : ∀ p, p ∈ u.regions.toList ↔ p ∈ t.regions.toList) :
    u.byPainting = t.byPainting := by
  have hlist : u.regions.toList.Perm t.regions.toList :=
    (List.perm_ext_iff_of_nodup (List.Nodup.of_map _ u.regions.nodup)
      (List.Nodup.of_map _ t.regions.nodup)).mpr h
  have hperm : u.byPainting.Perm t.byPainting :=
    (u.byPainting_perm.trans (hlist.map Prod.snd)).trans t.byPainting_perm.symm
  refine List.Perm.eq_of_pairwise (fun a b ha hb hab hba => ?_) u.pairwise_byPainting
    t.pairwise_byPainting hperm
  exact ht.eq_of_range_eq (mem_byPainting.mp (hperm.subset ha)) (mem_byPainting.mp hb)
    (Region.range_eq_of_paintLE hab hba)

/-! ## Other gas and another selection -/

/-- Tables that differ in gas alone paint the same regions in the same order. -/
theorem forall₂_byPainting (ht : t.Placed ix) (h : u.unmeasured = t.unmeasured) :
    List.Forall₂ (fun r r' => r.unmeasured = r'.unmeasured ∧ t.find? r.key = some r ∧
      u.find? r.key = some r') t.byPainting u.byPainting := by
  have hu := ht.of_unmeasured h
  have hsame : List.Forall₂ (fun r r' : Region => r.unmeasured = r'.unmeasured)
      t.byPainting u.byPainting := by
    have heq := List.forall₂_eq_eq_eq ▸ (byPainting_of_unmeasured h).symm
    exact List.forall₂_map_left_iff.mp (List.forall₂_map_right_iff.mp heq)
  obtain ⟨hlength, hzip⟩ := List.forall₂_iff_zip.mp hsame
  refine List.forall₂_iff_zip.mpr ⟨hlength, fun {r r'} hmem => ?_⟩
  obtain ⟨hr, hr'⟩ := List.of_mem_zip hmem
  have he := hzip hmem
  refine ⟨he, ht.find?_eq (mem_byPainting.mp hr), ?_⟩
  rw [Region.key_of_unmeasured he]
  exact hu.find?_eq (mem_byPainting.mp hr')

/-- **Other gas and another selection move no decoration, and change only the looks of regions that
have other gas or are picked in one of the two only.** -/
theorem forall₂_decorations (ht : t.Placed ix) (h : u.unmeasured = t.unmeasured) (view : View)
    (selection selection' : Option Selection) :
    List.Forall₂ (fun d d' => d.area = d'.area ∧
        (Selection.picks selection d.key = Selection.picks selection' d.key →
          d.margin = d'.margin ∧ (t.find? d.key = u.find? d.key → d = d')))
      (t.decorations view selection) (u.decorations view selection') := by
  rw [ht.decorations_eq, (ht.of_unmeasured h).decorations_eq, rank_of_unmeasured h]
  refine List.rel_flatMap (ht.forall₂_byPainting h) fun {r r'} hr => ?_
  obtain ⟨he, hfind, hfind'⟩ := hr
  rw [← Region.key_of_unmeasured he]
  refine (Region.forall₂_decorations he view _ _ _).imp fun d d' ⟨hd, harea, hlooks⟩ => ?_
  refine ⟨harea, fun hpicks => ?_⟩
  rw [hd] at hpicks ⊢
  obtain ⟨hmargin, hsame⟩ := hlooks hpicks
  refine ⟨hmargin, fun hf => hsame ?_⟩
  rw [hfind, hfind'] at hf
  exact Option.some.inj hf

end Placed

/-! ## Main result -/

theorem unmeasured_mergeAll {ss : List Survey} (h : t.mergeAll ss = .ok u) :
    u.unmeasured = t.unmeasured := by
  rw [(mergeAll_eq h).1, ← unmeasured_enter t]
  rfl

/-- The table of an assembly is placed, also with measurements merged into it. -/
theorem placed_of_mergeAll {a : Assembly} {contract : String} {excluded : Option SourceRange}
    {generation : Int} {ss : List Survey}
    (h : (a.tabulate (Builder.new ix contract excluded generation)).outcome = .ok t)
    (hu : t.mergeAll ss = .ok u) : u.Placed ix :=
  (Assembly.placed_of_tabulate h).of_unmeasured (unmeasured_mergeAll hu)

/--
**Decorations are a faithful picture of a table.** For the table of an assembly, with any
measurements merged into it: both views visit the regions in one order, the source with one
decoration for each region, the listing with one for each of its spans, in the order of the spans.
What is painted for a region comes before what is painted for those that it encloses. A key looks the
same in both views. A table with the same regions, in whatever order, is painted the same. More
measurements move no decoration and change only the style of those whose keys are measured; another
selection moves none either, and changes only the looks of those it picks or no longer picks.
-/
theorem painted_faithfully {source contract : String} {excluded : Option SourceRange}
    {generation : Int} {a : Assembly} {t₀ t : RegionTable} {ss : List Survey}
    (h₀ : (a.tabulate (Builder.new (.ofText source) contract excluded generation)).outcome = .ok t₀)
    (h : t₀.mergeAll ss = .ok t) :
    (∃ rs : List Region, rs.Perm t.regions.values ∧ ∀ selection,
      (t.decorations .source selection).map Decoration.area =
        rs.map (fun r => ⟨r.key, r.position.start, r.position.stop, r.position.isMultiline⟩) ∧
      (t.decorations .compiled selection).map Decoration.area =
        rs.flatMap fun r => r.spans.map fun s => ⟨r.key, ⟨s.first, 1⟩, ⟨s.last, 1⟩, true⟩) ∧
    (∀ view selection, ∀ g ∈ t.regions.values, ∀ r ∈ t.regions.values, g.range.Encloses r.range →
      ∀ (i j : Nat) (d e : Decoration), (t.decorations view selection)[i]? = some d →
        (t.decorations view selection)[j]? = some e → d.key = g.key → e.key = r.key → i < j) ∧
    (∀ selection view view', ∀ d ∈ t.decorations view selection,
      ∀ d' ∈ t.decorations view' selection, d.key = d'.key →
        d.style = d'.style ∧ d.margin = d'.margin) ∧
    (∀ u : RegionTable, (∀ p, p ∈ u.regions.toList ↔ p ∈ t.regions.toList) →
      ∀ view selection, u.decorations view selection = t.decorations view selection) ∧
    (∀ labels ms view selection, List.Forall₂ (fun d d' => d.area = d'.area ∧ d.margin = d'.margin ∧
        (d.key ∉ (ms.creation ++ ms.runtime).map Prod.fst → d = d'))
      (t.decorations view selection) ((t.attachAll labels ms).decorations view selection)) ∧
    ∀ view selection selection', List.Forall₂ (fun d d' => d.area = d'.area ∧
        (Selection.picks selection d.key = Selection.picks selection' d.key → d = d'))
      (t.decorations view selection) (t.decorations view selection') := by
  have ht := placed_of_mergeAll h₀ h
  refine ⟨⟨t.byPainting, t.byPainting_perm, fun selection => ⟨?_, ?_⟩⟩, ?_, ?_, ?_, ?_, ?_⟩
  · rw [ht.map_area_decorations]
    exact List.map_eq_flatMap.symm
  · exact ht.map_area_decorations .compiled selection
  · intro view selection g hg r hr henc i j d e hd he hdg her
    have hpairs := List.pairwise_iff_getElem.mp (ht.pairwise_decorations view selection)
    obtain ⟨hi, rfl⟩ := List.getElem?_eq_some_iff.mp hd
    obtain ⟨hj, rfl⟩ := List.getElem?_eq_some_iff.mp he
    rcases Nat.lt_trichotomy i j with hij | rfl | hji
    · exact hij
    · have hkey := ht.eq_of_key_eq hg hr (hdg.symm.trans her)
      exact absurd (congrArg Region.range hkey) henc.2.2
    · exact absurd ⟨her, hdg⟩ (hpairs j i hj hi hji g hg r hr henc)
  · intro selection view view' d hd d' hd' hkey
    obtain ⟨r, hr, hk, hstyle, hmargin⟩ := ht.of_mem_decorations hd
    obtain ⟨r', hr', hk', hstyle', hmargin'⟩ := ht.of_mem_decorations hd'
    obtain rfl := ht.eq_of_key_eq hr hr' (by rw [← hk, ← hk', hkey])
    exact ⟨hstyle.trans hstyle'.symm, hmargin.trans hmargin'.symm⟩
  · intro u hu view selection
    rw [decorations, decorations, ht.byPainting_eq hu]
  · intro labels ms view selection
    have hun := unmeasured_attachAll t labels ms
    refine (ht.forall₂_decorations hun view selection selection).imp fun d d' ⟨harea, hlooks⟩ => ?_
    obtain ⟨hmargin, hsame⟩ := hlooks rfl
    refine ⟨harea, hmargin, fun hnot => hsame ?_⟩
    rw [find?_attachAll, Ledger.search_eq_none (by rwa [List.map_reverse, List.mem_reverse])]
    simp
  · intro view selection selection'
    exact (ht.forall₂_decorations rfl view selection selection').imp
      fun d d' ⟨harea, hlooks⟩ => ⟨harea, fun hpicks => (hlooks hpicks).2 rfl⟩

/-- An assembly with a region inside another one, whose code comes first and once more at the end. -/
def nestedAssembly : Assembly where
  constructor := [⟨"MSTORE", none, some 0, some 0, some 4⟩, ⟨"PUSH1", some "80", some 0, some 0, some 9⟩]
  runtime := [⟨"ADD", none, some 0, some 0, some 4⟩]

theorem exists_tabulate_nested :
    ∃ t, (nestedAssembly.tabulate Builder.small).outcome = .ok t := by
  have hok : (nestedAssembly.tabulate Builder.small).outcome.isOk = true := by decide +kernel
  cases ht : (nestedAssembly.tabulate Builder.small).outcome with
  | ok t => exact ⟨t, rfl⟩
  | error e =>
    rw [ht] at hok
    exact nomatch hok

/-- A measurement of the inner region. -/
def innerSurvey : Survey := ⟨⟨[("0:4", smallRecord none)], []⟩, .null, .null⟩

/-- The listing paints a measured region after the one around it, though its code comes first. -/
theorem painted_faithfully_nested :
    ∃ t₀ t, (nestedAssembly.tabulate Builder.small).outcome = .ok t₀ ∧
      t₀.mergeAll [innerSurvey] = .ok t ∧ (t.decorations .source none).length = 2 ∧
      ∀ (i j : Nat) (d e : Decoration), (t.decorations .compiled none)[i]? = some d →
        (t.decorations .compiled none)[j]? = some e → d.key = "0:9" → e.key = "0:4" → i < j := by
  obtain ⟨t₀, h₀⟩ := exists_tabulate_nested
  have heq := Assembly.eq_of_tabulate h₀
  have hretired : t₀.retired = false := by rw [heq]; decide +kernel
  have hmerge : t₀.mergeAll [innerSurvey] = .ok (t₀.attachAll ∅ innerSurvey.measurements) := by
    rw [mergeAll, List.foldlM_cons, merge_eq_ok.mpr ⟨hretired, ∅, rfl, rfl⟩]
    rfl
  obtain ⟨⟨rs, hperm, hareas⟩, hnested, -⟩ := painted_faithfully h₀ hmerge
  refine ⟨t₀, _, h₀, hmerge, ?_, ?_⟩
  · have hlength := congrArg List.length (hareas none).1
    rw [List.length_map, List.length_map, hperm.length_eq, heq] at hlength
    rw [heq, hlength]
    decide +kernel
  · have hregions : ∃ g ∈ (t₀.attachAll ∅ innerSurvey.measurements).regions.values,
        ∃ r ∈ (t₀.attachAll ∅ innerSurvey.measurements).regions.values,
          g.range.Encloses r.range ∧ g.key = "0:9" ∧ r.key = "0:4" := by
      rw [heq]
      decide +kernel
    obtain ⟨g, hg, r, hr, henc, hgk, hrk⟩ := hregions
    intro i j d e hd he hdk hek
    exact hnested .compiled none g hg r hr henc i j d e hd he (hdk.trans hgk.symm) (hek.trans hrk.symm)

end RegionTable

end AsmLens
