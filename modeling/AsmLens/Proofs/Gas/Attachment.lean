import AsmLens.Proofs.Gas.Merge
import AsmLens.Proofs.Gas.Reading
import AsmLens.Proofs.Source.Spelling

/-!
# Which measurements find their region

A document may spell a range in many ways, and whatever denotes a range is read. A region is found by
its key alone, so of the measurements for its range it gets the one that is plainly spelled, and the
others are left out as measurements without a region are.

* `Doc.Lists` — what a document measures
* `Measurements.lists_of_mem`, `Measurements.mem_of_lists` — the records of measurements that were read
* `RegionTable.attached_by_plain_key` — the main result
-/

namespace AsmLens

/-! ## What a document measures -/

/-- That a document has a measurement under a key, in one of its phases. -/
def Doc.Lists (document : Doc) (key : String) (item : Doc) : Prop :=
  ∃ phase members, document.field? (Phase.name phase) = some (.object members) ∧ (key, item) ∈ members

namespace Measurements

variable {document : Doc} {ms : Measurements} {key : String}

theorem mem_append_iff {m : String × GasRecord} :
    m ∈ ms.creation ++ ms.runtime ↔ ∃ phase, m ∈ ms.records phase := by
  rw [List.mem_append]
  constructor
  · rintro (hm | hm)
    · exact ⟨.creation, hm⟩
    · exact ⟨.runtime, hm⟩
  · rintro ⟨phase, hm⟩
    cases phase with
    | creation => exact .inl hm
    | runtime => exact .inr hm

/-- Each record was read from what the document lists under its key, which denotes a range. -/
theorem lists_of_mem (h : Measurements.read document = .ok ms) {g : GasRecord}
    (hg : (key, g) ∈ ms.creation ++ ms.runtime) :
    (∃ range, SourceRange.ofKey key = .ok range) ∧
      ∃ item, document.Lists key item ∧ GasRecord.Measures item g := by
  obtain ⟨phase, hg⟩ := mem_append_iff.mp hg
  obtain ⟨members, hmembers, hentries⟩ := read_eq_ok.mp h phase
  obtain ⟨⟨k, item⟩, hmem, hkey, hrange, hmeasures⟩ := exists_of_forall₂ hentries hg
  obtain rfl : k = key := hkey
  exact ⟨hrange, item, ⟨phase, members, hmembers, hmem⟩, hmeasures⟩

/-- What a document lists was read as a record under the same key. -/
theorem mem_of_lists (h : Measurements.read document = .ok ms) {item : Doc}
    (hitem : document.Lists key item) : ∃ g, (key, g) ∈ ms.creation ++ ms.runtime := by
  obtain ⟨phase, members, hmembers, hmem⟩ := hitem
  obtain ⟨members', hmembers', hentries⟩ := read_eq_ok.mp h phase
  obtain rfl := Doc.object.inj (Option.some.inj (hmembers.symm.trans hmembers'))
  obtain ⟨⟨k, g⟩, hg, hkey, -⟩ := exists_of_forall₂ hentries.flip hmem
  obtain rfl : key = k := hkey
  exact ⟨g, mem_append_iff.mpr ⟨phase, hg⟩⟩

end Measurements

namespace RegionTable

variable {t u : RegionTable} {ms : Measurements} {document tree ids : Doc} {k : String} {r : Region}

/-! ## Merging what was read -/

/-- A region with a measurement under its key has one of them afterwards. -/
theorem exists_gas_of_merge (h : t.merge ms tree ids = .ok u) (hr : t.find? k = some r)
    {g : GasRecord} (hg : (k, g) ∈ ms.creation ++ ms.runtime) :
    ∃ s g, u.find? k = some s ∧ s.gas = some g ∧ (k, g) ∈ ms.creation ++ ms.runtime := by
  obtain ⟨-, labels, -, rfl⟩ := merge_eq_ok.mp h
  obtain ⟨g', hg'⟩ : ∃ g', Ledger.search k (ms.creation ++ ms.runtime).reverse = some g' :=
    Option.isSome_iff_exists.mp
      (Ledger.search_isSome.mpr (List.mem_map.mpr ⟨_, List.mem_reverse.mpr hg, rfl⟩))
  refine ⟨r.attach (labels.find? k) g', g', ?_, rfl, List.mem_reverse.mp (Ledger.mem_of_search hg')⟩
  rw [find?_attachAll, hr, hg']
  rfl

/-- A region without a measurement under its key stays as it is. -/
theorem find?_merge_of_notMem (h : t.merge ms tree ids = .ok u)
    (hk : ∀ g, (k, g) ∉ ms.creation ++ ms.runtime) : u.find? k = t.find? k := by
  obtain ⟨-, labels, -, rfl⟩ := merge_eq_ok.mp h
  have hnone : Ledger.search k (ms.creation ++ ms.runtime).reverse = none := by
    refine Ledger.search_eq_none fun hmem => ?_
    obtain ⟨⟨k', g⟩, hg, rfl⟩ := List.mem_map.mp hmem
    exact hk g (List.mem_reverse.mp hg)
  rw [find?_attachAll, hnone]
  simp

/-! ## Measurements of no samples -/

/-- A measurement of no samples. -/
def unsampled : Doc :=
  .object [("numSamples", .int 0), ("minOpcodeGas", .int 0), ("maxOpcodeGas", .int 0),
    ("minStorageGas", .int 0), ("maxStorageGas", .int 0), ("memGas", .int 0)]

theorem measures_unsampled : GasRecord.Measures unsampled (smallRecord none) where
  object := ⟨_, rfl⟩
  samples := ⟨_, rfl, rfl⟩
  minOpcode := rfl
  maxOpcode := rfl
  minStorage := rfl
  maxStorage := rfl
  memory := rfl
  worstCase := ⟨none, rfl, .unsampled (by decide) rfl⟩
  gasClass := rfl
  meanOpcode := rfl
  functionGas := rfl
  loops := .none
  issues := rfl

/-- A document with measurements of no samples, one for each of some keys. -/
def unsampledAt (keys : List String) : Doc :=
  .object [("creation", .object (keys.map fun k => (k, unsampled))), ("runtime", .object [])]

theorem read_unsampledAt {keys : List String} (h : ∀ k ∈ keys, ∃ r, SourceRange.ofKey k = .ok r) :
    Measurements.read (unsampledAt keys) = .ok ⟨keys.map fun k => (k, smallRecord none), []⟩ := by
  refine Measurements.read_eq_ok.mpr fun phase => ?_
  cases phase with
  | runtime => exact ⟨[], rfl, .nil⟩
  | creation =>
    refine ⟨_, rfl, ?_⟩
    rw [List.forall₂_map_left_iff, Measurements.records, List.forall₂_map_right_iff,
      List.forall₂_same]
    exact fun k hk => ⟨rfl, h k hk, measures_unsampled⟩

theorem lists_unsampledAt {keys : List String} {key : String} {item : Doc} :
    (unsampledAt keys).Lists key item ↔ key ∈ keys ∧ item = unsampled := by
  constructor
  · rintro ⟨phase, members, hmembers, hmem⟩
    cases phase with
    | creation =>
      obtain rfl := Doc.object.inj (Option.some.inj hmembers)
      obtain ⟨k, hk, h⟩ := List.mem_map.mp hmem
      obtain ⟨rfl, rfl⟩ := Prod.mk.inj h
      exact ⟨hk, rfl⟩
    | runtime =>
      obtain rfl := Doc.object.inj (Option.some.inj hmembers)
      exact absurd hmem List.not_mem_nil
  · rintro ⟨hk, rfl⟩
    exact ⟨.creation, _, rfl, List.mem_map_of_mem hk⟩

/-- The small table takes all measurements, and nothing names its functions. -/
theorem merge_smallTable (ms : Measurements) :
    smallTable.merge ms .null .null = .ok (smallTable.attachAll ∅ ms) :=
  merge_eq_ok.mpr ⟨by with_unfolding_all rfl, ∅, rfl, rfl⟩

theorem toList_smallTable : smallTable.regions.toList =
    [("0:3", Region.new ⟨0, 3⟩ ⟨⟨1, 1⟩, ⟨1, 4⟩, 3⟩),
      ("4:9", Region.new ⟨4, 9⟩ ⟨⟨1, 5⟩, ⟨1, 10⟩, 5⟩)] := by
  with_unfolding_all rfl

theorem key_zero_three : SourceRange.key ⟨0, 3⟩ = "0:3" := by
  with_unfolding_all rfl

theorem key_four_nine : SourceRange.key ⟨4, 9⟩ = "4:9" := by
  with_unfolding_all rfl

theorem key_smallTable : ∀ p ∈ smallTable.regions.toList, p.1 = p.2.range.key := by
  rw [toList_smallTable]
  simp only [List.forall_mem_cons]
  exact ⟨key_zero_three.symm, key_four_nine.symm, List.forall_mem_nil _⟩

theorem ofKey_zeros : SourceRange.ofKey "00:3" = .ok ⟨0, 3⟩ :=
  SourceRange.ofKey_eq_ok.mpr
    ⟨"00", "3", SourceRange.parts_intercalate rfl (by simp) (by simp), rfl, rfl⟩

theorem ofKey_plain : SourceRange.ofKey "4:9" = .ok ⟨4, 9⟩ :=
  SourceRange.ofKey_eq_ok.mpr
    ⟨"4", "9", SourceRange.parts_intercalate rfl (by simp) (by simp), rfl, rfl⟩

/-! ## Main result -/

/--
**A measurement is attached by the plain spelling of its range.** After the measurements of a document
were merged, a region whose range some key of the document denotes and plainly spells has a record that
was read from a measurement under its key. If each key that denotes its range spells it otherwise, the
region is as it was.
-/
theorem attached_by_plain_key (hkeys : ∀ p ∈ t.regions.toList, p.1 = p.2.range.key)
    (hread : Measurements.read document = .ok ms) (h : t.merge ms tree ids = .ok u)
    (hr : t.find? k = some r) :
    ((∃ key item, document.Lists key item ∧ SourceRange.ofKey key = .ok r.range ∧
        SourceRange.IsPlainKey key) →
      ∃ s item g, u.find? k = some s ∧ document.Lists k item ∧ GasRecord.Measures item g ∧
        s.gas = some g) ∧
    ((∀ key item, document.Lists key item → SourceRange.ofKey key = .ok r.range →
        ¬SourceRange.IsPlainKey key) →
      u.find? k = some r) := by
  have hk : k = r.range.key := hkeys _ (Ledger.find?_eq_some.mp hr)
  constructor
  · rintro ⟨key, item, hlists, hdenotes, hplain⟩
    obtain rfl : key = k := ((SourceRange.isPlainKey_iff hdenotes).mp hplain).trans hk.symm
    obtain ⟨g, hg⟩ := Measurements.mem_of_lists hread hlists
    obtain ⟨s, g', hs, hgas, hg'⟩ := exists_gas_of_merge h hr hg
    obtain ⟨-, item', hlists', hmeasures⟩ := Measurements.lists_of_mem hread hg'
    exact ⟨s, item', g', hs, hlists', hmeasures, hgas⟩
  · intro hnone
    rw [find?_merge_of_notMem h fun g hg => ?_, hr]
    obtain ⟨⟨range, hrange⟩, item, hlists, -⟩ := Measurements.lists_of_mem hread hg
    -- a key that is read denotes its own range, and is plain
    have hdenotes : SourceRange.ofKey k = .ok r.range := by
      rw [hk] at hrange ⊢
      rw [hrange, (SourceRange.ofKey_key_eq_ok.mp hrange).1]
    exact hnone k item hlists hdenotes (hk ▸ r.range.isPlainKey_key)

/-- Of two regions that are measured, the one whose key has a zero in front stays as it is. -/
theorem attached_by_plain_key_zeros :
    ∃ ms u, Measurements.read (unsampledAt ["00:3", "4:9"]) = .ok ms ∧
      smallTable.merge ms .null .null = .ok u ∧
      (∃ s item g, u.find? "4:9" = some s ∧ (unsampledAt ["00:3", "4:9"]).Lists "4:9" item ∧
        GasRecord.Measures item g ∧ s.gas = some g) ∧
      u.find? "0:3" = smallTable.find? "0:3" := by
  have hdenote : ∀ k ∈ ["00:3", "4:9"], ∃ r, SourceRange.ofKey k = .ok r := by
    simpa using ⟨⟨_, ofKey_zeros⟩, _, ofKey_plain⟩
  have hread := read_unsampledAt hdenote
  have hmerge := merge_smallTable ⟨["00:3", "4:9"].map fun k => (k, smallRecord none), []⟩
  have hfirst : smallTable.find? "0:3" = some (Region.new ⟨0, 3⟩ ⟨⟨1, 1⟩, ⟨1, 4⟩, 3⟩) := by
    with_unfolding_all rfl
  have hsecond : smallTable.find? "4:9" = some (Region.new ⟨4, 9⟩ ⟨⟨1, 5⟩, ⟨1, 10⟩, 5⟩) := by
    with_unfolding_all rfl
  refine ⟨_, _, hread, hmerge, ?_, ?_⟩
  · have hplain : SourceRange.IsPlainKey "4:9" :=
      (SourceRange.isPlainKey_iff ofKey_plain).mpr key_four_nine.symm
    exact (attached_by_plain_key key_smallTable hread hmerge hsecond).1
      ⟨"4:9", unsampled, lists_unsampledAt.mpr ⟨by simp, rfl⟩, ofKey_plain, hplain⟩
  · refine ((attached_by_plain_key key_smallTable hread hmerge hfirst).2 ?_).trans hfirst.symm
    intro key item hlists hdenotes hplain
    rcases List.mem_pair.mp (lists_unsampledAt.mp hlists).1 with rfl | rfl
    · have hkey := ((SourceRange.isPlainKey_iff hdenotes).mp hplain).trans key_zero_three
      exact absurd hkey (by decide)
    · exact absurd (Except.ok.inj (ofKey_plain.symm.trans hdenotes)) (by decide)

/-- A measurement whose key denotes the range of a region, which has no gas after it was merged. -/
theorem unattached_of_zeros :
    ∃ ms u r, Measurements.read (unsampledAt ["00:3"]) = .ok ms ∧
      (unsampledAt ["00:3"]).Lists "00:3" unsampled ∧ smallTable.find? "0:3" = some r ∧
      SourceRange.ofKey "00:3" = .ok r.range ∧ smallTable.merge ms .null .null = .ok u ∧
      ∃ s, u.find? "0:3" = some s ∧ s.gas = none := by
  refine ⟨_, _, Region.new ⟨0, 3⟩ ⟨⟨1, 1⟩, ⟨1, 4⟩, 3⟩,
    read_unsampledAt (by simpa using ⟨_, ofKey_zeros⟩), lists_unsampledAt.mpr ⟨by simp, rfl⟩, ?_,
    ofKey_zeros, merge_smallTable _, Region.new ⟨0, 3⟩ ⟨⟨1, 1⟩, ⟨1, 4⟩, 3⟩, ?_, rfl⟩
  all_goals with_unfolding_all rfl

end RegionTable

end AsmLens
