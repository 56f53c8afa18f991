import AsmLens.Gas.Summary
import AsmLens.Proofs.Gas.Attachment
import AsmLens.Proofs.Gas.Classification
import AsmLens.Proofs.Gas.Provenance
import AsmLens.Proofs.Number.Quotient
import Mathlib.Algebra.BigOperators.Group.List.Basic
import Mathlib.Algebra.GroupWithZero.Nat

/-!
# Coverage

The histogram of a table counts regions by the class of their gas, and the coverage counts those that
carry gas at all. Both agree on every region but those whose record is one of no samples: such a record
has the class of regions without gas, and the region still counts as covered.

* `GasRecord.Graded` — a record whose class tells whether it has samples
* `RegionTable.Graded.mergeAll` — all records of a table are, after any run of merges
* `RegionTable.sum_histogram` — every region has one class
* `RegionTable.coverage_counts_records` — the main result
-/

namespace AsmLens

/-! ## Records -/

/-- A record that has the class for no coverage exactly if it has no samples. -/
def GasRecord.Graded (g : GasRecord) : Prop := g.gasClass = .none ↔ g.samples ≤ 0

/-- The records of measurements that were read from a document are graded. -/
theorem Measurements.graded_of_read {document : Doc} {ms : Measurements}
    (h : Measurements.read document = .ok ms) {m : String × GasRecord}
    (hm : m ∈ ms.creation ++ ms.runtime) : m.2.Graded := by
  obtain ⟨-, item, -, hmeasures⟩ := lists_of_mem h hm
  exact hmeasures.gasClass_eq_none

namespace RegionTable

variable {t u : RegionTable} {ss : List Survey}

/-! ## Tables -/

/-- A table all of whose records are graded. -/
def Graded (t : RegionTable) : Prop := ∀ k g, t.Carries k g → g.Graded

theorem Graded.merge {ms : Measurements} {tree ids : Doc} (ht : t.Graded)
    (hms : ∀ m ∈ ms.creation ++ ms.runtime, m.2.Graded) (h : t.merge ms tree ids = .ok u) :
    u.Graded := by
  obtain ⟨-, labels, -, rfl⟩ := merge_eq_ok.mp h
  intro k g hg
  rcases carries_attachAll hg with hg | hg
  · exact ht k g hg
  · exact hms (k, g) hg

/-- Surveys whose measurements were read from documents leave all records graded. -/
theorem Graded.mergeAll (ht : t.Graded)
    (hss : ∀ s ∈ ss, ∃ document, Measurements.read document = .ok s.measurements)
    (h : t.mergeAll ss = .ok u) : u.Graded := by
  induction ss generalizing t with
  | nil => exact Except.ok.inj h ▸ ht
  | cons s ss ih =>
    rw [RegionTable.mergeAll, List.foldlM_cons] at h
    obtain ⟨v, hv, h⟩ := FailsOnly.bind_eq_ok.mp h
    obtain ⟨document, hdocument⟩ := hss s List.mem_cons_self
    have hread : ∀ m ∈ s.measurements.creation ++ s.measurements.runtime, m.2.Graded :=
      fun m hm => Measurements.graded_of_read hdocument hm
    exact ih (ht.merge hread hv) (fun s' hs' => hss s' (List.mem_cons_of_mem s hs')) h

theorem Graded.of_mem (ht : t.Graded) {r : Region} (hr : r ∈ t.regions.values) {g : GasRecord}
    (hg : r.gas = some g) : g.Graded := by
  obtain ⟨⟨k, r⟩, hmem, rfl⟩ := List.mem_map.mp hr
  exact ht k g ⟨r, Ledger.find?_eq_some.mpr hmem, hg⟩

end RegionTable

/-! ## Counts -/

namespace Region

variable {r : Region}

/-- Whether a region has a record of no samples. -/
def isUnsampled (r : Region) : Bool := r.gas.any fun g => decide (g.samples ≤ 0)

/-- A region has the class for no coverage if it has no gas, or a record of no samples. -/
theorem gasClass_eq_none (h : ∀ g, r.gas = some g → g.Graded) :
    r.gasClass = .none ↔ r.gas = none ∨ r.isUnsampled = true := by
  unfold gasClass isUnsampled
  cases hg : r.gas with
  | none => simp
  | some g => simpa [GasRecord.Graded] using h g hg

/-- The counts of the classes add up to the number of regions, since every region has one class. -/
theorem sum_countP_gasClass (rs : List Region) :
    (GasClass.all.map fun c => rs.countP fun r => r.gasClass = c).sum = rs.length := by
  induction rs with
  | nil => simp
  | cons r rs ih =>
    have hone : ∀ c, (GasClass.all.map fun d => if c = d then 1 else 0).sum = 1 := by
      intro c
      cases c with
      | none => decide
      | level i => decide +revert
    simp only [List.countP_cons, List.length_cons, List.sum_map_add, ih, decide_eq_true_eq, hone]

/-- Of regions with gas and regions of the class for no coverage, only those of no samples are both. -/
theorem countP_gas_add {rs : List Region} (h : ∀ r ∈ rs, ∀ g, r.gas = some g → g.Graded) :
    (rs.countP fun r => r.gas.isSome) + (rs.countP fun r => r.gasClass = .none) =
      rs.length + rs.countP isUnsampled := by
  induction rs with
  | nil => rfl
  | cons r rs ih =>
    obtain ⟨hr, hrs⟩ := List.forall_mem_cons.mp h
    have ih := ih hrs
    have hclass := gasClass_eq_none hr
    simp only [List.countP_cons, List.length_cons, decide_eq_true_eq, hclass]
    cases hg : r.gas with
    | none =>
      have hunsampled : r.isUnsampled = false := by simp [isUnsampled, hg]
      simp [hunsampled]
      omega
    | some g =>
      simp
      omega

end Region

/-- The percentage that a count is of another one. -/
def percent (k n : Nat) : Binary64 :=
  ((Binary64.ofInt k).mul (Binary64.ofInt 100)).div (Binary64.ofInt n)

/-- Up to `2 ^ 53` hundredths, a percentage is the quotient rounded once. -/
theorem div_eq_percent {k n : Nat} (hk : k * 100 < pow2 53) (hpos : 0 < n) (hn : n < pow2 53) :
    (Number.int (k * 100 : Nat)).div (.int n) = .ok (percent k n) := by
  have hk' : k < pow2 53 := Nat.lt_of_le_of_lt (Nat.le_mul_of_pos_right k (by decide)) hk
  have hproduct : (Binary64.ofInt k).mul (Binary64.ofInt 100) = Binary64.ofInt (k * 100 : Nat) :=
    Binary64.mul_ofInt hk' (by decide) hk
  rw [percent, hproduct]
  exact Binary64.divInt_eq_div hk hpos hn

namespace RegionTable

variable {t u : RegionTable} {ss : List Survey}

theorem sum_histogram (t : RegionTable) : (t.histogram.map Prod.snd).sum = t.regions.size := by
  have hsum := Region.sum_countP_gasClass t.regions.values
  rw [show t.regions.values.length = t.regions.size from List.length_map ..] at hsum
  rw [← hsum, histogram, List.map_map]
  rfl

theorem coverage?_eq (t : RegionTable) (hmeasured : t.measured = true) (hsize : 0 < t.regions.size) :
    t.coverage? = some (percent t.coveredCount t.regions.size) := by
  have hempty : t.regions.isEmpty = false := by
    rw [Ledger.isEmpty, List.isEmpty_eq_false_iff_exists_mem]
    exact List.exists_mem_of_length_pos hsize
  simp [coverage?, hmeasured, hempty, percent]

theorem coveredCount_le (t : RegionTable) : t.coveredCount ≤ t.regions.size :=
  List.countP_le_length.trans_eq (List.length_map ..)

/-- How many regions have a record of no samples. -/
def unsampledCount (t : RegionTable) : Nat := t.regions.values.countP Region.isUnsampled

/--
**Coverage counts records.** After surveys from documents were merged into a table without gas, the
counts of the histogram add up to the number of regions, and the coverage is the percentage of regions
that are not of the class for no coverage, together with those whose record is one of no samples. Up to
`2 ^ 53` hundredths the percentage is the exact one, rounded once. A region without gas is of that
class, and a region with gas exactly if its record is one of no samples.
-/
theorem coverage_counts_records (ht : ∀ k g, ¬t.Carries k g) (hss : ss ≠ [])
    (hread : ∀ s ∈ ss, ∃ document, Measurements.read document = .ok s.measurements)
    (h : t.mergeAll ss = .ok u) (hsize : 0 < u.regions.size) :
    (u.histogram.map Prod.snd).sum = u.regions.size ∧
    (∃ uncovered covered, (GasClass.none, uncovered) ∈ u.histogram ∧
      covered = u.regions.size - uncovered + u.unsampledCount ∧
      u.coverage? = some (percent covered u.regions.size) ∧
      (u.regions.size * 100 < pow2 53 →
        (Number.int (covered * 100 : Nat)).div (.int u.regions.size) =
          .ok (percent covered u.regions.size))) ∧
    ∀ r ∈ u.regions.values, (r.gas = none → r.gasClass = .none) ∧
      ∀ g, r.gas = some g → (r.gasClass = .none ↔ g.samples ≤ 0) := by
  have hgraded : u.Graded := Graded.mergeAll (fun k g hg => absurd hg (ht k g)) hread h
  have hmeasured : u.measured = true := by
    rw [(mergeAll_eq h).1]
    simp [hss]
  have hmem : ∀ r ∈ u.regions.values, ∀ g, r.gas = some g → g.Graded :=
    fun r hr g hg => hgraded.of_mem hr hg
  refine ⟨u.sum_histogram, ⟨u.regions.values.countP fun r => r.gasClass = .none, u.coveredCount,
    List.mem_map_of_mem List.mem_cons_self, ?_, u.coverage?_eq hmeasured hsize, fun hsmall => ?_⟩,
    fun r hr => ⟨fun hg => ?_, fun g hg => ?_⟩⟩
  · have hcounts := Region.countP_gas_add hmem
    have hlength : u.regions.values.length = u.regions.size := List.length_map ..
    have hle : (u.regions.values.countP fun r => r.gasClass = .none) ≤ u.regions.values.length :=
      List.countP_le_length
    unfold coveredCount unsampledCount
    omega
  · have hle := u.coveredCount_le
    exact div_eq_percent (by omega) hsize (by omega)
  · exact (Region.gasClass_eq_none (hmem r hr)).mpr (.inl hg)
  · rw [Region.gasClass_eq_none (hmem r hr), Region.isUnsampled, hg]
    simp

theorem read_plainSurvey :
    Measurements.read (unsampledAt ["0:3"]) = .ok plainSurvey.measurements := by
  have hdenotes : SourceRange.ofKey "0:3" = .ok ⟨0, 3⟩ :=
    SourceRange.ofKey_eq_ok.mpr
      ⟨"0", "3", SourceRange.parts_intercalate rfl (by simp) (by simp), rfl, rfl⟩
  exact read_unsampledAt (by simpa using ⟨_, hdenotes⟩)

theorem not_carries_smallTable (k : String) (g : GasRecord) : ¬smallTable.Carries k g := by
  rintro ⟨r, hr, hg⟩
  have hgas : ∀ p ∈ smallTable.regions.toList, p.2.gas.isNone = true := by
    rw [toList_smallTable]
    decide
  simpa [hg] using hgas _ (Ledger.find?_eq_some.mp hr)

/-- The small table after a measurement of no samples. -/
theorem mergeAll_plainSurvey : smallTable.mergeAll [plainSurvey] =
    .ok (smallTable.attachAll ∅ plainSurvey.measurements) := by
  have hmerge : smallTable.merge plainSurvey.measurements plainSurvey.tree plainSurvey.ids = _ :=
    merge_smallTable plainSurvey.measurements
  rw [mergeAll, List.foldlM_cons, hmerge]
  rfl

/-- Of two regions, a measured one without samples and one without gas, half are covered. -/
theorem coverage_counts_records_unsampled :
    ∃ u, smallTable.mergeAll [plainSurvey] = .ok u ∧ u.regions.size = 2 ∧ u.unsampledCount = 1 ∧
      (u.histogram.map Prod.snd).sum = 2 ∧ u.coverage? = some (percent 1 2) := by
  have hread : ∀ s ∈ [plainSurvey], ∃ document, Measurements.read document = .ok s.measurements := by
    simpa using ⟨_, read_plainSurvey⟩
  obtain ⟨hsum, ⟨uncovered, covered, huncovered, hcovered, hcoverage, -⟩, -⟩ :=
    coverage_counts_records not_carries_smallTable (by simp) hread mergeAll_plainSurvey
      (by with_unfolding_all decide)
  have hclasses : (smallTable.attachAll ∅ plainSurvey.measurements).histogram =
      (GasClass.none, 2) :: (List.finRange 10).map fun i => (GasClass.level i, 0) := by
    with_unfolding_all rfl
  rw [hclasses, List.mem_cons] at huncovered
  obtain rfl : uncovered = 2 := by simpa using huncovered
  have hsize : (smallTable.attachAll ∅ plainSurvey.measurements).regions.size = 2 := by
    with_unfolding_all rfl
  have hunsampled : (smallTable.attachAll ∅ plainSurvey.measurements).unsampledCount = 1 := by
    with_unfolding_all rfl
  rw [hsize, hunsampled] at hcovered
  rw [hsize, hcovered] at hcoverage
  exact ⟨_, mergeAll_plainSurvey, hsize, hunsampled, hsum.trans hsize, hcoverage⟩

/-- Of two regions, the one with a record of no samples is covered, and both are of the class for no
coverage. -/
theorem coverage_of_unsampled :
    ∃ document u, Measurements.read document = .ok plainSurvey.measurements ∧
      smallTable.mergeAll [plainSurvey] = .ok u ∧ u.regions.size = 2 ∧
      (GasClass.none, 2) ∈ u.histogram ∧ u.coverage? ≠ some (percent (2 - 2) 2) := by
  refine ⟨_, _, read_plainSurvey, mergeAll_plainSurvey, ?_, ?_, ?_⟩
  · with_unfolding_all rfl
  · with_unfolding_all decide
  · decide +kernel

end RegionTable

end AsmLens
