import AsmLens.Proofs.Gas.Classification
import AsmLens.Proofs.Gas.Moderate
import AsmLens.Proofs.Number.Sign

/-!
# The signs of means

A record is divided by its number of samples, or by one where there are none, so never by zero. Over
samples whose number is not negative, totals that are not negative have means that are not negative. But
a measurement may give a negative number of samples: it counts as one of none, and has no worst case,
yet its totals are divided by that number, and its means are those over as many samples, negated.

* `Doc.Unsigned`, `GasRecord.Unsigned` — measurements without negative gas, as documents and as records
* `GasRecord.means_eq` — what the means are, one after another
* `GasRecord.failsOnly_means` — how they fail
* `GasRecord.nonneg_of_means` — they are not negative
* `GasRecord.means_of_negated` — the means over a negated number of samples
* `GasRecord.means_signed` — the main result
-/

namespace AsmLens

/-- A measurement in which no total and no worst case is negative. -/
def Doc.Unsigned (item : Doc) : Prop :=
  ∀ name ∈ GasRecord.decisive, ∀ n, item.field? name = some (.number n) → n.Nonneg

namespace GasMeans

/-- The means in the order in which they are computed. -/
def toList (m : GasMeans) : List Number :=
  [m.minTotal, m.maxTotal, m.minOpcode, m.maxOpcode, m.minStorage, m.maxStorage, m.memory]

/-- The negated means. -/
def neg (m : GasMeans) : GasMeans where
  minTotal := m.minTotal.neg
  maxTotal := m.maxTotal.neg
  minOpcode := m.minOpcode.neg
  maxOpcode := m.maxOpcode.neg
  minStorage := m.minStorage.neg
  maxStorage := m.maxStorage.neg
  memory := m.memory.neg

theorem toList_neg (m : GasMeans) : m.neg.toList = m.toList.map Number.neg := rfl

end GasMeans

namespace GasRecord

/-- A record in which no total is negative, and no worst case. -/
structure Unsigned (g : GasRecord) : Prop where
  minOpcode : g.minOpcode.Nonneg
  maxOpcode : g.maxOpcode.Nonneg
  minStorage : g.minStorage.Nonneg
  maxStorage : g.maxStorage.Nonneg
  memory : g.memory.Nonneg
  worstCase : ∀ w, g.worstCase = some w → w.Nonneg

/-- A record with another number of samples. -/
def withSamples (g : GasRecord) (samples : Int) : GasRecord := { g with samples }

variable {g : GasRecord} {m : GasMeans} {a b c t : Number}

theorem Unsigned.withSamples (h : g.Unsigned) (samples : Int) : (g.withSamples samples).Unsigned :=
  ⟨h.minOpcode, h.maxOpcode, h.minStorage, h.maxStorage, h.memory, h.worstCase⟩

/-! ## Sums and quotients -/

theorem nonneg_sum3 (ha : a.Nonneg) (hb : b.Nonneg) (hc : c.Nonneg) (h : sum3 a b c = .ok t) :
    t.Nonneg := by
  obtain ⟨s, hs, h⟩ := FailsOnly.bind_eq_ok.mp h
  exact (ha.add hb hs).add hc h

theorem failsOnly_sum3 (a b c : Number) : FailsOnly Fault.TooLarge (sum3 a b c) :=
  (Number.failsOnly_add a b).bind fun _ _ => Number.failsOnly_add _ c

theorem divisor_ne_zero (g : GasRecord) : g.divisor ≠ 0 := by
  unfold divisor
  split
  · decide
  · assumption

theorem divisor_pos (h : 0 ≤ g.samples) : 0 < g.divisor := by
  have := g.divisor_ne_zero
  unfold divisor at *
  split <;> omega

theorem mean_eq_ok : g.mean a = .ok t ↔ ∃ x, a.div (.int g.divisor) = .ok x ∧ t = .float x := by
  unfold mean
  cases a.div (.int g.divisor) with
  | error f => simp [Except.map]
  | ok x => simp [Except.map, eq_comm]

theorem nonneg_mean (hs : 0 ≤ g.samples) (ha : a.Nonneg) (h : g.mean a = .ok t) : t.Nonneg := by
  obtain ⟨x, hx, rfl⟩ := mean_eq_ok.mp h
  exact ha.div (divisor_pos hs) hx

theorem failsOnly_mean (g : GasRecord) (a : Number) : FailsOnly Fault.TooLarge (g.mean a) :=
  (Number.failsOnly_div a _).map

/-- What is read from a measurement without negative gas has none. -/
theorem unsigned_of_measures {item : Doc} (h : item.Unsigned) (hg : Measures item g) : g.Unsigned := by
  have total : ∀ {name n}, name ∈ decisive → item.field? name = some (.number n) → n.Nonneg :=
    fun hname hn => h _ hname _ hn
  have hmaxOpcode := total (by simp [decisive]) hg.maxOpcode
  have hmaxStorage := total (by simp [decisive]) hg.maxStorage
  have hmemory := total (by simp [decisive]) hg.memory
  refine ⟨total (by simp [decisive]) hg.minOpcode, hmaxOpcode,
    total (by simp [decisive]) hg.minStorage, hmaxStorage, hmemory, fun w hw => ?_⟩
  obtain ⟨given, hgiven, hworst⟩ := hg.worstCase
  cases hworst with
  | unsampled _ hnone => exact absurd (hw.symm.trans hnone) (Option.some_ne_none w)
  | given _ hv hworst =>
    obtain rfl := Option.some.inj (hw.symm.trans hworst)
    obtain ⟨name, hname, hfield⟩ := Doc.exists_of_firstField? (hv ▸ hgiven)
    exact total (List.mem_append_right ["minOpcodeGas", "maxOpcodeGas", "minStorageGas",
      "maxStorageGas", "memGas"] hname) hfield
  | mean hs _ hsum hdiv hworst =>
    obtain rfl := Option.some.inj (hw.symm.trans hworst)
    exact (nonneg_sum3 hmaxOpcode hmaxStorage hmemory hsum).div hs hdiv

/-! ## Means -/

/-- The greatest mean: the worst case, or the mean of the greatest totals where there is none. -/
def greatestMean (g : GasRecord) : Except Fault Number :=
  match g.worstCase with
  | some w => .ok w
  | none => do g.mean (← sum3 g.maxOpcode g.maxStorage g.memory)

theorem means_eq (g : GasRecord) : g.means = do
    let least ← sum3 g.minOpcode g.minStorage g.memory
    let minTotal ← g.mean least
    let maxTotal ← g.greatestMean
    let minOpcode ← g.mean g.minOpcode
    let maxOpcode ← g.mean g.maxOpcode
    let minStorage ← g.mean g.minStorage
    let maxStorage ← g.mean g.maxStorage
    let memory ← g.mean g.memory
    return ⟨minTotal, maxTotal, minOpcode, maxOpcode, minStorage, maxStorage, memory⟩ := by
  unfold means greatestMean
  cases g.worstCase with
  | some w => rfl
  | none => simp only [bind_assoc]

/-- Means fail only if a number is too large. -/
theorem failsOnly_means (g : GasRecord) : FailsOnly Fault.TooLarge g.means := by
  have hgreatest : FailsOnly Fault.TooLarge g.greatestMean := by
    unfold greatestMean
    split
    · exact .ok _
    · exact (failsOnly_sum3 _ _ _).bind fun _ _ => failsOnly_mean g _
  rw [means_eq]
  exact (failsOnly_sum3 _ _ _).bind fun _ _ => (failsOnly_mean g _).bind fun _ _ =>
    hgreatest.bind fun _ _ => (failsOnly_mean g _).bind fun _ _ => (failsOnly_mean g _).bind fun _ _ =>
    (failsOnly_mean g _).bind fun _ _ => (failsOnly_mean g _).bind fun _ _ =>
    (failsOnly_mean g _).bind fun _ _ => .ok _

/-- **Means over samples are not negative**, and neither are those over none. -/
theorem nonneg_of_means (hg : g.Unsigned) (hs : 0 ≤ g.samples) (h : g.means = .ok m) :
    ∀ n ∈ m.toList, n.Nonneg := by
  rw [means_eq] at h
  obtain ⟨least, hleast, h⟩ := FailsOnly.bind_eq_ok.mp h
  obtain ⟨minTotal, hminTotal, h⟩ := FailsOnly.bind_eq_ok.mp h
  obtain ⟨maxTotal, hmaxTotal, h⟩ := FailsOnly.bind_eq_ok.mp h
  obtain ⟨minOpcode, hminOpcode, h⟩ := FailsOnly.bind_eq_ok.mp h
  obtain ⟨maxOpcode, hmaxOpcode, h⟩ := FailsOnly.bind_eq_ok.mp h
  obtain ⟨minStorage, hminStorage, h⟩ := FailsOnly.bind_eq_ok.mp h
  obtain ⟨maxStorage, hmaxStorage, h⟩ := FailsOnly.bind_eq_ok.mp h
  obtain ⟨memory, hmemory, h⟩ := FailsOnly.bind_eq_ok.mp h
  have hgreatest : maxTotal.Nonneg := by
    unfold greatestMean at hmaxTotal
    split at hmaxTotal
    · next w hw => exact Except.ok.inj hmaxTotal ▸ hg.worstCase w hw
    · obtain ⟨most, hmost, hmaxTotal⟩ := FailsOnly.bind_eq_ok.mp hmaxTotal
      exact nonneg_mean hs (nonneg_sum3 hg.maxOpcode hg.maxStorage hg.memory hmost) hmaxTotal
  rw [← Except.ok.inj h]
  simp only [GasMeans.toList, List.forall_mem_cons]
  exact ⟨nonneg_mean hs (nonneg_sum3 hg.minOpcode hg.minStorage hg.memory hleast) hminTotal,
    hgreatest, nonneg_mean hs hg.minOpcode hminOpcode, nonneg_mean hs hg.maxOpcode hmaxOpcode,
    nonneg_mean hs hg.minStorage hminStorage, nonneg_mean hs hg.maxStorage hmaxStorage,
    nonneg_mean hs hg.memory hmemory, List.forall_mem_nil _⟩

/-- **Means over a negated number of samples are negated**, where there is no worst case. -/
theorem means_of_negated (hs : g.samples ≠ 0) (hw : g.worstCase = none) :
    g.means = (g.withSamples (-g.samples)).means.map GasMeans.neg := by
  have hne : -g.samples ≠ 0 := by omega
  have hdivisor : g.divisor = g.samples := if_neg hs
  have hnegated : (g.withSamples (-g.samples)).divisor = -g.samples := if_neg hne
  have hmean : ∀ a, g.mean a = Number.neg <$> (g.withSamples (-g.samples)).mean a := by
    intro a
    have hdiv := Number.div_neg a hne
    rw [Int.neg_neg] at hdiv
    rw [mean, mean, hdivisor, hnegated, hdiv]
    cases a.div (.int (-g.samples)) <;> rfl
  have hgreatest : ∀ k : GasRecord, k.worstCase = none →
      k.greatestMean = (do k.mean (← sum3 k.maxOpcode k.maxStorage k.memory)) := by
    intro k hk
    rw [greatestMean, hk]
  change g.means = GasMeans.neg <$> (g.withSamples (-g.samples)).means
  rw [means_eq, means_eq, hgreatest g hw, hgreatest (g.withSamples (-g.samples)) hw]
  simp only [hmean, bind_assoc, bind_map_left, map_bind, map_pure]
  rfl

/-- **Means over a negative number of samples are at most zero**, and negative unless they are zero. -/
theorem nonpos_of_means (hg : g.Unsigned) (hs : g.samples < 0) (hw : g.worstCase = none)
    (h : g.means = .ok m) :
    ∀ n ∈ m.toList, n.le (.int 0) = true ∧ (n.Nonneg ↔ n.isZero = true) := by
  intro n hn
  rw [means_of_negated (Int.ne_of_lt hs) hw] at h
  cases hmeans : (g.withSamples (-g.samples)).means with
  | error f =>
    rw [hmeans] at h
    exact nomatch h
  | ok k =>
    rw [hmeans] at h
    rw [← Except.ok.inj h, GasMeans.toList_neg] at hn
    obtain ⟨x, hx, rfl⟩ := List.mem_map.mp hn
    have hpos : 0 ≤ (g.withSamples (-g.samples)).samples := by
      show 0 ≤ -g.samples
      omega
    exact (nonneg_of_means (hg.withSamples _) hpos hmeans x hx).neg

/-! ## Main result -/

/--
**Means have the sign of the number of samples.** For every measurement that is read as a record, and in
which no total and no worst case is negative: the totals are divided by a number that is not zero,
neither as an integer nor as a floating-point number, and computing the means fails only if a number is
too large, which is not so in a measurement of moderate size. If the number of samples is zero or more,
none of the seven means is negative. If it is negative, the means are those over as many samples,
negated, so that all of them are at most zero, and one that is not zero is negative.
-/
theorem means_signed {item : Doc} {path : String} (h : GasRecord.read item path = .ok g)
    (hitem : item.Unsigned) :
    (g.divisor ≠ 0 ∧ ∀ x, (Number.int g.divisor).toFloat = .ok x → x.isZero = false) ∧
    (∀ f, g.means = .error f → f = .integerTooLarge ∨ f = .quotientTooLarge) ∧
    (item.Moderate → ∃ m, g.means = .ok m) ∧
    (0 ≤ g.samples → ∀ m, g.means = .ok m → ∀ n ∈ m.toList, n.Nonneg) ∧
    (g.samples < 0 →
      g.means = (g.withSamples (-g.samples)).means.map GasMeans.neg ∧
      ∀ m, g.means = .ok m → ∀ n ∈ m.toList,
        n.le (.int 0) = true ∧ (n.Nonneg ↔ n.isZero = true)) := by
  have hmeasures := read_eq_ok.mp h
  have hg := unsigned_of_measures hitem hmeasures
  refine ⟨⟨g.divisor_ne_zero, fun x hx => Number.isZero_of_toFloat g.divisor_ne_zero hx⟩,
    g.failsOnly_means, fun hmoderate => ?_, fun hs m hm => nonneg_of_means hg hs hm, fun hs => ?_⟩
  · obtain ⟨m, hm, -⟩ := exists_means (moderate_of_measures hmoderate hmeasures)
    exact ⟨m, hm⟩
  · have hworst : g.worstCase = none := by
      rcases hmeasures.worst with ⟨-, hw⟩ | ⟨hpos, -⟩
      · exact hw
      · omega
    exact ⟨means_of_negated (Int.ne_of_lt hs) hworst,
      fun m hm => nonpos_of_means hg hs hworst hm⟩

/-- A measurement over a negative number of samples. -/
def backwardDoc : Doc :=
  .object [("numSamples", .int (-1)), ("minOpcodeGas", .int 10), ("maxOpcodeGas", .int 20),
    ("minStorageGas", .int 0), ("maxStorageGas", .int 100), ("memGas", .int 0)]

/-- The record that is read from it. -/
def backward : GasRecord where
  gasClass := .none
  samples := -1
  minOpcode := .int 10
  maxOpcode := .int 20
  minStorage := .int 0
  maxStorage := .int 100
  memory := .int 0
  worstCase := none
  meanOpcode := none
  functionGas := none
  loops := ∅
  issues := []

/-- A measurement that counts as one without samples shows negative gas. -/
theorem means_signed_backward :
    GasRecord.read backwardDoc "runtime.0:1" = .ok backward ∧ backwardDoc.Unsigned ∧
    backward.samples < 0 ∧ ∃ m, backward.means = .ok m ∧
      m.maxTotal = .float (Binary64.ofInt (-120)) ∧ m.maxTotal.le (.int 0) = true ∧
      ¬m.maxTotal.Nonneg := by
  have hread : GasRecord.read backwardDoc "runtime.0:1" = .ok backward :=
    read_eq_ok.mpr {
      object := ⟨_, rfl⟩
      samples := ⟨_, rfl, rfl⟩
      minOpcode := rfl
      maxOpcode := rfl
      minStorage := rfl
      maxStorage := rfl
      memory := rfl
      worstCase := ⟨none, rfl, .unsampled (by decide) rfl⟩
      gasClass := rfl
      meanOpcode := rfl
      functionGas := rfl
      loops := .none
      issues := rfl }
  have total : ∀ {name k}, backwardDoc.field? name = some (.number (.int k)) → 0 ≤ k →
      ∀ n, backwardDoc.field? name = some (.number n) → n.Nonneg := by
    intro name k hk hpos n hn
    rw [hk] at hn
    rw [← Doc.number.inj (Option.some.inj hn)]
    exact Number.nonneg_int.mpr hpos
  have absent : ∀ {name}, backwardDoc.field? name = none →
      ∀ n, backwardDoc.field? name = some (.number n) → n.Nonneg := by
    intro name hnone n hn
    exact absurd (hn.symm.trans hnone) (Option.some_ne_none _)
  have hunsigned : backwardDoc.Unsigned := by
    simp only [Doc.Unsigned, decisive, List.forall_mem_cons]
    exact ⟨total (k := 10) rfl (by decide), total (k := 20) rfl (by decide),
      total (k := 0) rfl (by decide), total (k := 100) rfl (by decide),
      total (k := 0) rfl (by decide), absent rfl, absent rfl, List.forall_mem_nil _⟩
  have hmeans : backward.means = .ok {
      minTotal := .float (Binary64.ofInt (-10))
      maxTotal := .float (Binary64.ofInt (-120))
      minOpcode := .float (Binary64.ofInt (-10))
      maxOpcode := .float (Binary64.ofInt (-20))
      minStorage := .float (.zero true)
      maxStorage := .float (Binary64.ofInt (-100))
      memory := .float (.zero true) } := by
    decide +kernel
  obtain ⟨-, -, -, -, hnegative⟩ := means_signed hread hunsigned
  obtain ⟨-, hsigns⟩ := hnegative (by decide)
  obtain ⟨hle, hzero⟩ := hsigns _ hmeans (.float (Binary64.ofInt (-120))) (by simp [GasMeans.toList])
  refine ⟨hread, hunsigned, by decide, _, hmeans, rfl, hle, fun hnonneg => ?_⟩
  exact absurd (hzero.mp hnonneg) (by decide +kernel)

end GasRecord

end AsmLens
