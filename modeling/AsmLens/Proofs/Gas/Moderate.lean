import AsmLens.Proofs.Gas.Failures
import AsmLens.Proofs.Gas.Merge
import AsmLens.Proofs.Number.Range
import AsmLens.Terminal.Row

/-!
# Measurements of moderate size

Measurements are added, divided and shown. This gives a value as long as integers are far below the
largest floating-point number and the number of samples is finite.

* `Doc.Moderate`, `GasRecord.Moderate` — measurements of moderate size, as documents and as records
* `Doc.Manageable`, `GasRecord.meets_of_manageable` — measurements that can be read without a fault
* `GasRecord.moderate_of_measures` — what is read from a measurement of moderate size
* `Doc.Measured`, `Measurements.clean_runRead` — the same for all measurements of a document
* `GasRecord.exists_means`, `GasRecord.exists_rows` — such records have means, and rows of text
-/

namespace AsmLens

/-- A measurement whose integers are below `2 ^ 1021` and whose samples can be counted. -/
structure Doc.Moderate (item : Doc) : Prop where
  numbers : ∀ name n, item.field? name = some (.number n) → n.Within 1021
  samples : ∀ name ∈ ["numSamples", "numTx"], ∀ n, item.field? name = some (.number n) →
    ∃ k, n.truncate = .ok k ∧ k.natAbs < pow2 1023

/-- A measurement whose numbers are small enough for its mean to be computed. -/
structure Doc.Manageable (item : Doc) : Prop where
  numbers : ∀ name n, item.field? name = some (.number n) → n.Within 1021
  samples : ∀ n, item.firstField? ["numSamples", "numTx"] = some (.number n) →
    ∃ k, n.truncate = .ok k ∧ Binary64.Fits k

namespace GasRecord

/-- A record of moderate size. -/
structure Moderate (g : GasRecord) : Prop where
  samples : g.samples.natAbs < pow2 1023
  minOpcode : g.minOpcode.Within 1021
  maxOpcode : g.maxOpcode.Within 1021
  minStorage : g.minStorage.Within 1021
  maxStorage : g.maxStorage.Within 1021
  memory : g.memory.Within 1021
  worstCase : ∀ w, g.worstCase = some w → w.Within 1021
  functionGas : ∀ n, g.functionGas = some n → n.Within 1021

/-! ## Sums and means -/

theorem exists_sum3 {a b c : Number} (ha : a.Within 1021) (hb : b.Within 1021)
    (hc : c.Within 1021) : ∃ t, sum3 a b c = .ok t ∧ t.Within 1023 := by
  obtain ⟨s, hs, hw⟩ := Number.exists_add ha hb (by decide)
  obtain ⟨t, ht, hw'⟩ := Number.exists_add hw (hc.mono (by decide)) (by decide)
  refine ⟨t, ?_, hw'⟩
  rw [sum3, hs]
  exact ht

theorem exists_mean {g : GasRecord} {n : Number} (hg : g.samples.natAbs < pow2 1023)
    (hn : n.Within 1023) : ∃ m, g.mean n = .ok m ∧ m.Within 1021 := by
  have hne : g.divisor ≠ 0 := by
    unfold divisor
    split
    · decide
    · assumption
  have hlt : g.divisor.natAbs < pow2 1023 := by
    unfold divisor
    split
    · exact Nat.lt_of_lt_of_le (show 1 < pow2 1 by decide) (pow2_le_pow2 (by decide))
    · exact hg
  obtain ⟨x, hx⟩ := Number.exists_div hn hne (Binary64.fits_of_lt hlt)
  refine ⟨.float x, ?_, trivial⟩
  rw [mean, hx]
  rfl

/-! ## Reading -/

variable {item : Doc} {path : String}

/-- The samples of a measurement are read from one of two members. -/
theorem exists_samples {n : Number} (h : item.Moderate)
    (hn : item.firstField? ["numSamples", "numTx"] = some (.number n)) :
    ∃ k, n.truncate = .ok k ∧ k.natAbs < pow2 1023 := by
  obtain ⟨name, hmem, hfield⟩ := Doc.exists_of_firstField? hn
  exact h.samples name hmem n hfield

theorem manageable_of_moderate (h : item.Moderate) : item.Manageable := by
  refine ⟨h.numbers, fun n hn => ?_⟩
  obtain ⟨k, hk, hlt⟩ := exists_samples h hn
  exact ⟨k, hk, Binary64.fits_of_lt hlt⟩

/-- The greatest totals of a manageable measurement have a sum. -/
theorem exists_total {a b c : Number} (h : item.Manageable)
    (ha : item.field? "maxOpcodeGas" = some (.number a))
    (hb : item.field? "maxStorageGas" = some (.number b))
    (hc : item.field? "memGas" = some (.number c)) : ∃ t, sum3 a b c = .ok t ∧ t.Within 1023 :=
  exists_sum3 (h.numbers _ a ha) (h.numbers _ b hb) (h.numbers _ c hc)

/-- The sum has a mean if there are samples. -/
theorem exists_quotient {n t : Number} {k : Int} (h : item.Manageable)
    (hn : item.firstField? ["numSamples", "numTx"] = some (.number n)) (hk : n.truncate = .ok k)
    (hpos : 0 < k) (ht : t.Within 1023) : ∃ x, t.div (.int k) = .ok x := by
  obtain ⟨j, hj, hfits⟩ := h.samples n hn
  obtain rfl := Except.ok.inj (hj.symm.trans hk)
  exact Number.exists_div ht (Int.ne_of_gt hpos) hfits

/-- Reading a manageable measurement is no fault. -/
theorem meets_of_manageable {Q : Failure → Prop} (h : item.Manageable) (path : String) :
    Meets Q item path where
  samples n f hn hf := by
    obtain ⟨k, hk, -⟩ := h.samples n (firstNumber_eq_ok.mp hn)
    exact absurd (hk.symm.trans hf) nofun
  sum a b c f ha hb hc hf := by
    obtain ⟨t, ht, -⟩ := exists_total h (Doc.requireNumber_eq_ok.mp ha)
      (Doc.requireNumber_eq_ok.mp hb) (Doc.requireNumber_eq_ok.mp hc)
    exact absurd (ht.symm.trans hf) nofun
  mean n k a b c t f hn hk hpos ha hb hc ht hf := by
    obtain ⟨u, hu, hw⟩ := exists_total h (Doc.requireNumber_eq_ok.mp ha)
      (Doc.requireNumber_eq_ok.mp hb) (Doc.requireNumber_eq_ok.mp hc)
    obtain rfl := Except.ok.inj (hu.symm.trans ht)
    obtain ⟨x, hx⟩ := exists_quotient h (firstNumber_eq_ok.mp hn) hk hpos hw
    exact absurd (hx.symm.trans hf) nofun

/-- A record of what a measurement of moderate size says is of moderate size. -/
theorem moderate_of_measures {g : GasRecord} (h : item.Moderate) (hg : Measures item g) :
    g.Moderate := by
  obtain ⟨n, hn, hsamples⟩ := hg.samples
  obtain ⟨given, hgiven, hworst⟩ := hg.worstCase
  refine {
    samples := ?_
    minOpcode := h.numbers _ _ hg.minOpcode
    maxOpcode := h.numbers _ _ hg.maxOpcode
    minStorage := h.numbers _ _ hg.minStorage
    maxStorage := h.numbers _ _ hg.maxStorage
    memory := h.numbers _ _ hg.memory
    worstCase := fun w hw => ?_
    functionGas := fun n hn =>
      h.numbers _ n (hg.functionGas.trans (congrArg (Option.map Doc.number) hn)) }
  · obtain ⟨k, hk, hlt⟩ := exists_samples h hn
    rwa [Except.ok.inj (hsamples.symm.trans hk)]
  · cases hworst with
    | unsampled _ hnone => exact absurd (hw.symm.trans hnone) nofun
    | given _ hv hworst =>
      obtain rfl := Option.some.inj (hw.symm.trans hworst)
      obtain ⟨name, -, hfield⟩ := Doc.exists_of_firstField? (hv ▸ hgiven)
      exact h.numbers name _ hfield
    | mean _ _ _ _ hworst =>
      obtain rfl := Option.some.inj (hw.symm.trans hworst)
      trivial

/-! ## Showing -/

variable {g : GasRecord}

/-- A record of moderate size has means, and they are of moderate size. -/
theorem exists_means (h : g.Moderate) : ∃ m, g.means = .ok m ∧
    ∀ n ∈ [m.minTotal, m.maxTotal, m.minOpcode, m.maxOpcode, m.minStorage, m.maxStorage, m.memory],
      n.Within 1021 := by
  have mean : ∀ {n : Number}, n.Within 1021 → ∃ m, g.mean n = .ok m ∧ m.Within 1021 :=
    fun hn => exists_mean h.samples (hn.mono (by decide))
  obtain ⟨least, hleast, hw⟩ := exists_sum3 h.minOpcode h.minStorage h.memory
  obtain ⟨most, hmost, hw'⟩ := exists_sum3 h.maxOpcode h.maxStorage h.memory
  obtain ⟨minTotal, h₁, hw₁⟩ := exists_mean h.samples hw
  obtain ⟨total, h₂, hw₂⟩ := exists_mean h.samples hw'
  obtain ⟨minOpcode, h₃, hw₃⟩ := mean h.minOpcode
  obtain ⟨maxOpcode, h₄, hw₄⟩ := mean h.maxOpcode
  obtain ⟨minStorage, h₅, hw₅⟩ := mean h.minStorage
  obtain ⟨maxStorage, h₆, hw₆⟩ := mean h.maxStorage
  obtain ⟨memory, h₇, hw₇⟩ := mean h.memory
  cases hg : g.worstCase with
  | some w =>
    refine ⟨⟨minTotal, w, minOpcode, maxOpcode, minStorage, maxStorage, memory⟩, ?_, ?_⟩
    · simp only [means, hg, hleast, h₁, h₃, h₄, h₅, h₆, h₇, bind, Except.bind, pure, Except.pure]
    · simp [hw₁, h.worstCase w hg, hw₃, hw₄, hw₅, hw₆, hw₇]
  | none =>
    refine ⟨⟨minTotal, total, minOpcode, maxOpcode, minStorage, maxStorage, memory⟩, ?_, ?_⟩
    · simp only [means, hg, hleast, hmost, h₁, h₂, h₃, h₄, h₅, h₆, h₇, bind, Except.bind, pure,
        Except.pure]
    · simp [hw₁, hw₂, hw₃, hw₄, hw₅, hw₆, hw₇]

theorem exists_rows (h : g.Moderate) : ∃ lines, g.rows = .ok lines := by
  obtain ⟨m, hm, hw⟩ := exists_means h
  have pretty : ∀ n ∈ [m.minTotal, m.maxTotal, m.minOpcode, m.maxOpcode, m.minStorage, m.maxStorage,
      m.memory], ∃ s, n.pretty = .ok s :=
    fun n hn => Number.exists_pretty ((hw n hn).mono (by decide))
  obtain ⟨s₁, h₁⟩ := pretty m.minTotal (by simp)
  obtain ⟨s₂, h₂⟩ := pretty m.maxTotal (by simp)
  obtain ⟨s₃, h₃⟩ := pretty m.minOpcode (by simp)
  obtain ⟨s₄, h₄⟩ := pretty m.maxOpcode (by simp)
  obtain ⟨s₅, h₅⟩ := pretty m.minStorage (by simp)
  obtain ⟨s₆, h₆⟩ := pretty m.maxStorage (by simp)
  obtain ⟨s₇, h₇⟩ := pretty m.memory (by simp)
  simp only [rows, hm, h₁, h₂, h₃, h₄, h₅, h₆, h₇, bind, Except.bind, pure, Except.pure]
  exact ⟨_, rfl⟩

end GasRecord

/-! ## Documents -/

/-- A document whose measurements are of moderate size. -/
def Doc.Measured (document : Doc) : Prop :=
  ∀ phase ms, document.field? (Phase.name phase) = some (.object ms) → ∀ m ∈ ms, m.2.Moderate

namespace Measurements

variable {document : Doc} {ms : Measurements}

/-- Reading measurements of moderate size is no fault. -/
theorem clean_runRead (h : document.Measured) :
    FailsOnly Failure.Clean (runRead document).outcome :=
  failsOnly_runRead admits_clean.malformed fun phase ms hms m hm =>
    GasRecord.meets_of_manageable (GasRecord.manageable_of_moderate (h phase ms hms m hm)) _

/-- What was read from measurements of moderate size is of moderate size. -/
theorem moderate_of_runRead (h : document.Measured) (hr : (runRead document).outcome = .ok ms) :
    ∀ m ∈ ms.creation ++ ms.runtime, m.2.Moderate := by
  obtain ⟨read, hread, hms⟩ := Traced.outcome_bind_eq_ok.mp hr
  obtain rfl : read = ms := Except.ok.inj hms
  have hphase : ∀ phase, ∀ m ∈ read.records phase, m.2.Moderate := by
    intro phase m hm
    obtain ⟨items, hitems, hentries⟩ := read_eq_ok.mp hread phase
    obtain ⟨item, hitem, hentry⟩ := exists_of_forall₂ hentries hm
    exact GasRecord.moderate_of_measures (h phase items hitems item hitem) hentry.measures
  intro m hm
  exact (List.mem_append.mp hm).elim (hphase .creation m) (hphase .runtime m)

end Measurements

end AsmLens
