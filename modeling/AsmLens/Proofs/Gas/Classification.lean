import AsmLens.Proofs.Gas.Reading

/-!
# Classes of gas

The class of a measurement is the class of its mean worst case, and the worst case comes from the
number of samples, the totals, and the two members that may give it. What else a measurement says, of
loops, of the function or of issues, has no part in its class nor in its means.

* `GasClass.level?_mono` — a greater worst case has no lower class
* `GasRecord.WorstCase.unique` — what the worst case comes from decides it
* `GasRecord.Worst` — the worst case of a measurement with samples
* `GasRecord.classified_by_worst_case` — the main result
-/

namespace AsmLens

/-! ## The order of classes -/

theorem Number.le_trans {a b c : Number} (hab : a.le b = true) (hbc : b.le c = true) :
    a.le c = true := by
  unfold Number.le at *
  cases ha : a.place? with
  | none => rw [ha] at hab; exact nomatch hab
  | some p =>
    cases hc : c.place? with
    | none => rw [hc] at hbc; cases hb : b.place? <;> rw [hb] at hbc <;> exact nomatch hbc
    | some r =>
      cases hb : b.place? with
      | none => rw [ha, hb] at hab; exact nomatch hab
      | some q =>
        rw [ha, hb] at hab
        rw [hb, hc] at hbc
        exact Place.le_trans hab hbc

/-- A number exceeds no fewer bounds than a smaller one. -/
theorem GasClass.level?_mono {u v : Number} (h : u.le v = true) (bounds : List Nat) :
    level? bounds u ≤ level? bounds v := by
  induction bounds with
  | nil => exact Nat.le_refl 0
  | cons b bounds ih =>
    unfold level?
    by_cases hv : v.le (.int b) = true
    · rw [if_pos (Number.le_trans h hv)]
      exact Nat.zero_le _
    · rw [if_neg hv]
      split
      · exact Nat.zero_le _
      · exact Nat.succ_le_succ ih

namespace GasRecord

variable {item item' : Doc} {path path' : String} {g g' : GasRecord}

/-! ## What the worst case comes from -/

/-- Records with the same samples and totals, for which the same is given, have the same worst case. -/
theorem WorstCase.unique {given : Option Number} (h : WorstCase g given) (h' : WorstCase g' given)
    (hsamples : g.samples = g'.samples) (hopcode : g.maxOpcode = g'.maxOpcode)
    (hstorage : g.maxStorage = g'.maxStorage) (hmemory : g.memory = g'.memory) :
    g.worstCase = g'.worstCase := by
  obtain ⟨computed, hc, hw⟩ := h.exists_computed
  obtain ⟨computed', hc', hw'⟩ := h'.exists_computed
  rw [hsamples, hopcode, hstorage, hmemory, hc'] at hc
  rw [hw, hw', hsamples, Except.ok.inj hc]

/-- A number is the worst case of a measurement that has samples: the first of two members if one of
them is there, else the greatest totals over the samples. -/
inductive Worst (item : Doc) (samples : Int) (w : Number) : Prop
  | given (member : item.firstField? ["meanWcGas", "meanMaxTotalGas"] = some (.number w))
  | mean {opcode storage memory total : Number} {quotient : Binary64}
    (absent : item.firstField? ["meanWcGas", "meanMaxTotalGas"] = none)
    (opcode_eq : item.field? "maxOpcodeGas" = some (.number opcode))
    (storage_eq : item.field? "maxStorageGas" = some (.number storage))
    (memory_eq : item.field? "memGas" = some (.number memory))
    (sum : sum3 opcode storage memory = .ok total)
    (div : total.div (.int samples) = .ok quotient) (worst : w = .float quotient)

/-- A record has a worst case exactly if it has samples. -/
theorem Measures.worst (h : Measures item g) :
    (g.samples ≤ 0 ∧ g.worstCase = none) ∨
      0 < g.samples ∧ ∃ w, g.worstCase = some w ∧ Worst item g.samples w := by
  obtain ⟨given, hgiven, hworst⟩ := h.worstCase
  cases hworst with
  | unsampled hs hw => exact .inl ⟨hs, hw⟩
  | given hs hg hw =>
    rw [hg] at hgiven
    exact .inr ⟨hs, _, hw, .given hgiven⟩
  | mean hs hg hsum hdiv hw =>
    rw [hg] at hgiven
    exact .inr ⟨hs, _, hw, .mean hgiven h.maxOpcode h.maxStorage h.memory hsum hdiv rfl⟩

/-- The class for no worst case is that of the records without samples. -/
theorem Measures.gasClass_eq_none (h : Measures item g) : g.gasClass = .none ↔ g.samples ≤ 0 := by
  rw [h.gasClass]
  rcases h.worst with ⟨hs, hw⟩ | ⟨hs, w, hw, -⟩
  · rw [hw]
    exact iff_of_true rfl hs
  · rw [hw]
    exact iff_of_false GasClass.noConfusion (by omega)

/-- The members that a class depends on, the number of samples apart. -/
def decisive : List String :=
  ["minOpcodeGas", "maxOpcodeGas", "minStorageGas", "maxStorageGas", "memGas", "meanWcGas",
    "meanMaxTotalGas"]

/-- Measurements that agree in the decisive members have the same totals and the same worst case. -/
theorem Measures.agree (h : Measures item g) (h' : Measures item' g')
    (hsamples : g.samples = g'.samples)
    (hmembers : ∀ name ∈ decisive, item.field? name = item'.field? name) :
    g.minOpcode = g'.minOpcode ∧ g.maxOpcode = g'.maxOpcode ∧ g.minStorage = g'.minStorage ∧
      g.maxStorage = g'.maxStorage ∧ g.memory = g'.memory ∧ g.worstCase = g'.worstCase := by
  have same : ∀ {name : String} {m n : Number}, name ∈ decisive →
      item.field? name = some (.number m) → item'.field? name = some (.number n) → m = n := by
    intro name m n hname hm hn
    rw [hmembers name hname, hn] at hm
    exact (Doc.number.inj (Option.some.inj hm)).symm
  have hminOpcode := same (by simp [decisive]) h.minOpcode h'.minOpcode
  have hmaxOpcode := same (by simp [decisive]) h.maxOpcode h'.maxOpcode
  have hminStorage := same (by simp [decisive]) h.minStorage h'.minStorage
  have hmaxStorage := same (by simp [decisive]) h.maxStorage h'.maxStorage
  have hmemory := same (by simp [decisive]) h.memory h'.memory
  refine ⟨hminOpcode, hmaxOpcode, hminStorage, hmaxStorage, hmemory, ?_⟩
  obtain ⟨given, hgiven, hworst⟩ := h.worstCase
  obtain ⟨given', hgiven', hworst'⟩ := h'.worstCase
  have hfirst : item.firstField? ["meanWcGas", "meanMaxTotalGas"] =
      item'.firstField? ["meanWcGas", "meanMaxTotalGas"] := by
    unfold Doc.firstField?
    simp only [List.findSome?_cons, hmembers "meanWcGas" (by simp [decisive]),
      hmembers "meanMaxTotalGas" (by simp [decisive]), List.findSome?_nil]
  obtain rfl : given = given' := by
    rw [hgiven, hgiven'] at hfirst
    exact Option.map_injective (fun _ _ => Doc.number.inj) hfirst
  exact hworst.unique hworst' hsamples hmaxOpcode hmaxStorage hmemory

/-- Records with the same samples, totals and worst case have the same means. -/
theorem means_congr (hsamples : g.samples = g'.samples) (hminOpcode : g.minOpcode = g'.minOpcode)
    (hmaxOpcode : g.maxOpcode = g'.maxOpcode) (hminStorage : g.minStorage = g'.minStorage)
    (hmaxStorage : g.maxStorage = g'.maxStorage) (hmemory : g.memory = g'.memory)
    (hworst : g.worstCase = g'.worstCase) : g.means = g'.means := by
  have hmean : g.mean = g'.mean := by
    funext total
    rw [mean, mean, divisor, divisor, hsamples]
  rw [means, means, hmean, hminOpcode, hmaxOpcode, hminStorage, hmaxStorage, hmemory, hworst]

/-! ## Main result -/

/--
**The class of a measurement depends on its worst case alone.** A measurement without samples has no
worst case and the class for that; any other has the class of its worst case, which is given or
computed from the greatest totals. Two measurements with the same number of samples that agree in the
totals and in the members that may give the worst case have the same class, worst case and means,
whatever else they say. And of two worst cases the greater has no lower class.
-/
theorem classified_by_worst_case (h : GasRecord.read item path = .ok g)
    (h' : GasRecord.read item' path' = .ok g') :
    (g.worstCase = none ↔ g.samples ≤ 0) ∧ (g.gasClass = .none ↔ g.samples ≤ 0) ∧
    (0 < g.samples → ∃ w, g.worstCase = some w ∧ Worst item g.samples w ∧ g.gasClass = .ofGas w) ∧
    (g.samples = g'.samples → (∀ name ∈ decisive, item.field? name = item'.field? name) →
      g.gasClass = g'.gasClass ∧ g.worstCase = g'.worstCase ∧ g.means = g'.means) ∧
    ∀ u v, g.worstCase = some u → g'.worstCase = some v → u.le v = true →
      ∃ i j, g.gasClass.index? = some i ∧ g'.gasClass.index? = some j ∧ i ≤ j := by
  have hg := read_eq_ok.mp h
  have hg' := read_eq_ok.mp h'
  refine ⟨?_, hg.gasClass_eq_none, ?_, ?_, ?_⟩
  · rcases hg.worst with ⟨hs, hw⟩ | ⟨hs, w, hw, -⟩
    · exact iff_of_true hw hs
    · rw [hw]
      exact iff_of_false nofun (by omega)
  · intro hpos
    rcases hg.worst with ⟨hs, -⟩ | ⟨-, w, hw, hworst⟩
    · omega
    · refine ⟨w, hw, hworst, ?_⟩
      rw [hg.gasClass, hw]
      rfl
  · intro hsamples hmembers
    obtain ⟨hminOpcode, hmaxOpcode, hminStorage, hmaxStorage, hmemory, hworst⟩ :=
      hg.agree hg' hsamples hmembers
    refine ⟨?_, hworst, means_congr hsamples hminOpcode hmaxOpcode hminStorage hmaxStorage hmemory
      hworst⟩
    rw [hg.gasClass, hg'.gasClass, hworst]
  · intro u v hu hv hle
    refine ⟨GasClass.level? GasClass.bounds u, GasClass.level? GasClass.bounds v, ?_, ?_,
      GasClass.level?_mono hle _⟩
    · rw [hg.gasClass, hu]
      rfl
    · rw [hg'.gasClass, hv]
      rfl

/-- A measurement of two samples, with more members. -/
def sampledTwice (others : List (String × Doc)) : Doc :=
  .object ([("numSamples", .int 2), ("minOpcodeGas", .int 80), ("maxOpcodeGas", .int 120),
    ("minStorageGas", .int 0), ("maxStorageGas", .int 100), ("memGas", .int 12)] ++ others)

/-- The record of such a measurement, whose greatest totals are 232 gas. -/
def recordTwice (functionGas : Option Number) (loops : Ledger Int LoopGas) (issues : List String) :
    GasRecord where
  gasClass := .level 3
  samples := 2
  minOpcode := .int 80
  maxOpcode := .int 120
  minStorage := .int 0
  maxStorage := .int 100
  memory := .int 12
  worstCase := some (.float (Binary64.ofInt 116))
  meanOpcode := none
  functionGas := functionGas
  loops := loops
  issues := issues

/-- Two samples have the same class and means with and without a loop, function gas and an issue. -/
theorem classified_by_worst_case_annotated :
    ∃ g g', GasRecord.read (sampledTwice []) "bare" = .ok g ∧
      GasRecord.read (sampledTwice [("functionGas", .int 90000), ("loopGas", .object [("0312",
        .object [("gas", .int 400)])]), ("issues", .list [.text "unbounded loop"])]) "full" = .ok g' ∧
      g.issues ≠ g'.issues ∧ g.gasClass = .level 3 ∧ g'.gasClass = .level 3 ∧ g.means = g'.means := by
  have bare : GasRecord.read (sampledTwice []) "bare" = .ok (recordTwice none ∅ []) :=
    read_eq_ok.mpr {
      object := ⟨_, rfl⟩
      samples := ⟨_, rfl, by decide +kernel⟩
      minOpcode := rfl
      maxOpcode := rfl
      minStorage := rfl
      maxStorage := rfl
      memory := rfl
      worstCase := ⟨none, rfl, .mean (by decide) rfl rfl (by decide +kernel) rfl⟩
      gasClass := by decide +kernel
      meanOpcode := rfl
      functionGas := rfl
      loops := .none
      issues := rfl }
  have full : GasRecord.read (sampledTwice [("functionGas", .int 90000), ("loopGas", .object [("0312",
      .object [("gas", .int 400)])]), ("issues", .list [.text "unbounded loop"])]) "full" =
        .ok (recordTwice (some (.int 90000)) (Ledger.ofList [(312, ⟨.int 400, false⟩)])
          ["unbounded loop"]) :=
    read_eq_ok.mpr {
      object := ⟨_, rfl⟩
      samples := ⟨_, rfl, by decide +kernel⟩
      minOpcode := rfl
      maxOpcode := rfl
      minStorage := rfl
      maxStorage := rfl
      memory := rfl
      worstCase := ⟨none, rfl, .mean (by decide) rfl rfl (by decide +kernel) rfl⟩
      gasClass := by decide +kernel
      meanOpcode := rfl
      functionGas := rfl
      loops := .each (.cons ⟨by decide +kernel, ⟨_, rfl⟩, rfl, rfl⟩ .nil)
      issues := ⟨_, rfl, rfl⟩ }
  obtain ⟨-, -, -, hsame, -⟩ := classified_by_worst_case bare full
  obtain ⟨hclass, -, hmeans⟩ := hsame rfl <| by
    simp only [decisive, List.forall_mem_cons]
    exact ⟨rfl, rfl, rfl, rfl, rfl, rfl, rfl, nofun⟩
  exact ⟨_, _, bare, full, by decide, rfl, hclass.symm, hmeans⟩

end GasRecord

end AsmLens
