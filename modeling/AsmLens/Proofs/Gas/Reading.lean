import AsmLens.Gas.Measurements
import AsmLens.Proofs.Failure

/-!
# What measurements say

Reading a measurement gives a record exactly if the record says what the measurement says
(`GasRecord.Measures`). Nothing in that relation depends on the path under which the measurement is
read, nor on members that are not named in it.

* `Doc.firstField?`, `Doc.firstFilled?` — the first of some members that is there, or is not blank
* `GasRecord.Measures`, `GasRecord.read_eq_ok` — what a measurement says, and that it is what is read
* `Measurements.readPhase_eq_ok`, `Measurements.read_eq_ok` — the same for a phase and for a document
-/

namespace AsmLens

namespace Doc

theorem requireNumber_eq_ok {d : Doc} {name base : String} {n : Number} :
    d.requireNumber name base = .ok n ↔ d.field? name = some (.number n) := by
  unfold requireNumber
  rw [FailsOnly.bind_eq_ok]
  constructor
  · rintro ⟨v, hv, h⟩
    rw [Doc.requireAt_eq_ok.mp hv]
    cases v with
    | number m => exact congrArg (fun n => some (Doc.number n)) (Except.ok.inj h)
    | _ => exact nomatch h
  · intro h
    exact ⟨_, Doc.requireAt_eq_ok.mpr h, rfl⟩

/-- The first of some members that is neither absent nor null. -/
def firstField? (item : Doc) (names : List String) : Option Doc :=
  names.findSome? fun name => item.field? name

/-- The first of some members that is not blank. -/
def firstFilled? (item : Doc) (names : List String) : Option Doc :=
  (names.map fun name => item.get name).find? fun v => !v.isBlank

/-- The first of some members is one of them. -/
theorem exists_of_firstField? {item v : Doc} {names : List String}
    (h : item.firstField? names = some v) : ∃ name ∈ names, item.field? name = some v :=
  List.exists_of_findSome?_eq_some h

end Doc

namespace GasRecord

variable {item : Doc} {path : String}

/-! ## Numbers -/

/-- The first number that is there is read, and nothing if none of the members is there. -/
theorem firstNumber_eq_ok {names : List String} {n : Option Number} :
    firstNumber item path names = .ok n ↔ item.firstField? names = n.map .number := by
  induction names with
  | nil => cases n <;> simp [firstNumber, Doc.firstField?]
  | cons name names ih =>
    unfold firstNumber Doc.firstField?
    rw [List.findSome?_cons]
    cases hf : item.field? name with
    | none => exact ih
    | some v =>
      show (item.requireNumber name path).map some = .ok n ↔ some v = n.map .number
      rw [← hf]
      cases hr : item.requireNumber name path with
      | ok m =>
        rw [Doc.requireNumber_eq_ok.mp hr]
        constructor
        · intro h
          rw [← Except.ok.inj h]
          rfl
        · intro h
          cases n with
          | none => exact nomatch h
          | some k => rw [Doc.number.inj (Option.some.inj h)]; rfl
      | error p =>
        refine ⟨fun h => (nomatch h), fun h => ?_⟩
        cases n with
        | none => exact absurd (hf.symm.trans h) nofun
        | some k =>
          have hk : item.requireNumber name path = .ok k := Doc.requireNumber_eq_ok.mpr h
          exact absurd (hr.symm.trans hk) nofun

theorem optionalNumber_eq (item : Doc) (name path : String) :
    optionalNumber item name path = firstNumber item path [name] := by
  unfold optionalNumber firstNumber
  cases item.field? name <;> rfl

theorem optionalNumber_eq_ok {name : String} {n : Option Number} :
    optionalNumber item name path = .ok n ↔ item.field? name = n.map .number := by
  rw [optionalNumber_eq, firstNumber_eq_ok, Doc.firstField?, List.findSome?_cons]
  cases item.field? name <;> simp

theorem readSamples_eq_ok {samples : Int} :
    readSamples item path = .ok samples ↔
      ∃ n, item.firstField? ["numSamples", "numTx"] = some (.number n) ∧ n.truncate = .ok samples := by
  unfold readSamples
  rw [FailsOnly.bind_eq_ok]
  constructor
  · rintro ⟨n, hn, h⟩
    have hfield := firstNumber_eq_ok.mp (FailsOnly.liftProblem_eq_ok.mp hn)
    cases n with
    | none => exact nomatch h
    | some n => exact ⟨n, hfield, FailsOnly.liftFault_eq_ok.mp h⟩
  · rintro ⟨n, hfield, h⟩
    exact ⟨some n, FailsOnly.liftProblem_eq_ok.mpr (firstNumber_eq_ok.mpr hfield),
      FailsOnly.liftFault_eq_ok.mpr h⟩

/-! ## Loops and issues -/

/-- What the member for one loop says of its program counter and its gas. -/
structure Describes (member : String × Doc) (loop : Int × LoopGas) : Prop where
  counter : Text.readInt? member.1 = some loop.1
  object : ∃ ms, member.2 = .object ms
  gas : member.2.field? "gas" = some (.number loop.2.gas)
  hidden : loop.2.hidden = !(member.2.get "isHidden").isBlank

theorem readLoop_eq_ok {member : String × Doc} {loop : Int × LoopGas} :
    readLoop path member.1 member.2 = .ok loop ↔ Describes member loop := by
  obtain ⟨counter, estimate⟩ := member
  unfold readLoop
  dsimp only
  cases hc : Text.readInt? counter with
  | none => exact ⟨fun h => (nomatch h), fun h => absurd (hc.symm.trans h.counter) nofun⟩
  | some pc =>
    cases estimate with
    | object ms =>
      refine FailsOnly.bind_eq_ok.trans ⟨?_, fun h => ⟨loop.2.gas, ?_, ?_⟩⟩
      · rintro ⟨gas, hg, h⟩
        rw [← Except.ok.inj h]
        exact ⟨hc, ⟨ms, rfl⟩, Doc.requireNumber_eq_ok.mp hg, rfl⟩
      · exact Doc.requireNumber_eq_ok.mpr h.gas
      · have hcounter : pc = loop.1 := Option.some.inj (hc.symm.trans h.counter)
        rw [hcounter, ← h.hidden]
        rfl
    | _ => exact ⟨fun h => (nomatch h), fun h => (nomatch h.object)⟩

/-- What a value says of the loops of a measurement: there are none, or one for each member. -/
inductive Loops : Doc → Ledger Int LoopGas → Prop
  | none : Loops .null ∅
  | each {ms loops} (described : List.Forall₂ Describes ms loops) :
    Loops (.object ms) (Ledger.ofList loops)

theorem readLoops_eq_ok {raw : Doc} {loops : Ledger Int LoopGas} :
    readLoops raw path = .ok loops ↔ Loops raw loops := by
  unfold readLoops
  split
  · constructor
    · intro h
      rw [← Except.ok.inj h]
      exact .none
    · rintro ⟨⟩
      rfl
  · next ms =>
    refine FailsOnly.bind_eq_ok.trans ⟨?_, ?_⟩
    · rintro ⟨ls, hls, h⟩
      rw [← Except.ok.inj h]
      exact .each ((FailsOnly.mapM_eq_ok.mp hls).imp fun _ _ => readLoop_eq_ok.mp)
    · rintro (_ | ⟨described⟩)
      exact ⟨_, FailsOnly.mapM_eq_ok.mpr (described.imp fun _ _ => readLoop_eq_ok.mpr), rfl⟩
  · next hnull hobject =>
    refine ⟨fun h => (nomatch h), ?_⟩
    rintro (_ | _)
    · exact absurd rfl hnull
    · exact absurd rfl (hobject _)

/-- What a measurement says of its issues: the items of the first list that is not blank, as texts. -/
def Issues (item : Doc) (names issues : List String) : Prop :=
  match item.firstFilled? names with
  | none => issues = []
  | some v => ∃ xs, v = .list xs ∧ issues = xs.map Doc.display

theorem readIssues_eq_ok {names issues : List String} :
    readIssues item path names = .ok issues ↔ Issues item names issues := by
  induction names with
  | nil => exact ⟨fun h => (Except.ok.inj h).symm, fun h => congrArg Except.ok (Eq.symm h)⟩
  | cons name names ih =>
    unfold readIssues Issues Doc.firstFilled?
    rw [List.map_cons, List.find?_cons]
    dsimp only
    cases hb : (item.get name).isBlank with
    | true => exact ih
    | false =>
      simp only [Bool.not_false, Bool.false_eq_true, if_false]
      cases item.get name with
      | list xs =>
        constructor
        · exact fun h => ⟨xs, rfl, (Except.ok.inj h).symm⟩
        · rintro ⟨ys, hys, rfl⟩
          rw [Doc.list.inj hys]
      | _ => exact ⟨fun h => (nomatch h), fun ⟨_, h, _⟩ => (nomatch h)⟩

/-! ## Records -/

/-- The worst case of a record, by what is given for it: none without samples, else what is given, else
the mean of the greatest totals. -/
inductive WorstCase (g : GasRecord) (given : Option Number) : Prop
  | unsampled (unsampled : g.samples ≤ 0) (none : g.worstCase = none)
  | given (sampled : 0 < g.samples) {w} (given : given = some w) (worst : g.worstCase = some w)
  | mean (sampled : 0 < g.samples) (absent : given = none) {total quotient}
    (sum : sum3 g.maxOpcode g.maxStorage g.memory = .ok total)
    (div : total.div (.int g.samples) = .ok quotient)
    (worst : g.worstCase = some (.float quotient))

/-- That a record says what a measurement says. -/
structure Measures (item : Doc) (g : GasRecord) : Prop where
  object : ∃ ms, item = .object ms
  samples : ∃ n, item.firstField? ["numSamples", "numTx"] = some (.number n) ∧
    n.truncate = .ok g.samples
  minOpcode : item.field? "minOpcodeGas" = some (.number g.minOpcode)
  maxOpcode : item.field? "maxOpcodeGas" = some (.number g.maxOpcode)
  minStorage : item.field? "minStorageGas" = some (.number g.minStorage)
  maxStorage : item.field? "maxStorageGas" = some (.number g.maxStorage)
  memory : item.field? "memGas" = some (.number g.memory)
  worstCase : ∃ given : Option Number,
    item.firstField? ["meanWcGas", "meanMaxTotalGas"] = given.map .number ∧ WorstCase g given
  gasClass : g.gasClass = GasClass.ofMeasured g.worstCase
  meanOpcode : item.field? "meanOpcodeGas" = g.meanOpcode.map .number
  functionGas : item.field? "functionGas" = g.functionGas.map .number
  loops : Loops (item.get "loopGas") g.loops
  issues : Issues item ["detectedIssues", "issues"] g.issues

/-- The worst case that a measurement gives, or that is computed for it if there are samples. -/
def computedWorst (samples : Int) (maxOpcode maxStorage memory : Number) :
    Option Number → Except Fault (Option Number)
  | some w => .ok (some w)
  | none =>
    if 0 < samples then do
      let total ← sum3 maxOpcode maxStorage memory
      return some (.float (← total.div (.int samples)))
    else .ok none

theorem read_object (ms : List (String × Doc)) (path : String) :
    GasRecord.read (.object ms) path = do
      let item := Doc.object ms
      let samples ← readSamples item path
      let minOpcode ← item.requireNumber "minOpcodeGas" path
      let maxOpcode ← item.requireNumber "maxOpcodeGas" path
      let minStorage ← item.requireNumber "minStorageGas" path
      let maxStorage ← item.requireNumber "maxStorageGas" path
      let memory ← item.requireNumber "memGas" path
      let given ← firstNumber item path ["meanWcGas", "meanMaxTotalGas"]
      let computed ← computedWorst samples maxOpcode maxStorage memory given
      let worstCase := if samples ≤ 0 then none else computed
      let meanOpcode ← optionalNumber item "meanOpcodeGas" path
      let functionGas ← optionalNumber item "functionGas" path
      let loops ← readLoops (item.get "loopGas") (path ++ ".loopGas")
      let issues ← readIssues item path ["detectedIssues", "issues"]
      return ⟨GasClass.ofMeasured worstCase, samples, minOpcode, maxOpcode, minStorage, maxStorage,
        memory, worstCase, meanOpcode, functionGas, loops, issues⟩ := by
  unfold GasRecord.read
  refine bind_congr fun samples => bind_congr fun minOpcode => bind_congr fun maxOpcode =>
    bind_congr fun minStorage => bind_congr fun maxStorage => bind_congr fun memory =>
    bind_congr fun given => ?_
  cases given with
  | some w => rfl
  | none =>
    unfold computedWorst
    by_cases hpos : 0 < samples
    · simp only [if_pos hpos]
      cases sum3 maxOpcode maxStorage memory with
      | error f => rfl
      | ok total =>
        cases hdiv : total.div (.int samples) with
        | error f =>
          simp only [liftM, monadLift, MonadLift.monadLift, bind, Except.bind, hdiv]
        | ok quotient =>
          simp only [liftM, monadLift, MonadLift.monadLift, bind, Except.bind, hdiv]
          rfl
    · simp only [if_neg hpos]
      rfl

theorem worstCase_of_computed {g : GasRecord} {given computed : Option Number}
    (h : computedWorst g.samples g.maxOpcode g.maxStorage g.memory given = .ok computed)
    (hw : g.worstCase = if g.samples ≤ 0 then none else computed) : WorstCase g given := by
  by_cases hs : g.samples ≤ 0
  · exact .unsampled hs (by rw [hw, if_pos hs])
  · rw [if_neg hs] at hw
    have hpos : 0 < g.samples := by omega
    cases given with
    | some w =>
      rw [← Except.ok.inj h] at hw
      exact .given hpos rfl hw
    | none =>
      unfold computedWorst at h
      rw [if_pos hpos] at h
      obtain ⟨total, hsum, h⟩ := FailsOnly.bind_eq_ok.mp h
      obtain ⟨quotient, hdiv, h⟩ := FailsOnly.bind_eq_ok.mp h
      rw [← Except.ok.inj h] at hw
      exact .mean hpos rfl hsum hdiv hw

theorem WorstCase.exists_computed {g : GasRecord} {given : Option Number} (h : WorstCase g given) :
    ∃ computed, computedWorst g.samples g.maxOpcode g.maxStorage g.memory given = .ok computed ∧
      g.worstCase = if g.samples ≤ 0 then none else computed := by
  cases h with
  | unsampled hs hw =>
    cases given with
    | some w => exact ⟨some w, rfl, by rw [hw, if_pos hs]⟩
    | none => exact ⟨none, if_neg (by omega), by rw [hw, if_pos hs]⟩
  | given hs hg hw =>
    rw [hg, hw]
    exact ⟨_, rfl, by rw [if_neg (by omega)]⟩
  | mean hs hg hsum hdiv hw =>
    refine ⟨_, ?_, by rw [hw, if_neg (by omega)]⟩
    rw [hg, computedWorst, if_pos hs, hsum]
    simp only [bind, Except.bind, hdiv]
    rfl

/-- **A record is read from a measurement exactly if it says what the measurement says.** -/
theorem read_eq_ok {g : GasRecord} : GasRecord.read item path = .ok g ↔ Measures item g := by
  cases item with
  | object ms =>
    rw [read_object]
    constructor
    · intro h
      obtain ⟨samples, hsamples, h⟩ := FailsOnly.bind_eq_ok.mp h
      obtain ⟨minOpcode, hminOpcode, h⟩ := FailsOnly.bind_eq_ok.mp h
      obtain ⟨maxOpcode, hmaxOpcode, h⟩ := FailsOnly.bind_eq_ok.mp h
      obtain ⟨minStorage, hminStorage, h⟩ := FailsOnly.bind_eq_ok.mp h
      obtain ⟨maxStorage, hmaxStorage, h⟩ := FailsOnly.bind_eq_ok.mp h
      obtain ⟨memory, hmemory, h⟩ := FailsOnly.bind_eq_ok.mp h
      obtain ⟨given, hgiven, h⟩ := FailsOnly.bind_eq_ok.mp h
      obtain ⟨computed, hcomputed, h⟩ := FailsOnly.bind_eq_ok.mp h
      obtain ⟨meanOpcode, hmeanOpcode, h⟩ := FailsOnly.bind_eq_ok.mp h
      obtain ⟨functionGas, hfunctionGas, h⟩ := FailsOnly.bind_eq_ok.mp h
      obtain ⟨loops, hloops, h⟩ := FailsOnly.bind_eq_ok.mp h
      obtain ⟨issues, hissues, h⟩ := FailsOnly.bind_eq_ok.mp h
      have number : ∀ {name n},
          (liftM ((Doc.object ms).requireNumber name path) : Result Number) = .ok n →
          (Doc.object ms).field? name = some (.number n) :=
        fun hn => Doc.requireNumber_eq_ok.mp (FailsOnly.liftProblem_eq_ok.mp hn)
      rw [← Except.ok.inj h]
      exact {
        object := ⟨ms, rfl⟩
        samples := readSamples_eq_ok.mp hsamples
        minOpcode := number hminOpcode
        maxOpcode := number hmaxOpcode
        minStorage := number hminStorage
        maxStorage := number hmaxStorage
        memory := number hmemory
        worstCase := ⟨given, firstNumber_eq_ok.mp (FailsOnly.liftProblem_eq_ok.mp hgiven),
          worstCase_of_computed (FailsOnly.liftFault_eq_ok.mp hcomputed) rfl⟩
        gasClass := rfl
        meanOpcode := optionalNumber_eq_ok.mp (FailsOnly.liftProblem_eq_ok.mp hmeanOpcode)
        functionGas := optionalNumber_eq_ok.mp (FailsOnly.liftProblem_eq_ok.mp hfunctionGas)
        loops := readLoops_eq_ok.mp (FailsOnly.liftProblem_eq_ok.mp hloops)
        issues := readIssues_eq_ok.mp (FailsOnly.liftProblem_eq_ok.mp hissues) }
    · intro h
      obtain ⟨given, hgiven, hworst⟩ := h.worstCase
      obtain ⟨computed, hcomputed, hw⟩ := hworst.exists_computed
      have number : ∀ {name n}, (Doc.object ms).field? name = some (.number n) →
          (liftM ((Doc.object ms).requireNumber name path) : Result Number) = .ok n :=
        fun hn => FailsOnly.liftProblem_eq_ok.mpr (Doc.requireNumber_eq_ok.mpr hn)
      refine FailsOnly.bind_eq_ok.mpr ⟨_, readSamples_eq_ok.mpr h.samples, ?_⟩
      refine FailsOnly.bind_eq_ok.mpr ⟨_, number h.minOpcode, ?_⟩
      refine FailsOnly.bind_eq_ok.mpr ⟨_, number h.maxOpcode, ?_⟩
      refine FailsOnly.bind_eq_ok.mpr ⟨_, number h.minStorage, ?_⟩
      refine FailsOnly.bind_eq_ok.mpr ⟨_, number h.maxStorage, ?_⟩
      refine FailsOnly.bind_eq_ok.mpr ⟨_, number h.memory, ?_⟩
      refine FailsOnly.bind_eq_ok.mpr
        ⟨_, FailsOnly.liftProblem_eq_ok.mpr (firstNumber_eq_ok.mpr hgiven), ?_⟩
      refine FailsOnly.bind_eq_ok.mpr ⟨_, FailsOnly.liftFault_eq_ok.mpr hcomputed, ?_⟩
      refine FailsOnly.bind_eq_ok.mpr
        ⟨_, FailsOnly.liftProblem_eq_ok.mpr (optionalNumber_eq_ok.mpr h.meanOpcode), ?_⟩
      refine FailsOnly.bind_eq_ok.mpr
        ⟨_, FailsOnly.liftProblem_eq_ok.mpr (optionalNumber_eq_ok.mpr h.functionGas), ?_⟩
      refine FailsOnly.bind_eq_ok.mpr
        ⟨_, FailsOnly.liftProblem_eq_ok.mpr (readLoops_eq_ok.mpr h.loops), ?_⟩
      refine FailsOnly.bind_eq_ok.mpr
        ⟨_, FailsOnly.liftProblem_eq_ok.mpr (readIssues_eq_ok.mpr h.issues), ?_⟩
      rw [← hw, ← h.gasClass]
      rfl
  | _ => exact ⟨fun h => (nomatch h), fun h => (nomatch h.object)⟩

end GasRecord

namespace Measurements

variable {document : Doc}

/-- The records of a phase, by its name. -/
def records (ms : Measurements) : Phase → List (String × GasRecord)
  | .creation => ms.creation
  | .runtime => ms.runtime

/-- That a member of a phase denotes a range and says what a record says, which has its key. -/
structure Enters (member : String × Doc) (entry : String × GasRecord) : Prop where
  key : member.1 = entry.1
  denotes : ∃ range, SourceRange.ofKey member.1 = .ok range
  measures : GasRecord.Measures member.2 entry.2

theorem readMember_eq_ok {member : String × Doc} {entry : String × GasRecord} {path : String} :
    (do
      let _ ← SourceRange.ofKey member.1
      return (member.1, ← GasRecord.read member.2 path) : Result (String × GasRecord)) = .ok entry ↔
      Enters member entry := by
  rw [FailsOnly.bind_eq_ok]
  constructor
  · rintro ⟨range, hrange, h⟩
    obtain ⟨g, hg, h⟩ := FailsOnly.bind_eq_ok.mp h
    rw [← Except.ok.inj h]
    exact ⟨rfl, ⟨range, FailsOnly.liftProblem_eq_ok.mp hrange⟩, GasRecord.read_eq_ok.mp hg⟩
  · rintro ⟨hkey, ⟨range, hrange⟩, hg⟩
    refine ⟨range, FailsOnly.liftProblem_eq_ok.mpr hrange, ?_⟩
    refine FailsOnly.bind_eq_ok.mpr ⟨entry.2, GasRecord.read_eq_ok.mpr hg, ?_⟩
    rw [hkey]
    rfl

theorem readPhase_eq_ok {phase : Phase} {records : List (String × GasRecord)} :
    readPhase document phase = .ok records ↔
      ∃ ms, document.field? phase.name = some (.object ms) ∧ List.Forall₂ Enters ms records := by
  unfold readPhase
  cases hfield : document.field? phase.name with
  | none => exact ⟨fun h => (nomatch h), fun ⟨_, h, _⟩ => (nomatch h)⟩
  | some v =>
    cases v with
    | object ms =>
      refine FailsOnly.mapM_eq_ok.trans ⟨fun h => ⟨ms, rfl, ?_⟩, ?_⟩
      · exact h.imp fun _ _ => readMember_eq_ok.mp
      · rintro ⟨ms', hms, h⟩
        obtain rfl := Doc.object.inj (Option.some.inj hms)
        exact h.imp fun _ _ => readMember_eq_ok.mpr
    | _ => exact ⟨fun h => (nomatch h), fun ⟨_, h, _⟩ => (nomatch h)⟩

/-- **Measurements are read from a document exactly if each phase says what its records say.** -/
theorem read_eq_ok {ms : Measurements} :
    Measurements.read document = .ok ms ↔
      ∀ phase, ∃ members, document.field? (Phase.name phase) = some (.object members) ∧
        List.Forall₂ Enters members (ms.records phase) := by
  unfold Measurements.read
  split
  · rw [FailsOnly.bind_eq_ok]
    constructor
    · rintro ⟨creation, hcreation, h⟩
      obtain ⟨runtime, hruntime, h⟩ := FailsOnly.bind_eq_ok.mp h
      rw [← Except.ok.inj h]
      intro phase
      cases phase with
      | creation => exact readPhase_eq_ok.mp hcreation
      | runtime => exact readPhase_eq_ok.mp hruntime
    · intro h
      refine ⟨ms.creation, readPhase_eq_ok.mpr (h .creation), ?_⟩
      exact FailsOnly.bind_eq_ok.mpr ⟨ms.runtime, readPhase_eq_ok.mpr (h .runtime), rfl⟩
  · next hobject =>
    refine ⟨fun h => (nomatch h), fun h => ?_⟩
    obtain ⟨members, hmembers, -⟩ := h .creation
    cases document with
    | object ms => exact absurd rfl (hobject ms)
    | _ => exact nomatch hmembers

end Measurements

end AsmLens
