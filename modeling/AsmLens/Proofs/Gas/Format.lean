import AsmLens.Proofs.Gas.Moderate

/-!
# The form of measurements

Which documents hold measurements is said here by their members alone. Where all numbers are of
ordinary size, the documents of that form are the ones that are read, and any other is malformed.

* `Doc.IsMeasurement`, `Doc.IsResult` — the form of one measurement, and of a result
* `Doc.numbers`, `Number.Ordinary` — the numbers in a document, and which of them can be reckoned with
* `Measurements.read_accepts` — what is read, what is refused, and how the records are ordered
-/

namespace AsmLens

/-! ## The form -/

/-- A text that denotes an integer. -/
def Text.IsInteger (s : String) : Prop := ∃ n, readInt? s = some n

/-- A text made of two integers with a colon between them. -/
def SourceRange.IsKey (key : String) : Prop :=
  ∃ a b, parts key = [a, b] ∧ Text.IsInteger a ∧ Text.IsInteger b

namespace Doc

/-- A number, of either kind. -/
def IsNumber (d : Doc) : Prop := ∃ n, d = .number n

/-- A list, of anything. -/
def IsList (d : Doc) : Prop := ∃ xs, d = .list xs

/-- The member for one loop: a program counter, and an object with the gas of the loop. -/
structure IsLoop (member : String × Doc) : Prop where
  counter : Text.IsInteger member.1
  object : ∃ ms, member.2 = .object ms
  gas : ∃ v, member.2.field? "gas" = some v ∧ v.IsNumber

/-- The form of one measurement. -/
structure IsMeasurement (item : Doc) : Prop where
  object : ∃ ms, item = .object ms
  samples : ∃ v, item.firstField? ["numSamples", "numTx"] = some v ∧ v.IsNumber
  totals : ∀ name ∈ ["minOpcodeGas", "maxOpcodeGas", "minStorageGas", "maxStorageGas", "memGas"],
    ∃ v, item.field? name = some v ∧ v.IsNumber
  worstCase : ∀ v, item.firstField? ["meanWcGas", "meanMaxTotalGas"] = some v → v.IsNumber
  others : ∀ name ∈ ["meanOpcodeGas", "functionGas"], ∀ v, item.field? name = some v → v.IsNumber
  loops : ∀ v, item.field? "loopGas" = some v → ∃ ms, v = .object ms ∧ ∀ m ∈ ms, IsLoop m
  issues : ∀ v, item.firstFilled? ["detectedIssues", "issues"] = some v → v.IsList

/-- The form of a result: an object with a measurement for each range of each phase. -/
structure IsResult (document : Doc) : Prop where
  object : ∃ ms, document = .object ms
  phases : ∀ phase, ∃ ms, document.field? (Phase.name phase) = some (.object ms) ∧
    ∀ m ∈ ms, SourceRange.IsKey m.1 ∧ m.2.IsMeasurement

end Doc

/-! ## Numbers -/

/-- A finite number, and below `2 ^ 1000` if it is an integer. -/
def Number.Ordinary : Number → Prop
  | .int n => n.natAbs < pow2 1000
  | .float (.finite ..) => True
  | .float _ => False

instance : DecidablePred Number.Ordinary
  | .int n => inferInstanceAs (Decidable (n.natAbs < pow2 1000))
  | .float (.finite ..) => .isTrue trivial
  | .float .nan | .float (.infinity _) => .isFalse id

theorem Number.Ordinary.within {n : Number} (h : n.Ordinary) : n.Within 1021 := by
  cases n with
  | int m => exact Nat.lt_of_lt_of_le h (pow2_le_pow2 (by decide))
  | float x => trivial

/-- An ordinary number can be counted with. -/
theorem Number.Ordinary.exists_truncate {n : Number} (h : n.Ordinary) :
    ∃ k, n.truncate = .ok k ∧ Binary64.Fits k := by
  cases n with
  | int m =>
    exact ⟨m, rfl, Binary64.fits_of_lt (Nat.lt_of_lt_of_le h (pow2_le_pow2 (by decide)))⟩
  | float x =>
    cases x with
    | finite s sig step valid =>
      have hx : (Binary64.finite s sig step valid).truncate? = some _ := rfl
      exact ⟨_, rfl, Binary64.fits_of_truncate? hx⟩
    | _ => exact h.elim

namespace Doc

mutual

/-- The numbers that occur in a value. -/
def numbers : Doc → List Number
  | number n => [n]
  | list xs => numbersOfItems xs
  | object ms => numbersOfMembers ms
  | _ => []

/-- The numbers that occur in the items of a list. -/
def numbersOfItems : List Doc → List Number
  | [] => []
  | d :: ds => d.numbers ++ numbersOfItems ds

/-- The numbers that occur in the members of an object. -/
def numbersOfMembers : List (String × Doc) → List Number
  | [] => []
  | (_, d) :: ds => d.numbers ++ numbersOfMembers ds

end

theorem numbers_of_mem {ms : List (String × Doc)} {m : String × Doc} (h : m ∈ ms) :
    m.2.numbers ⊆ (object ms).numbers := by
  show m.2.numbers ⊆ numbersOfMembers ms
  induction ms with
  | nil => exact absurd h List.not_mem_nil
  | cons k ms ih =>
    intro n hn
    show n ∈ k.2.numbers ++ numbersOfMembers ms
    rcases List.mem_cons.mp h with rfl | h
    · exact List.mem_append_left _ hn
    · exact List.mem_append_right _ (ih h hn)

theorem mem_of_lookup {name : String} {v : Doc} {ms : List (String × Doc)}
    (h : lookup name ms = some v) : (name, v) ∈ ms := by
  induction ms with
  | nil => exact nomatch h
  | cons m ms ih =>
    rw [lookup] at h
    split at h
    · next hm =>
      rw [← Option.some.inj h, ← hm]
      exact List.mem_cons_self
    · exact List.mem_cons_of_mem m (ih h)

/-- A member that is there is one of the members of an object. -/
theorem exists_of_field? {d v : Doc} {name : String} (h : d.field? name = some v) :
    ∃ ms, d = .object ms ∧ (name, v) ∈ ms := by
  unfold field? at h
  split at h
  · exact nomatch h
  · exact nomatch h
  · next w hw =>
    obtain rfl := Option.some.inj h
    cases d with
    | object ms => exact ⟨ms, rfl, mem_of_lookup hw⟩
    | _ => exact nomatch hw

theorem numbers_of_field? {d v : Doc} {name : String} (h : d.field? name = some v) :
    v.numbers ⊆ d.numbers := by
  obtain ⟨ms, rfl, hmem⟩ := exists_of_field? h
  exact numbers_of_mem hmem

/-- A measurement with ordinary numbers is manageable. -/
theorem manageable_of_ordinary {item : Doc} (h : ∀ n ∈ item.numbers, n.Ordinary) :
    item.Manageable where
  numbers name n hn := (h n (numbers_of_field? hn List.mem_cons_self)).within
  samples n hn := by
    obtain ⟨name, -, hfield⟩ := exists_of_firstField? hn
    exact (h n (numbers_of_field? hfield List.mem_cons_self)).exists_truncate

end Doc

/-! ## What is read -/

theorem SourceRange.exists_ofKey_iff {key : String} :
    (∃ range, ofKey key = .ok range) ↔ IsKey key := by
  constructor
  · rintro ⟨range, h⟩
    obtain ⟨a, b, hparts, ha, hb⟩ := ofKey_eq_ok.mp h
    exact ⟨a, b, hparts, ⟨_, ha⟩, _, hb⟩
  · rintro ⟨a, b, hparts, ⟨first, ha⟩, last, hb⟩
    exact ⟨⟨first, last⟩, ofKey_eq_ok.mpr ⟨a, b, hparts, ha, hb⟩⟩

namespace GasRecord

variable {item : Doc} {g : GasRecord}

theorem Describes.isLoop {member : String × Doc} {loop : Int × LoopGas}
    (h : Describes member loop) : Doc.IsLoop member :=
  ⟨⟨_, h.counter⟩, h.object, _, h.gas, _, rfl⟩

theorem Loops.isLoop {raw : Doc} {loops : Ledger Int LoopGas} (h : Loops raw loops)
    (hraw : raw ≠ .null) : ∃ ms, raw = .object ms ∧ ∀ m ∈ ms, Doc.IsLoop m := by
  cases h with
  | none => exact absurd rfl hraw
  | each described =>
    refine ⟨_, rfl, fun m hm => ?_⟩
    obtain ⟨loop, -, hloop⟩ := exists_of_forall₂ described.flip hm
    exact hloop.isLoop

theorem exists_describes {member : String × Doc} (h : Doc.IsLoop member) :
    ∃ loop, Describes member loop := by
  obtain ⟨pc, hcounter⟩ := h.counter
  obtain ⟨v, hgas, n, rfl⟩ := h.gas
  exact ⟨(pc, ⟨n, !(member.2.get "isHidden").isBlank⟩), hcounter, h.object, hgas, rfl⟩

/-- What a record says was measured has the form of a measurement. -/
theorem Measures.isMeasurement (h : Measures item g) : item.IsMeasurement where
  object := h.object
  samples := by
    obtain ⟨n, hn, -⟩ := h.samples
    exact ⟨_, hn, n, rfl⟩
  totals := by
    have number : ∀ {name n}, item.field? name = some (.number n) →
        ∃ v, item.field? name = some v ∧ v.IsNumber := fun hn => ⟨_, hn, _, rfl⟩
    simp only [List.forall_mem_cons]
    exact ⟨number h.minOpcode, number h.maxOpcode, number h.minStorage, number h.maxStorage,
      number h.memory, nofun⟩
  worstCase v hv := by
    obtain ⟨given, hgiven, -⟩ := h.worstCase
    obtain ⟨n, -, rfl⟩ := Option.map_eq_some_iff.mp (hgiven.symm.trans hv)
    exact ⟨n, rfl⟩
  others := by
    have number : ∀ {name : String} {n : Option Number}, item.field? name = n.map .number →
        ∀ v, item.field? name = some v → v.IsNumber := by
      intro name n hn v hv
      obtain ⟨k, -, rfl⟩ := Option.map_eq_some_iff.mp (hn.symm.trans hv)
      exact ⟨k, rfl⟩
    simp only [List.forall_mem_cons]
    exact ⟨number h.meanOpcode, number h.functionGas, nofun⟩
  loops v hv := by
    have hloops := h.loops
    rw [Doc.get_eq_of_field? hv] at hloops
    exact hloops.isLoop fun hnull => Doc.field?_ne_null (hnull ▸ hv)
  issues v hv := by
    have hissues := h.issues
    unfold Issues at hissues
    rw [hv] at hissues
    obtain ⟨xs, hxs, -⟩ := hissues
    exact ⟨xs, hxs⟩

theorem exists_loops (h : item.IsMeasurement) : ∃ loops, Loops (item.get "loopGas") loops := by
  cases hv : item.field? "loopGas" with
  | none =>
    rw [Doc.get_eq_null_of_field? hv]
    exact ⟨∅, .none⟩
  | some v =>
    obtain ⟨ms, rfl, hms⟩ := h.loops v hv
    rw [Doc.get_eq_of_field? hv]
    obtain ⟨loops, described⟩ := exists_forall₂ fun m hm => exists_describes (hms m hm)
    exact ⟨_, .each described⟩

theorem exists_issues (h : item.IsMeasurement) :
    ∃ issues, Issues item ["detectedIssues", "issues"] issues := by
  unfold Issues
  cases hv : item.firstFilled? ["detectedIssues", "issues"] with
  | none => exact ⟨[], rfl⟩
  | some v =>
    obtain ⟨xs, rfl⟩ := h.issues v hv
    exact ⟨_, xs, rfl, rfl⟩

/-- A number that may be missing. -/
theorem exists_optional {v : Option Doc} (h : ∀ d, v = some d → d.IsNumber) :
    ∃ n : Option Number, v = n.map .number := by
  cases v with
  | none => exact ⟨none, rfl⟩
  | some d =>
    obtain ⟨n, rfl⟩ := h d rfl
    exact ⟨some n, rfl⟩

/-- The worst case of a manageable measurement can be computed. -/
theorem exists_computedWorst {n a b c : Number} {samples : Int} (h : item.Manageable)
    (hn : item.firstField? ["numSamples", "numTx"] = some (.number n))
    (hsamples : n.truncate = .ok samples) (ha : item.field? "maxOpcodeGas" = some (.number a))
    (hb : item.field? "maxStorageGas" = some (.number b))
    (hc : item.field? "memGas" = some (.number c)) (given : Option Number) :
    ∃ computed, computedWorst samples a b c given = .ok computed := by
  cases given with
  | some w => exact ⟨_, rfl⟩
  | none =>
    by_cases hpos : 0 < samples
    · obtain ⟨t, ht, hwithin⟩ := exists_total h ha hb hc
      obtain ⟨x, hx⟩ := exists_quotient h hn hsamples hpos hwithin
      refine ⟨some (.float x), ?_⟩
      rw [computedWorst, if_pos hpos, ht]
      simp only [bind, Except.bind, hx]
      rfl
    · exact ⟨none, if_neg hpos⟩

/-- A manageable measurement of the right form is what some record says was measured. -/
theorem exists_measures (h : item.IsMeasurement) (hm : item.Manageable) :
    ∃ g, Measures item g := by
  have total : ∀ name ∈ ["minOpcodeGas", "maxOpcodeGas", "minStorageGas", "maxStorageGas", "memGas"],
      ∃ n, item.field? name = some (.number n) := by
    intro name hname
    obtain ⟨v, hv, n, rfl⟩ := h.totals name hname
    exact ⟨n, hv⟩
  obtain ⟨v, hv, n, rfl⟩ := h.samples
  obtain ⟨samples, hsamples, -⟩ := hm.samples n hv
  obtain ⟨minOpcode, hminOpcode⟩ := total "minOpcodeGas" (by decide)
  obtain ⟨maxOpcode, hmaxOpcode⟩ := total "maxOpcodeGas" (by decide)
  obtain ⟨minStorage, hminStorage⟩ := total "minStorageGas" (by decide)
  obtain ⟨maxStorage, hmaxStorage⟩ := total "maxStorageGas" (by decide)
  obtain ⟨memory, hmemory⟩ := total "memGas" (by decide)
  obtain ⟨given, hgiven⟩ := exists_optional h.worstCase
  obtain ⟨meanOpcode, hmeanOpcode⟩ := exists_optional (h.others "meanOpcodeGas" (by decide))
  obtain ⟨functionGas, hfunctionGas⟩ := exists_optional (h.others "functionGas" (by decide))
  obtain ⟨loops, hloops⟩ := exists_loops h
  obtain ⟨issues, hissues⟩ := exists_issues h
  obtain ⟨computed, hcomputed⟩ :=
    exists_computedWorst hm hv hsamples hmaxOpcode hmaxStorage hmemory given
  let worstCase := if samples ≤ 0 then none else computed
  exact ⟨{
    gasClass := GasClass.ofMeasured worstCase
    samples, minOpcode, maxOpcode, minStorage, maxStorage, memory, worstCase, meanOpcode
    functionGas, loops, issues }, {
    object := h.object
    samples := ⟨n, hv, hsamples⟩
    minOpcode := hminOpcode
    maxOpcode := hmaxOpcode
    minStorage := hminStorage
    maxStorage := hmaxStorage
    memory := hmemory
    worstCase := ⟨given, hgiven, worstCase_of_computed hcomputed rfl⟩
    gasClass := rfl
    meanOpcode := hmeanOpcode
    functionGas := hfunctionGas
    loops := hloops
    issues := hissues }⟩

end GasRecord

namespace Measurements

variable {document : Doc}

theorem isResult_of_read {ms : Measurements} (h : Measurements.read document = .ok ms) :
    document.IsResult := by
  have hread := read_eq_ok.mp h
  refine ⟨?_, fun phase => ?_⟩
  · obtain ⟨members, hfield, -⟩ := hread .creation
    obtain ⟨ms, hobject, -⟩ := Doc.exists_of_field? hfield
    exact ⟨ms, hobject⟩
  · obtain ⟨members, hfield, hentries⟩ := hread phase
    refine ⟨members, hfield, fun m hm => ?_⟩
    obtain ⟨entry, -, hentry⟩ := exists_of_forall₂ hentries.flip hm
    exact ⟨SourceRange.exists_ofKey_iff.mp hentry.denotes, hentry.measures.isMeasurement⟩

theorem exists_read (h : document.IsResult) (hn : ∀ n ∈ document.numbers, n.Ordinary) :
    ∃ ms, Measurements.read document = .ok ms := by
  have hphase : ∀ phase, ∃ records members, document.field? (Phase.name phase) =
      some (.object members) ∧ List.Forall₂ Enters members records := by
    intro phase
    obtain ⟨members, hfield, hmembers⟩ := h.phases phase
    obtain ⟨records, hentries⟩ := exists_forall₂ (R := Enters) fun m hm => by
      obtain ⟨hkey, hform⟩ := hmembers m hm
      have hordinary : ∀ n ∈ m.2.numbers, n.Ordinary := fun n hmem =>
        hn n (Doc.numbers_of_field? hfield (Doc.numbers_of_mem hm hmem))
      obtain ⟨g, hg⟩ := GasRecord.exists_measures hform (Doc.manageable_of_ordinary hordinary)
      exact ⟨(m.1, g), rfl, SourceRange.exists_ofKey_iff.mpr hkey, hg⟩
    exact ⟨records, members, hfield, hentries⟩
  obtain ⟨creation, hcreation⟩ := hphase .creation
  obtain ⟨runtime, hruntime⟩ := hphase .runtime
  refine ⟨⟨creation, runtime⟩, read_eq_ok.mpr fun phase => ?_⟩
  cases phase with
  | creation => exact hcreation
  | runtime => exact hruntime

/-- A document with ordinary numbers is read or refused as malformed. -/
theorem malformed_of_read (hn : ∀ n ∈ document.numbers, n.Ordinary) :
    FailsOnly Failure.Malformed (Measurements.read document) := by
  refine failsOnly_read admits_malformed fun phase ms hfield m hm =>
    GasRecord.meets_of_manageable (Doc.manageable_of_ordinary fun n hmem => ?_) _
  exact hn n (Doc.numbers_of_field? hfield (Doc.numbers_of_mem hm hmem))

/-- **Exactly the documents of the form of a result are read; any other is malformed.** The records
of a phase have its keys, in their order, and say what its measurements say. -/
theorem read_accepts (hn : ∀ n ∈ document.numbers, n.Ordinary) :
    ((∃ ms, Measurements.read document = .ok ms) ↔ document.IsResult) ∧
    FailsOnly Failure.Malformed (Measurements.read document) ∧
    ∀ ms, Measurements.read document = .ok ms → ∀ phase, ∃ members,
      document.field? (Phase.name phase) = some (.object members) ∧
      (ms.records phase).map Prod.fst = members.map Prod.fst ∧
      List.Forall₂ (fun member entry => GasRecord.Measures member.2 entry.2) members
        (ms.records phase) := by
  refine ⟨⟨fun ⟨_, h⟩ => isResult_of_read h, fun h => exists_read h hn⟩, malformed_of_read hn, ?_⟩
  intro ms h phase
  obtain ⟨members, hfield, hentries⟩ := read_eq_ok.mp h phase
  refine ⟨members, hfield, ?_, hentries.imp fun _ _ hentry => hentry.measures⟩
  have hkeys : List.Forall₂ (· = ·) (members.map Prod.fst) ((ms.records phase).map Prod.fst) :=
    List.forall₂_map_left_iff.mpr (List.forall₂_map_right_iff.mpr
      (hentries.imp fun _ _ hentry => hentry.key))
  rw [List.forall₂_eq_eq_eq] at hkeys
  exact hkeys.symm

/-- A measurement by the second names of its members, with members that are null or blank. -/
def plainMeasurement : Doc :=
  .object [("numSamples", .null), ("numTx", .float (Binary64.ofInt 2)), ("minOpcodeGas", .int 80),
    ("maxOpcodeGas", .int 120), ("minStorageGas", .int 0), ("maxStorageGas", .int 22100),
    ("memGas", .int 12), ("meanWcGas", .null), ("loopGas", .object [("0312",
      .object [("gas", .float (Binary64.ofInt 400))])]), ("detectedIssues", .bool false),
    ("issues", .list [.text "storage mutation inside a loop"])]

/-- A result with nothing for one phase and one measurement for the other. -/
def plainResult : Doc :=
  .object [("creation", .object []), ("runtime", .object [("120:160", plainMeasurement)])]

/-- It has the form of a result, so its one record is read. -/
theorem read_accepts_plain : (∀ n ∈ plainResult.numbers, n.Ordinary) ∧ plainResult.IsResult ∧
    ∃ ms, Measurements.read plainResult = .ok ms ∧
      (ms.records .runtime).map Prod.fst = ["120:160"] := by
  have hn : ∀ n ∈ plainResult.numbers, n.Ordinary := by decide +kernel
  obtain ⟨hread, -, hphases⟩ := read_accepts hn
  have hform : plainMeasurement.IsMeasurement := {
    object := ⟨_, rfl⟩
    samples := ⟨_, rfl, _, rfl⟩
    totals := by
      simp only [List.forall_mem_cons]
      exact ⟨⟨_, rfl, _, rfl⟩, ⟨_, rfl, _, rfl⟩, ⟨_, rfl, _, rfl⟩, ⟨_, rfl, _, rfl⟩,
        ⟨_, rfl, _, rfl⟩, nofun⟩
    worstCase := nofun
    others := by
      simp only [List.forall_mem_cons]
      exact ⟨nofun, nofun, nofun⟩
    loops := by
      rintro v ⟨⟩
      refine ⟨_, rfl, ?_⟩
      simp only [List.forall_mem_cons]
      exact ⟨⟨⟨312, by decide +kernel⟩, ⟨_, rfl⟩, _, rfl, _, rfl⟩, nofun⟩
    issues := by
      rintro v ⟨⟩
      exact ⟨_, rfl⟩ }
  have hkey : SourceRange.IsKey "120:160" :=
    ⟨"120", "160", SourceRange.parts_intercalate rfl (by simp) (by simp), ⟨120, rfl⟩, 160, rfl⟩
  have hresult : plainResult.IsResult := {
    object := ⟨_, rfl⟩
    phases := by
      rintro (_ | _)
      · exact ⟨[], rfl, nofun⟩
      · refine ⟨_, rfl, ?_⟩
        simp only [List.forall_mem_cons]
        exact ⟨⟨hkey, hform⟩, nofun⟩ }
  obtain ⟨ms, hms⟩ := hread.mpr hresult
  obtain ⟨members, hfield, hkeys, -⟩ := hphases ms hms .runtime
  cases hfield
  exact ⟨hn, hresult, ms, hms, hkeys⟩

end Measurements

end AsmLens
