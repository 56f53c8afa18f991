import AsmLens.Proofs.Gas.Format
import AsmLens.Proofs.Text.Integer
import AsmLens.View.Wire

/-!
# Shown measurements are measurements

The document of a region that has gas holds a measurement: the totals, and beside them the loops, the
gas of the function and the issues. Reading it gives the record of the region again, its loops in the
order in which they were written.

* `Region.shownMeasurement` — the measurement that the document of a region holds
* `GasRecord.measures_shown` — what is shown of a record says what the record says
* `GasRecord.read_shown` — so it is read as the record
-/

namespace AsmLens

/-! ## Members that may be left out -/

namespace Doc

theorem lookup_append (name : String) (ms ns : List (String × Doc)) :
    lookup name (ms ++ ns) = (lookup name ms).or (lookup name ns) := by
  induction ms with
  | nil => rfl
  | cons m ms ih =>
    rw [List.cons_append, lookup, lookup, ih]
    split <;> rfl

/-- A member that is left out if there is no value for it. -/
def memberOf (name : String) (v : Option Doc) : List (String × Doc) := v.toList.map (name, ·)

theorem lookup_memberOf (name other : String) (v : Option Doc) :
    lookup other (memberOf name v) = if name = other then v else none := by
  cases v <;> simp [memberOf, lookup]

end Doc

theorem Report.unlessBlank_eq (name : String) (v : Doc) :
    Report.unlessBlank name v = Doc.memberOf name (if v.isBlank then none else some v) := by
  unfold Report.unlessBlank
  split <;> rfl

namespace GasRecord

theorem optionalMember_eq (name : String) (n : Option Number) :
    optionalMember name n = Doc.memberOf name (n.map .number) := by
  cases n <;> rfl

/-- The loops of a record as a document, unless there are none. -/
def loopDoc (g : GasRecord) : Option Doc :=
  if g.loops.isEmpty then none
  else
    some (.object (g.sortedLoops.map fun p =>
      (Text.intText p.1, .object [("gas", .number p.2.gas), ("isHidden", .bool p.2.hidden)])))

theorem loopMembers_eq (g : GasRecord) : g.loopMembers = Doc.memberOf "loopGas" g.loopDoc := by
  unfold loopMembers loopDoc
  split <;> rfl

/-- The issues of a record as a document, unless there are none. -/
def issueDoc (g : GasRecord) : Option Doc :=
  if g.issues.isEmpty then none else some (.list (g.issues.map .text))

theorem issueMembers_eq (g : GasRecord) : g.issueMembers = Doc.memberOf "detectedIssues" g.issueDoc := by
  unfold issueMembers issueDoc
  split <;> rfl

/-- What is shown of a record: its totals, and its loops, gas and issues unless they are left out. -/
def shown (g : GasRecord) : List (String × Doc) :=
  g.members ++ (g.loopMembers ++ (optionalMember "functionGas" g.functionGas ++ g.issueMembers))

end GasRecord

/-- The measurement that the document of a region holds: its totals, and what stands beside them. -/
def Region.shownMeasurement (entry : Doc) : Doc :=
  match entry.get "gasMap" with
  | .object totals =>
    .object (totals ++ ["loopGas", "functionGas", "detectedIssues"].flatMap fun name =>
      Doc.memberOf name (entry.member? name))
  | d => d

theorem Region.shownMeasurement_toDoc {r : Region} {g : GasRecord} (h : r.gas = some g) :
    shownMeasurement r.toDoc = .object g.shown := by
  have hmembers : r.toDoc.get "gasMap" = .object g.members ∧
      r.toDoc.member? "loopGas" = g.loopDoc ∧
      r.toDoc.member? "functionGas" = g.functionGas.map .number ∧
      r.toDoc.member? "detectedIssues" = g.issueDoc := by
    simp [Region.toDoc, h, GasRecord.toDoc, GasRecord.loopMembers_eq, GasRecord.optionalMember_eq,
      GasRecord.issueMembers_eq, Report.unlessBlank_eq, Doc.get, Doc.member?, Doc.lookup_append,
      Doc.lookup, Doc.lookup_memberOf]
  obtain ⟨hgas, hloops, hfunction, hissues⟩ := hmembers
  unfold shownMeasurement GasRecord.shown
  rw [hgas]
  simp only [List.flatMap_cons, List.flatMap_nil, List.append_nil, hloops, hfunction, hissues,
    GasRecord.loopMembers_eq, GasRecord.optionalMember_eq, GasRecord.issueMembers_eq]

namespace GasRecord

variable {item : Doc} {path : String} {g : GasRecord} {loops : Ledger Int LoopGas}

/-! ## What is shown -/

/-- What stands beside the totals, and two names that are not used. -/
theorem member?_shown (g : GasRecord) :
    (Doc.object g.shown).member? "meanOpcodeGas" = g.meanOpcode.map .number ∧
    (Doc.object g.shown).member? "functionGas" = g.functionGas.map .number ∧
    (Doc.object g.shown).member? "loopGas" = g.loopDoc ∧
    (Doc.object g.shown).member? "detectedIssues" = g.issueDoc ∧
    (Doc.object g.shown).member? "issues" = none ∧
    (Doc.object g.shown).member? "meanMaxTotalGas" = none := by
  simp [shown, members, loopMembers_eq, optionalMember_eq, issueMembers_eq, Doc.member?, Doc.lookup,
    Doc.lookup_append, Doc.lookup_memberOf]

theorem field?_shown {name : String} {n : Option Number}
    (h : (Doc.object g.shown).member? name = n.map .number) :
    (Doc.object g.shown).field? name = n.map .number := by
  unfold Doc.field?
  rw [h]
  cases n <;> rfl

theorem firstField?_shown_worst (g : GasRecord) :
    (Doc.object g.shown).firstField? ["meanWcGas", "meanMaxTotalGas"] = g.worstCase.map .number := by
  obtain ⟨-, -, -, -, -, habsent⟩ := g.member?_shown
  have hsecond : (Doc.object g.shown).field? "meanMaxTotalGas" = none :=
    field?_shown (n := none) habsent
  have hmember : (Doc.object g.shown).member? "meanWcGas" = some (numberDoc g.worstCase) := rfl
  unfold Doc.firstField?
  rw [List.findSome?_cons, List.findSome?_cons, hsecond, Doc.field?, hmember]
  cases g.worstCase <;> rfl

/-- A worst case that is given as it was found stays as it is. -/
theorem WorstCase.again {given : Option Number} (h : WorstCase g given) :
    WorstCase { g with loops } g.worstCase := by
  cases h with
  | unsampled hs hw => exact .unsampled hs hw
  | given hs hg hw => exact .given hs hw hw
  | mean hs _ _ _ hw => exact .given hs hw hw

/-! ## Loops and issues -/

/-- The program counters of what a measurement says of its loops may be written. -/
theorem Loops.isWritable {raw : Doc} (h : Loops raw loops) {loop : Int × LoopGas}
    (hmem : loop ∈ loops.toList) : Text.isWritable loop.1 = true := by
  cases h with
  | none => exact absurd hmem List.not_mem_nil
  | each described =>
    have hfind := Ledger.mem_of_find?_ofList (Ledger.find?_eq_some.mpr hmem)
    obtain ⟨member, -, hloop⟩ := exists_of_forall₂ described hfind
    exact Text.isWritable_of_readInt? hloop.counter

theorem nodup_sortedLoops (g : GasRecord) : (g.sortedLoops.map Prod.fst).Nodup :=
  ((List.mergeSort_perm _ _).map Prod.fst).nodup_iff.mpr g.loops.nodup

/-- The loops as they are written name the same gas for each program counter. -/
theorem find?_sortedLoops (g : GasRecord) (pc : Int) :
    (Ledger.ofList g.sortedLoops).find? pc = g.loops.find? pc := by
  refine Option.ext fun loop => ?_
  rw [Ledger.find?_eq_some, Ledger.find?_eq_some, Ledger.toList_ofList g.nodup_sortedLoops]
  exact (List.mergeSort_perm _ _).mem_iff

theorem loops_shown (hw : ∀ loop ∈ g.loops.toList, Text.isWritable loop.1 = true) :
    Loops ((Doc.object g.shown).get "loopGas") (Ledger.ofList g.sortedLoops) := by
  obtain ⟨-, -, hmember, -⟩ := g.member?_shown
  rw [Doc.get, hmember, loopDoc]
  split
  · next hempty =>
    have hnil : g.loops.toList = [] := List.isEmpty_iff.mp hempty
    have hsorted : g.sortedLoops = [] := by
      rw [sortedLoops, hnil, List.mergeSort_nil]
    rw [hsorted]
    exact .none
  · refine .each (List.forall₂_map_left_iff.mpr (List.forall₂_same.mpr fun loop hloop => ?_))
    have hmem : loop ∈ g.loops.toList := (List.mergeSort_perm _ _).mem_iff.mp hloop
    exact ⟨Text.readInt?_intText (hw loop hmem), ⟨_, rfl⟩, rfl, (Bool.not_not _).symm⟩

theorem issues_shown (g : GasRecord) :
    Issues (.object g.shown) ["detectedIssues", "issues"] g.issues := by
  obtain ⟨-, -, -, hfirst, hsecond, -⟩ := g.member?_shown
  unfold Issues Doc.firstFilled?
  rw [List.map_cons, List.map_cons, Doc.get, Doc.get, hfirst, hsecond, issueDoc]
  cases hissues : g.issues with
  | nil => rfl
  | cons issue issues =>
    refine ⟨(issue :: issues).map .text, rfl, ?_⟩
    rw [List.map_map]
    exact (List.map_id _).symm

/-! ## Reading -/

/-- What is shown of a record that was read says what the record says. -/
theorem measures_shown (h : Measures item g) :
    Measures (.object g.shown) { g with loops := Ledger.ofList g.sortedLoops } where
  object := ⟨_, rfl⟩
  samples := ⟨.int g.samples, rfl, rfl⟩
  minOpcode := rfl
  maxOpcode := rfl
  minStorage := rfl
  maxStorage := rfl
  memory := rfl
  worstCase := by
    obtain ⟨given, -, hworst⟩ := h.worstCase
    exact ⟨g.worstCase, firstField?_shown_worst g, hworst.again⟩
  gasClass := h.gasClass
  meanOpcode := field?_shown g.member?_shown.1
  functionGas := field?_shown g.member?_shown.2.1
  loops := loops_shown fun _ hmem => h.loops.isWritable hmem
  issues := issues_shown g

/-- **The gas that is shown of a region is read as the record of the region.** The loops are the same
by program counter. -/
theorem read_shown (h : GasRecord.read item path = .ok g) {r : Region} (hr : r.gas = some g)
    (path' : String) : ∃ g', GasRecord.read (Region.shownMeasurement r.toDoc) path' = .ok g' ∧
      g' = { g with loops := g'.loops } ∧ ∀ pc, g'.loops.find? pc = g.loops.find? pc := by
  refine ⟨{ g with loops := Ledger.ofList g.sortedLoops }, ?_, rfl, find?_sortedLoops g⟩
  rw [Region.shownMeasurement_toDoc hr]
  exact read_eq_ok.mpr (measures_shown (read_eq_ok.mp h))

/-- The record of `plainMeasurement`, whose worst case is computed. -/
def plainRecord : GasRecord where
  gasClass := GasClass.ofMeasured (some (.float (Binary64.ofInt 11116)))
  samples := 2
  minOpcode := .int 80
  maxOpcode := .int 120
  minStorage := .int 0
  maxStorage := .int 22100
  memory := .int 12
  worstCase := some (.float (Binary64.ofInt 11116))
  meanOpcode := none
  functionGas := none
  loops := Ledger.ofList [(312, ⟨.float (Binary64.ofInt 400), false⟩)]
  issues := ["storage mutation inside a loop"]

/-- The record comes back with the other names of its members, and with its loop under `312`. -/
theorem read_shown_plain :
    GasRecord.read Measurements.plainMeasurement "runtime.120:160" = .ok plainRecord ∧
    ∃ g', GasRecord.read (Region.shownMeasurement
        { Region.new ⟨120, 160⟩ ⟨⟨7, 1⟩, ⟨7, 41⟩, 40⟩ with gas := some plainRecord }.toDoc) "shown" =
          .ok g' ∧
      g' = { plainRecord with loops := g'.loops } ∧
      ∀ pc, g'.loops.find? pc = plainRecord.loops.find? pc := by
  have hread : GasRecord.read Measurements.plainMeasurement "runtime.120:160" = .ok plainRecord := by
    refine read_eq_ok.mpr {
      object := ⟨_, rfl⟩
      samples := ⟨_, rfl, by decide +kernel⟩
      minOpcode := rfl
      maxOpcode := rfl
      minStorage := rfl
      maxStorage := rfl
      memory := rfl
      worstCase := ⟨none, rfl, .mean (by decide) rfl rfl (by decide +kernel) rfl⟩
      gasClass := rfl
      meanOpcode := rfl
      functionGas := rfl
      loops := .each (.cons ⟨by decide +kernel, ⟨_, rfl⟩, rfl, rfl⟩ .nil)
      issues := ⟨_, rfl, rfl⟩ }
  exact ⟨hread, read_shown hread rfl "shown"⟩

end GasRecord

end AsmLens
