import AsmLens.Proofs.Compilation
import AsmLens.Proofs.Gas.Failures

/-!
# Compiler outputs in good shape

What a compiler writes has objects where the program looks members up, and functions whose
parameters are described by texts. Such an output may lack members or have wrong values, which is
reported, but compiling it is no fault, and neither is naming its functions.

* `Syntax.Described` — a node that defines a function, with everything that its label needs
* `RegionTable.clean_runMerge` — attaching measurements by such functions is no fault
* `Compilation.WellShaped` — an output with objects in their places
* `Compilation.clean_runBuild` — compiling such an output is no fault
* `Compilation.describes_of_runBuild` — the functions of an output are those of its compilation
-/

namespace AsmLens

/-- A value in whose place an object will do. -/
def Doc.ObjectLike (d : Doc) : Prop := d.isBlank = true ∨ d.shape = .object

theorem Doc.shape_eq_object {d : Doc} : d.shape = .object ↔ ∃ ms, d = .object ms := by
  constructor
  · intro h
    cases d with
    | object ms => exact ⟨ms, rfl⟩
    | number n => cases n <;> exact nomatch h
    | _ => exact nomatch h
  · rintro ⟨ms, rfl⟩
    rfl

/-- In place of a blank an object without members is taken, which has none either. -/
theorem Doc.ObjectLike.orElse {d : Doc} (h : d.ObjectLike) :
    ∃ ms, d.orElse (.object []) = .object ms ∧
      ∀ name v, lookup name ms = some v → d.member? name = some v := by
  by_cases hb : d.isBlank = true
  · refine ⟨[], ?_, fun _ _ hv => (nomatch hv)⟩
    rw [Doc.orElse, if_pos hb]
  · obtain ⟨ms, rfl⟩ := shape_eq_object.mp (h.resolve_left hb)
    refine ⟨ms, ?_, fun _ _ hv => hv⟩
    rw [Doc.orElse, if_neg hb]

/-- A value that is blank or can be laid out in columns. -/
def Doc.Alignable (d : Doc) : Prop := d.isBlank = true ∨ ∀ width, ∃ s, d.displayPadded width = .ok s

namespace Syntax

/-! ## Functions -/

/-- A parameter with a text for its type. -/
structure Typed (parameter : Doc) : Prop where
  object : parameter.shape = .object
  described : (parameter.get "typeDescriptions").ObjectLike
  type : ∀ v, (parameter.get "typeDescriptions").member? "typeString" = some v → ∃ s, v = .text s

/-- The name of the function that a node defines. -/
def nameOf (node : Doc) : Doc := (node.get "name").orElse ((node.member? "kind").getD (.text "function"))

/-- A node that defines a function and has what the label of the function needs. -/
structure Described (node : Doc) : Prop where
  parameters : (node.get "parameters").ObjectLike
  typed : ∀ ps, (node.get "parameters").member? "parameters" = some ps →
    ∃ ds, ps = .list ds ∧ ∀ d ∈ ds, Typed d
  writable : ∀ r, rangeOf node = .ok r → Text.isWritable r.first = true ∧ Text.isWritable r.last = true
  named : (nameOf node).Alignable

/-- A tree whose functions are described. -/
def Describes (tree : Doc) : Prop :=
  ∀ node ∈ walk tree, hasType node "FunctionDefinition" → Described node

theorem Typed.failsOnly {P : Fault → Prop} {parameter : Doc} (h : Typed parameter) :
    FailsOnly P (canonicalType parameter) := by
  obtain ⟨members, rfl⟩ := Doc.shape_eq_object.mp h.object
  obtain ⟨ms, hms, hmember⟩ := h.described.orElse
  refine FailsOnly.bind (.ok _) fun d hd => ?_
  obtain rfl : (Doc.object members).get "typeDescriptions" = d := Except.ok.inj hd
  rw [hms]
  dsimp only
  cases htype : Doc.lookup "typeString" ms with
  | none => exact .ok _
  | some v =>
    obtain ⟨s, rfl⟩ := h.type v (hmember _ v htype)
    exact .ok _

/-- A described function has parameters, and their types have texts. -/
theorem Described.parameters_eq {node : Doc} (h : Described node) :
    ∃ ds, parametersOf node = .ok (.list ds) ∧ ∀ d ∈ ds, Typed d := by
  obtain ⟨ms, hms, hmember⟩ := h.parameters.orElse
  unfold parametersOf
  rw [hms]
  cases hp : Doc.lookup "parameters" ms with
  | none =>
    refine ⟨[], ?_, fun d hd => absurd hd List.not_mem_nil⟩
    simp only [hp, Option.getD_none]
  | some v =>
    obtain ⟨ds, rfl, hds⟩ := h.typed v (hmember _ v hp)
    refine ⟨ds, ?_, hds⟩
    simp only [hp, Option.getD_some]

theorem range_of_readFunction {node : Doc} {g : Function} (h : readFunction node = .ok g) :
    rangeOf node = .ok g.range ∧ g.name = nameOf node := by
  rw [readFunction_eq] at h
  obtain ⟨ps, -, h⟩ := FailsOnly.bind_eq_ok.mp h
  obtain ⟨range, hr, h⟩ := FailsOnly.bind_eq_ok.mp h
  obtain ⟨types, -, h⟩ := FailsOnly.bind_eq_ok.mp h
  obtain rfl := Except.ok.inj h
  exact ⟨FailsOnly.liftProblem_eq_ok.mp hr, rfl⟩

/-- Reading and naming a described function is no fault. -/
theorem Described.meets_clean {node : Doc} (h : Described node) : Meets Failure.Clean node := by
  obtain ⟨ds, hds, htyped⟩ := h.parameters_eq
  refine ⟨fun f hf => ?_, fun ps f hps hf => ?_, fun g selectors f hg hf => ?_⟩
  · rw [hds] at hf
    exact nomatch hf
  · obtain rfl := Except.ok.inj (hds.symm.trans hps)
    have htypes : FailsOnly (fun _ => False) (canonicalTypes (.list ds)) :=
      .mapM fun d hd => (htyped d hd).failsOnly
    exact htypes f hf
  · obtain ⟨hfirst, hlast⟩ := h.writable g.range (range_of_readFunction hg).1
    unfold labelEntry at hf
    rw [hfirst, hlast] at hf
    exact nomatch hf

end Syntax

/-- The names of described functions can be laid out in columns. -/
theorem alignable_of_functionIndex {tree ids : Doc} {labels : Ledger String FunctionLabel}
    (h : Syntax.Describes tree) (hl : functionIndex tree ids = .ok labels) {k : String} {label : FunctionLabel}
    (hk : labels.find? k = some label) : label.name.Alignable := by
  unfold functionIndex at hl
  split at hl
  · obtain rfl := Except.ok.inj hl
    exact nomatch hk
  · obtain ⟨selectors, -, hl⟩ := FailsOnly.bind_eq_ok.mp hl
    obtain ⟨fs, hfs, hl⟩ := FailsOnly.bind_eq_ok.mp hl
    obtain ⟨entries, hentries, hl⟩ := FailsOnly.bind_eq_ok.mp hl
    obtain rfl := Except.ok.inj hl
    obtain ⟨g, hg, hentry⟩ := FailsOnly.mem_of_mapM (FailsOnly.liftFault_eq_ok.mp hentries)
      (Ledger.mem_of_find?_ofList hk)
    obtain ⟨node, hnode, htype, hread⟩ := Syntax.exists_node_of_functions hfs hg
    unfold labelEntry at hentry
    split at hentry
    · obtain ⟨-, rfl⟩ := Prod.mk.inj (Except.ok.inj hentry)
      show g.name.Alignable
      rw [(Syntax.range_of_readFunction hread).2]
      exact (h node hnode htype).named
    · exact nomatch hentry

/-- Attaching measurements by described functions is no fault. -/
theorem RegionTable.clean_runMerge (t : RegionTable) (ms : Measurements) {tree : Doc} (ids : Doc)
    (h : Syntax.Describes tree) : FailsOnly Failure.Clean (t.runMerge ms tree ids).outcome :=
  t.failsOnly_runMerge admits_clean ms ids fun _ node hnode htype => (h node hnode htype).meets_clean

namespace Compilation

/-! ## Outputs -/

/-- An output that has objects where members are looked up. -/
structure WellShaped (output : Doc) : Prop where
  contracts : ∀ d, output.field? "contracts" = some d → d.shape = .object
  evm : ∀ files file members contract evm, output.field? "contracts" = some (.object files) →
    (file, .object members) ∈ files → contract ∈ members → contract.2.field? "evm" = some evm →
    evm.shape = .object
  sources : ∀ d, output.field? "sources" = some d → d.shape = .object

/-- An output with described functions in the tree of its primary source. -/
def Described (output : Doc) : Prop :=
  ∀ infos, output.field? "sources" = some (.object infos) → Syntax.Describes (primaryTree infos)

variable {source : String} {output : Doc} {generation : Int} {c : Compilation}

/-- Compiling an output in good shape is no fault. -/
theorem clean_runBuild (h : WellShaped output) (source : String) (generation : Int) :
    FailsOnly Failure.Clean (runBuild source output generation).outcome := by
  have members : ∀ {d : Doc} {operation : String} {f : Fault}, d.shape = .object →
      d.membersFor operation = .error f → Failure.Clean (.fault f) := by
    intro d operation f hd hf
    obtain ⟨ms, rfl⟩ := Doc.shape_eq_object.mp hd
    exact nomatch hf
  refine failsOnly_runBuild admits_clean source output generation
    (fun d f hd hf => members (h.contracts d hd) hf) ?_ fun d f hd hf => members (h.sources d hd) hf
  intro files file ms contract hfiles hfile hcontract evm f hevm hf
  obtain ⟨members, rfl⟩ := Doc.shape_eq_object.mp
    (h.evm files file ms contract evm hfiles hfile hcontract hevm)
  exact nomatch hf

/-- Contracts that are no object are a fault, if there are sources. -/
theorem runBuild_of_contracts {contracts : Doc} (hc : output.field? "contracts" = some contracts)
    (hshape : contracts.shape ≠ .object) (hs : (output.field? "sources").isSome = true) :
    (runBuild source output generation).outcome =
      .error (.fault (.noAttribute contracts.shape "items")) := by
  obtain ⟨sources, hsources⟩ := Option.isSome_iff_exists.mp hs
  have hcontracts : output.requireAt ["contracts"] = .ok contracts := Doc.requireAt_eq_ok.mpr hc
  have hsources : output.requireAt ["sources"] = .ok sources := Doc.requireAt_eq_ok.mpr hsources
  unfold runBuild
  rw [hcontracts, hsources]
  cases contracts with
  | object ms => exact absurd rfl hshape
  | _ => rfl

/-- The tree of a compilation is that of the primary source. -/
theorem tree_of_runBuild (h : (runBuild source output generation).outcome = .ok c) :
    ∃ infos, output.field? "sources" = some (.object infos) ∧ c.tree = primaryTree infos := by
  obtain ⟨contracts, -, h⟩ := Traced.outcome_bind_eq_ok.mp h
  obtain ⟨sources, hs, h⟩ := Traced.outcome_bind_eq_ok.mp h
  obtain ⟨files, -, h⟩ := Traced.outcome_bind_eq_ok.mp h
  obtain ⟨p, -, h⟩ := Traced.outcome_bind_eq_ok.mp h
  obtain ⟨_, -, h⟩ := Traced.outcome_bind_eq_ok.mp h
  obtain ⟨infos, hi, h⟩ := Traced.outcome_bind_eq_ok.mp h
  obtain rfl := Except.ok.inj h
  obtain rfl := Doc.membersFor_eq_ok.mp (Traced.outcome_liftFault_eq_ok.mp hi)
  exact ⟨infos, Doc.requireAt_eq_ok.mp (Traced.outcome_lift_eq_ok.mp hs), rfl⟩

theorem describes_of_runBuild (h : Described output)
    (hc : (runBuild source output generation).outcome = .ok c) : Syntax.Describes c.tree := by
  obtain ⟨infos, hi, htree⟩ := tree_of_runBuild hc
  rw [htree]
  exact h infos hi

/-- A table stands under the name that it bears. -/
theorem contract_of_runBuild (h : (runBuild source output generation).outcome = .ok c) :
    ∀ name t, c.find? name = some t → t.contract = name := by
  refine of_runBuild (P := fun p => ∀ name t, p.tables.find? name = some t → t.contract = name)
    ?_ ?_ h
  · exact fun _ _ ht => nomatch ht
  · intro sources file p contract q hp hq
    obtain ⟨_, _, -, -, ⟨-, rfl⟩ | ⟨-, _, excluded, a, t, -, -, -, hta, rfl⟩⟩ := of_addContract hq
    · exact hp
    · intro name u hu
      rw [Ledger.find?_insert] at hu
      split at hu
      · next hname =>
        obtain rfl := Option.some.inj hu
        exact (congrArg Prod.fst (RegionTable.heading_of_tabulate hta)).trans hname
      · exact hp name u hu

/-- A table that was chosen stands under its name. -/
theorem find?_of_choose {contract : Option String} {t : RegionTable}
    (h : c.choose contract = .ok t) : ∃ name, c.find? name = some t := by
  unfold choose at h
  split at h
  · next name _ =>
    split at h
    · next u hu =>
      obtain rfl := Except.ok.inj h
      exact ⟨name, hu⟩
    · exact nomatch h
  · split at h
    · next u hu =>
      obtain rfl := Except.ok.inj h
      obtain ⟨p, hp, rfl⟩ := List.mem_map.mp (List.mem_of_getElem? hu)
      exact ⟨p.1, Ledger.find?_eq_some.mpr hp⟩
    · exact nomatch h

end Compilation

end AsmLens
