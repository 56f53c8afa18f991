import AsmLens.Proofs.Settings.Section

/-!
# What settings are read from

Settings are read section by section from mappings with texts as keys, each setting from what stands
under its name, and the checks of compiler settings and of those of symbolic executions have to pass.
Settings that pass the checks are read from what they are written as.

* `CompilerSettings.Valid`, `SymexecSettings.Valid` — what the checks ask for
* `Settings.read_eq_ok`, and the like for each section — what settings are read from
* `Settings.read_toValue` — settings are read from what they are written as
-/

namespace AsmLens

open Yaml Settings

/-! ## Checks -/

/-- The integer that a value counts as: a truth value is 1 or 0. -/
def Yaml.Value.integer? : Value → Option Int
  | bool b => some (if b then 1 else 0)
  | number (.int n) => some n
  | _ => none

theorem Settings.refuse_ne_ok {v : Value} {problem : String → Problem} :
    refuse v problem ≠ .ok () := by
  unfold refuse
  split <;> exact nofun

namespace CompilerSettings

variable {v : Value} {s : CompilerSettings}

/-- The number of optimizer runs is an integer that is not negative. -/
def Valid (s : CompilerSettings) : Prop := ∃ n, s.optimizeRuns.integer? = some n ∧ 0 ≤ n

theorem check_cases (s : CompilerSettings) :
    s.Valid ∧ s.check = .ok () ∨ ¬s.Valid ∧ s.check = refuse s.optimizeRuns .invalidRuns := by
  unfold check Valid
  cases s.optimizeRuns with
  | bool b => cases b <;> simp [Value.integer?]
  | number n =>
    cases n with
    | int n => by_cases hn : 0 ≤ n <;> simp [Value.integer?, hn]
    | float f => simp [Value.integer?]
  | _ => simp [Value.integer?]

theorem check_eq_ok : s.check = .ok () ↔ s.Valid := by
  rcases s.check_cases with ⟨hvalid, hcheck⟩ | ⟨hvalid, hcheck⟩
  · exact iff_of_true hcheck hvalid
  · exact iff_of_false (hcheck ▸ refuse_ne_ok) hvalid

end CompilerSettings

namespace SymexecSettings

variable {v : Value} {s : SymexecSettings}

/-- The strategy is a known one, the limits are integers above zero, and on-chain data has an
address. -/
structure Valid (s : SymexecSettings) : Prop where
  strategy : ∃ name ∈ strategies, s.strategy = .text name
  limits : ∀ l ∈ s.limits, ∃ n, l.2.integer? = some n ∧ 0 < n
  address : s.enableOnchain.isBlank = false → s.onchainAddress.isBlank = false

theorem isStrategy_iff : isStrategy v = true ↔ ∃ name ∈ strategies, v = .text name := by
  cases v with
  | text s => simp [isStrategy]
  | _ => simp [isStrategy]

theorem isPositive_iff : isPositive v = true ↔ ∃ n, v.integer? = some n ∧ 0 < n := by
  cases v with
  | bool b => cases b <;> simp [isPositive, Value.integer?]
  | number n =>
    cases n with
    | int n => simp [isPositive, Value.integer?, Int.lt_iff_add_one_le]
    | float f => simp [isPositive, Value.integer?]
  | _ => simp [isPositive, Value.integer?]

theorem checkStrategy_eq_ok :
    s.checkStrategy = .ok () ↔ ∃ name ∈ strategies, s.strategy = .text name := by
  rw [← isStrategy_iff, checkStrategy]
  split
  · next h => exact iff_of_true rfl h
  · next h => exact iff_of_false refuse_ne_ok h

theorem checkLimits_eq_ok :
    s.checkLimits = .ok () ↔ ∀ l ∈ s.limits, ∃ n, l.2.integer? = some n ∧ 0 < n := by
  simp only [← isPositive_iff]
  unfold checkLimits
  split
  · next name v h =>
    have hbad := List.find?_some h
    refine iff_of_false refuse_ne_ok fun hall => ?_
    simp [hall _ (List.mem_of_find?_eq_some h)] at hbad
  · next h => simpa using h

theorem checkAddress_eq_ok :
    s.checkAddress = .ok () ↔ (s.enableOnchain.isBlank = false → s.onchainAddress.isBlank = false) := by
  unfold checkAddress
  cases s.enableOnchain.isBlank <;> cases s.onchainAddress.isBlank <;> simp [Failure.raise]

theorem check_eq_ok : s.check = .ok () ↔ s.Valid := by
  unfold check
  rw [FailsOnly.bind_eq_ok]
  constructor
  · rintro ⟨_, hstrategy, h⟩
    obtain ⟨_, hlimits, haddress⟩ := FailsOnly.bind_eq_ok.mp h
    exact ⟨checkStrategy_eq_ok.mp hstrategy, checkLimits_eq_ok.mp hlimits,
      checkAddress_eq_ok.mp haddress⟩
  · intro h
    exact ⟨(), checkStrategy_eq_ok.mpr h.strategy,
      FailsOnly.bind_eq_ok.mpr ⟨(), checkLimits_eq_ok.mpr h.limits, checkAddress_eq_ok.mpr h.address⟩⟩

end SymexecSettings

/-- The sections that are checked pass their checks. -/
structure Settings.Valid (s : Settings) : Prop where
  compiler : s.compiler.Valid
  symexec : s.symexec.Valid

/-! ## What is read -/

namespace OptimizerDetails

variable {es es' : List (Value × Value)} {v : Value} {d : OptimizerDetails}

theorem ofEntries_congr (h : SetsAlike names es es') : ofEntries es' = ofEntries es := by
  unfold ofEntries
  congr 1 <;> exact h.setting (by decide) _

theorem ofEntries_entriesFrom (d : OptimizerDetails) : ofEntries (entriesFrom d.members) = d := by
  simp [ofEntries, entriesFrom, members, setting, Value.lookup]

theorem read_eq_ok : (read v).outcome = .ok d ↔
    ∃ es, v = .mapping es ∧ (∀ e ∈ es, e.1.IsText) ∧ ofEntries es = d := by
  unfold read
  rw [Traced.outcome_bind_eq_ok]
  simp only [knownEntries_eq_ok, Traced.outcome_pure, Except.ok.injEq, and_assoc]

theorem read_toValue (d : OptimizerDetails) : read d.toValue = pure d := by
  have hnames : d.members.map Prod.fst = names := rfl
  rw [read, toValue, knownEntries_entriesFrom hnames, Traced.pure_bind, ofEntries_entriesFrom]

end OptimizerDetails

namespace CompilerSettings

variable {es es' : List (Value × Value)} {v : Value} {s : CompilerSettings}

theorem ofEntries_congr (h : SetsAlike names es es') (d : OptimizerDetails) :
    ofEntries es' d = ofEntries es d := by
  unfold ofEntries
  congr 1 <;> exact h.setting (by decide) _

theorem ofEntries_entriesFrom (s : CompilerSettings) :
    ofEntries (entriesFrom s.members) s.details = s := by
  simp [ofEntries, entriesFrom, members, setting, Value.lookup]

/-- The entries apart from the optimizer's steps. -/
theorem setsAlike_own (es : List (Value × Value)) :
    SetsAlike names es (es.filter fun e => !isNamed [detailsName] e.1) :=
  setsAlike_filter (fun k => !isNamed [detailsName] k) (by decide) es

theorem forall_isText_own : (∀ e ∈ es.filter (fun e => !isNamed [detailsName] e.1), e.1.IsText) ↔
    ∀ e ∈ es, e.1.IsText := by
  refine ⟨fun h e he => ?_, fun h e he => h e (List.mem_filter.mp he).1⟩
  cases hn : isNamed [detailsName] e.1 with
  | true => exact isText_of_isNamed hn
  | false => exact h e (List.mem_filter.mpr ⟨he, by simp [hn]⟩)

/-- Compiler settings are read from names with values, the optimizer's steps from what stands under
theirs. -/
theorem read_eq_ok : (read v).outcome = .ok s ↔
    ∃ es d, entriesOf (v.orElse (.mapping [])) = .ok es ∧ (∀ e ∈ es, e.1.IsText) ∧
      (OptimizerDetails.read ((setting es detailsName .null).orElse (.mapping []))).outcome = .ok d ∧
      ofEntries es d = s ∧ s.Valid := by
  unfold read
  constructor
  · intro h
    obtain ⟨es, hes, h⟩ := Traced.outcome_bind_eq_ok.mp h
    obtain ⟨own, hown, h⟩ := Traced.outcome_bind_eq_ok.mp h
    obtain ⟨d, hd, h⟩ := Traced.outcome_bind_eq_ok.mp h
    obtain ⟨_, hcheck, h⟩ := Traced.outcome_bind_eq_ok.mp h
    obtain ⟨hown, htext⟩ := knownEntries_eq_ok.mp hown
    obtain rfl := Value.mapping.inj hown
    obtain rfl := Except.ok.inj h
    rw [ofEntries_congr (setsAlike_own es)] at hcheck ⊢
    exact ⟨es, d, Traced.outcome_liftFault_eq_ok.mp hes, forall_isText_own.mp htext, hd, rfl,
      check_eq_ok.mp hcheck⟩
  · rintro ⟨es, d, hes, htext, hd, rfl, hvalid⟩
    refine Traced.outcome_bind_eq_ok.mpr ⟨es, Traced.outcome_liftFault_eq_ok.mpr hes, ?_⟩
    refine Traced.outcome_bind_eq_ok.mpr
      ⟨_, knownEntries_eq_ok.mpr ⟨rfl, forall_isText_own.mpr htext⟩, ?_⟩
    refine Traced.outcome_bind_eq_ok.mpr ⟨d, hd, ?_⟩
    rw [ofEntries_congr (setsAlike_own es)]
    exact Traced.outcome_bind_eq_ok.mpr ⟨(), check_eq_ok.mpr hvalid, rfl⟩

theorem read_toValue (h : s.Valid) : read s.toValue = pure s := by
  have hnames : s.members.map Prod.fst = names := rfl
  have hown : (entriesFrom (s.members ++ [(detailsName, s.details.toValue)])).filter
      (fun e => !isNamed [detailsName] e.1) = entriesFrom s.members := by
    simp [entriesFrom, members, isNamed, detailsName]
  have hdetails : setting (entriesFrom (s.members ++ [(detailsName, s.details.toValue)])) detailsName
      .null = s.details.toValue := by
    simp [entriesFrom, members, setting, Value.lookup, detailsName]
  have hsteps : s.details.toValue.orElse (.mapping []) = s.details.toValue := rfl
  rw [read, toValue, Value.orElse_mapping, entriesOf, Traced.lift_ok, Traced.pure_bind]
  simp only [hown, hdetails, hsteps, knownEntries_entriesFrom hnames, OptimizerDetails.read_toValue,
    Traced.pure_bind, ofEntries_entriesFrom, check_eq_ok.mpr h]
  rfl

end CompilerSettings

namespace SymexecSettings

variable {es es' : List (Value × Value)} {v : Value} {s : SymexecSettings}

theorem ofEntries_congr (h : SetsAlike names es es') : ofEntries es' = ofEntries es := by
  unfold ofEntries
  congr 1 <;> exact h.setting (by decide) _

theorem ofEntries_entriesFrom (s : SymexecSettings) : ofEntries (entriesFrom s.members) = s := by
  simp [ofEntries, entriesFrom, members, setting, Value.lookup]

/-- Settings of symbolic executions are read from names with values. -/
theorem read_eq_ok : (read v).outcome = .ok s ↔
    ∃ es, entriesOf (v.orElse (.mapping [])) = .ok es ∧ (∀ e ∈ es, e.1.IsText) ∧
      ofEntries es = s ∧ s.Valid := by
  unfold read
  constructor
  · intro h
    obtain ⟨es, hes, h⟩ := Traced.outcome_bind_eq_ok.mp h
    obtain ⟨own, hown, h⟩ := Traced.outcome_bind_eq_ok.mp h
    obtain ⟨_, hcheck, h⟩ := Traced.outcome_bind_eq_ok.mp h
    obtain ⟨hown, htext⟩ := knownEntries_eq_ok.mp hown
    obtain rfl := Value.mapping.inj hown
    obtain rfl := Except.ok.inj h
    exact ⟨es, Traced.outcome_liftFault_eq_ok.mp hes, htext, rfl, check_eq_ok.mp hcheck⟩
  · rintro ⟨es, hes, htext, rfl, hvalid⟩
    refine Traced.outcome_bind_eq_ok.mpr ⟨es, Traced.outcome_liftFault_eq_ok.mpr hes, ?_⟩
    refine Traced.outcome_bind_eq_ok.mpr ⟨es, knownEntries_eq_ok.mpr ⟨rfl, htext⟩, ?_⟩
    exact Traced.outcome_bind_eq_ok.mpr ⟨(), check_eq_ok.mpr hvalid, rfl⟩

theorem read_toValue (h : s.Valid) : read s.toValue = pure s := by
  have hnames : s.members.map Prod.fst = names := rfl
  rw [read, toValue, Value.orElse_mapping, entriesOf, Traced.lift_ok, Traced.pure_bind,
    knownEntries_entriesFrom hnames, Traced.pure_bind, ofEntries_entriesFrom]
  simp only [check_eq_ok.mpr h]
  rfl

end SymexecSettings

namespace ServiceSettings

variable {es es' : List (Value × Value)} {v : Value} {s : ServiceSettings}

theorem ofEntries_congr (h : SetsAlike names es es') : ofEntries es' = ofEntries es := by
  unfold ofEntries
  congr 1 <;> exact h.setting (by decide) _

theorem ofEntries_entriesFrom (s : ServiceSettings) : ofEntries (entriesFrom s.members) = s := by
  simp [ofEntries, entriesFrom, members, setting, Value.lookup]

/-- Settings of the service are read from names with values, and not checked. -/
theorem read_eq_ok : (read v).outcome = .ok s ↔
    ∃ es, entriesOf (v.orElse (.mapping [])) = .ok es ∧ (∀ e ∈ es, e.1.IsText) ∧
      ofEntries es = s := by
  unfold read
  constructor
  · intro h
    obtain ⟨es, hes, h⟩ := Traced.outcome_bind_eq_ok.mp h
    obtain ⟨own, hown, h⟩ := Traced.outcome_bind_eq_ok.mp h
    obtain ⟨hown, htext⟩ := knownEntries_eq_ok.mp hown
    obtain rfl := Value.mapping.inj hown
    exact ⟨es, Traced.outcome_liftFault_eq_ok.mp hes, htext, Except.ok.inj h⟩
  · rintro ⟨es, hes, htext, rfl⟩
    refine Traced.outcome_bind_eq_ok.mpr ⟨es, Traced.outcome_liftFault_eq_ok.mpr hes, ?_⟩
    exact Traced.outcome_bind_eq_ok.mpr ⟨es, knownEntries_eq_ok.mpr ⟨rfl, htext⟩, rfl⟩

theorem read_toValue (s : ServiceSettings) : read s.toValue = pure s := by
  have hnames : s.members.map Prod.fst = names := rfl
  rw [read, toValue, Value.orElse_mapping, entriesOf, Traced.lift_ok, Traced.pure_bind,
    knownEntries_entriesFrom hnames, Traced.pure_bind, ofEntries_entriesFrom]

end ServiceSettings

namespace Settings

variable {v : Value} {s : Settings}

theorem sectionOf_eq_ok {name : String} {w : Value} :
    sectionOf name v = .ok w ↔ ∃ es, v = .mapping es ∧ setting es name .null = w := by
  unfold sectionOf
  split
  · simp
  · next h => exact ⟨fun h => (nomatch h), fun ⟨es, hes, _⟩ => absurd hes (h es)⟩

theorem read_eq_of_mapping {es : List (Value × Value)} (h : v.orElse (.mapping []) = .mapping es) :
    read v = do
      let compiler ← CompilerSettings.read (setting es "compiler" .null)
      let symexec ← SymexecSettings.read (setting es "symexec" .null)
      let service ← ServiceSettings.read (setting es "service" .null)
      return { compiler, symexec, service } := by
  rw [read, h]
  rfl

/-- Settings are read from a mapping, section by section. -/
theorem read_eq_ok : (read v).outcome = .ok s ↔
    ∃ es, v.orElse (.mapping []) = .mapping es ∧
      (CompilerSettings.read (setting es "compiler" .null)).outcome = .ok s.compiler ∧
      (SymexecSettings.read (setting es "symexec" .null)).outcome = .ok s.symexec ∧
      (ServiceSettings.read (setting es "service" .null)).outcome = .ok s.service := by
  constructor
  · intro h
    obtain ⟨es, hes⟩ : ∃ es, v.orElse (.mapping []) = .mapping es := by
      obtain ⟨w, hw, -⟩ := Traced.outcome_bind_eq_ok.mp h
      obtain ⟨es, hes, -⟩ := sectionOf_eq_ok.mp (Traced.outcome_liftFault_eq_ok.mp hw)
      exact ⟨es, hes⟩
    rw [read_eq_of_mapping hes] at h
    obtain ⟨compiler, hcompiler, h⟩ := Traced.outcome_bind_eq_ok.mp h
    obtain ⟨symexec, hsymexec, h⟩ := Traced.outcome_bind_eq_ok.mp h
    obtain ⟨service, hservice, h⟩ := Traced.outcome_bind_eq_ok.mp h
    obtain rfl := Except.ok.inj h
    exact ⟨es, hes, hcompiler, hsymexec, hservice⟩
  · rintro ⟨es, hes, hcompiler, hsymexec, hservice⟩
    rw [read_eq_of_mapping hes]
    refine Traced.outcome_bind_eq_ok.mpr ⟨_, hcompiler, ?_⟩
    refine Traced.outcome_bind_eq_ok.mpr ⟨_, hsymexec, ?_⟩
    exact Traced.outcome_bind_eq_ok.mpr ⟨_, hservice, rfl⟩

theorem valid_of_read (h : (read v).outcome = .ok s) : s.Valid := by
  obtain ⟨es, -, hcompiler, hsymexec, -⟩ := read_eq_ok.mp h
  obtain ⟨-, -, -, -, -, -, hruns⟩ := CompilerSettings.read_eq_ok.mp hcompiler
  obtain ⟨-, -, -, -, hlimits⟩ := SymexecSettings.read_eq_ok.mp hsymexec
  exact ⟨hruns, hlimits⟩

/-- Settings that pass the checks are read from what they are written as, without a word. -/
theorem read_toValue (h : s.Valid) : read s.toValue = pure s := by
  rw [toValue, read_eq_of_mapping (Value.orElse_mapping _)]
  simp [entriesFrom, setting, Value.lookup, Traced.pure_bind, CompilerSettings.read_toValue h.compiler,
    SymexecSettings.read_toValue h.symexec, ServiceSettings.read_toValue]

end Settings

end AsmLens
