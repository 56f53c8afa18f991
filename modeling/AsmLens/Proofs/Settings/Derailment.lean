import AsmLens.Proofs.Settings.Reading

/-!
# Settings that end in a fault

Reading settings fails with problems, which are reported, and with faults about the type of a value,
which a settings file reports as well. Three more faults can end it: a section can be something else
than a mapping, with elements that are no pairs; so can the optimizer's steps, with texts as elements;
and a value that a check refuses can be too long to be shown.

* `Settings.Unpaired` — a section whose elements are no pairs
* `Settings.Derails` — what these faults come from
* `Settings.read_eq_fault` — reading ends in such a fault exactly if the settings derail
* `Settings.Orderly.not_derails` — sections that are mappings do not
-/

namespace AsmLens

open Yaml Settings

namespace Settings

variable {v : Value} {f : Fault} {n : Nat} {vs : List Value}

/-! ## Sections -/

/-- A value with two elements, of which the first can be a key. -/
def IsPair (v : Value) : Prop := ∃ k w, elements v = .ok [k, w] ∧ k.isKey = true

/-- Elements, counted from a number, that are pairs up to one that has another length. -/
inductive Uneven : Nat → List Value → Fault → Prop
  | here {n : Nat} {v : Value} {parts vs : List Value} (elements : elements v = .ok parts)
    (length : parts.length ≠ 2) : Uneven n (v :: vs) (.pairLength n parts.length)
  | later {n : Nat} {v : Value} {vs : List Value} {f : Fault} (pair : IsPair v)
    (others : Uneven (n + 1) vs f) : Uneven n (v :: vs) f

theorem exists_pairOf_iff : (∃ p, pairOf n v = .ok p) ↔ IsPair v := by
  unfold pairOf IsPair
  split
  · next h => simp [h]
  · next k w h => cases hk : k.keyFlaw? <;> simp [h, hk, Value.isKey]
  · next vs hvs h =>
    simp only [reduceCtorEq, exists_false, h, Except.ok.injEq, false_iff]
    rintro ⟨k, w, rfl, -⟩
    exact hvs k w rfl

theorem pairOf_eq_error (hf : ¬Mistyped f) : pairOf n v = .error f ↔
    ∃ parts, elements v = .ok parts ∧ parts.length ≠ 2 ∧ f = .pairLength n parts.length := by
  unfold pairOf
  split
  · next e h =>
    refine iff_of_false (fun h => hf ?_) (by simp [h])
    rw [← Except.error.inj h]
    rfl
  · next k w h =>
    refine iff_of_false (fun h => hf ?_) (by simp [h])
    split at h
    · exact nomatch h
    · rw [← Except.error.inj h]
      rfl
  · next vs hvs h =>
    have hlength : vs.length ≠ 2 := fun hl => by
      obtain ⟨k, w, rfl⟩ := List.length_eq_two.mp hl
      exact hvs k w rfl
    simp [h, hlength, eq_comm]

theorem pairsOf_eq_error (hf : ¬Mistyped f) : pairsOf n vs = .error f ↔ Uneven n vs f := by
  induction vs generalizing n with
  | nil => exact iff_of_false nofun nofun
  | cons v vs ih =>
    rw [pairsOf, FailsOnly.bind_eq_error]
    constructor
    · rintro (h | ⟨p, hp, h⟩)
      · obtain ⟨parts, hparts, hlength, rfl⟩ := (pairOf_eq_error hf).mp h
        exact .here hparts hlength
      · rcases FailsOnly.bind_eq_error.mp h with h | ⟨_, _, h⟩
        · exact .later (exists_pairOf_iff.mp ⟨p, hp⟩) (ih.mp h)
        · exact nomatch h
    · intro h
      cases h with
      | here hparts hlength => exact .inl ((pairOf_eq_error hf).mpr ⟨_, hparts, hlength, rfl⟩)
      | later hpair hrest =>
        obtain ⟨p, hp⟩ := exists_pairOf_iff.mpr hpair
        exact .inr ⟨p, hp, FailsOnly.bind_eq_error.mpr (.inl (ih.mpr hrest))⟩

/-- A value that is no mapping and whose elements are no pairs: the first that is none has another
length. -/
def Unpaired (v : Value) (f : Fault) : Prop :=
  (∀ es, v ≠ .mapping es) ∧ ∃ vs, elements v = .ok vs ∧ Uneven 0 vs f

theorem entriesOf_eq_error (hf : ¬Mistyped f) : entriesOf v = .error f ↔ Unpaired v f := by
  unfold entriesOf Unpaired
  split
  · next es => exact iff_of_false nofun fun h => h.1 es rfl
  · next other =>
    rw [FailsOnly.bind_eq_error]
    constructor
    · rintro (h | ⟨vs, hvs, h⟩)
      · exact absurd (mistyped_elements v f h) hf
      · rcases FailsOnly.bind_eq_error.mp h with h | ⟨_, _, h⟩
        · exact ⟨other, vs, hvs, (pairsOf_eq_error hf).mp h⟩
        · exact nomatch h
    · rintro ⟨-, vs, hvs, h⟩
      exact .inr ⟨vs, hvs, FailsOnly.bind_eq_error.mpr (.inl ((pairsOf_eq_error hf).mpr h))⟩

/-! ## Checks -/

theorem refuse_eq_fault {problem : String → Problem} :
    refuse v problem = .error (.fault f) ↔ v.isWritable = false ∧ f = .unwritable := by
  unfold refuse
  cases v.isWritable with
  | true => simp [Failure.raise]
  | false => simp [eq_comm]

end Settings

theorem CompilerSettings.check_eq_fault {s : CompilerSettings} {f : Fault} :
    s.check = .error (.fault f) ↔
      ¬s.Valid ∧ s.optimizeRuns.isWritable = false ∧ f = .unwritable := by
  rcases s.check_cases with ⟨hvalid, hcheck⟩ | ⟨hvalid, hcheck⟩
  · simp [hcheck, hvalid]
  · simp [hcheck, hvalid, refuse_eq_fault]

namespace SymexecSettings

variable {s : SymexecSettings} {f : Fault}

/-- The first value that the checks refuse is too long to be shown. -/
inductive Unshown (s : SymexecSettings) : Prop
  | strategy (refused : isStrategy s.strategy = false) (long : s.strategy.isWritable = false)
  | limit {before after : List (String × Value)} {name : String} {v : Value}
    (strategy : isStrategy s.strategy = true) (limits : s.limits = before ++ (name, v) :: after)
    (passed : ∀ l ∈ before, isPositive l.2 = true) (refused : isPositive v = false)
    (long : v.isWritable = false)

theorem checkStrategy_eq_fault : s.checkStrategy = .error (.fault f) ↔
    isStrategy s.strategy = false ∧ s.strategy.isWritable = false ∧ f = .unwritable := by
  unfold checkStrategy
  split
  · next h => simp [h]
  · next h => simp [h, refuse_eq_fault]

theorem checkLimits_eq_fault : s.checkLimits = .error (.fault f) ↔
    ∃ before name v after, s.limits = before ++ (name, v) :: after ∧
      (∀ l ∈ before, isPositive l.2 = true) ∧ isPositive v = false ∧ v.isWritable = false ∧
        f = .unwritable := by
  unfold checkLimits
  split
  · next name v h =>
    obtain ⟨hv, before, after, hsplit, hbefore⟩ := List.find?_eq_some_iff_append.mp h
    rw [refuse_eq_fault]
    constructor
    · rintro ⟨hlong, rfl⟩
      exact ⟨before, name, v, after, hsplit, by simpa using hbefore, by simpa using hv, hlong, rfl⟩
    · rintro ⟨before', name', v', after', hsplit', hbefore', hv', hlong, rfl⟩
      have h' : s.limits.find? (fun l => !isPositive l.2) = some (name', v') :=
        List.find?_eq_some_iff_append.mpr
          ⟨by simpa using hv', before', after', hsplit', by simpa using hbefore'⟩
      obtain ⟨-, rfl⟩ := Prod.mk.inj (Option.some.inj (h.symm.trans h'))
      exact ⟨hlong, rfl⟩
  · next h =>
    refine iff_of_false nofun ?_
    rintro ⟨before, name, v, after, hsplit, -, hv, -⟩
    have hmem : (name, v) ∈ s.limits := by simp [hsplit]
    simpa [hv] using List.find?_eq_none.mp h _ hmem

theorem checkAddress_ne_fault : s.checkAddress ≠ .error (.fault f) := by
  unfold checkAddress
  split
  · simp [Failure.raise]
  · rintro ⟨⟩

theorem check_eq_fault : s.check = .error (.fault f) ↔ s.Unshown ∧ f = .unwritable := by
  unfold check
  rw [FailsOnly.bind_eq_error]
  constructor
  · rintro (h | ⟨_, hstrategy, h⟩)
    · obtain ⟨hrefused, hlong, rfl⟩ := checkStrategy_eq_fault.mp h
      exact ⟨.strategy hrefused hlong, rfl⟩
    · rcases FailsOnly.bind_eq_error.mp h with h | ⟨_, -, h⟩
      · obtain ⟨before, name, v, after, hsplit, hpassed, hrefused, hlong, rfl⟩ :=
          checkLimits_eq_fault.mp h
        have hknown := isStrategy_iff.mpr (checkStrategy_eq_ok.mp hstrategy)
        exact ⟨.limit hknown hsplit hpassed hrefused hlong, rfl⟩
      · exact absurd h checkAddress_ne_fault
  · rintro ⟨h, rfl⟩
    cases h with
    | strategy hrefused hlong => exact .inl (checkStrategy_eq_fault.mpr ⟨hrefused, hlong, rfl⟩)
    | limit hknown hsplit hpassed hrefused hlong =>
      have hstrategy := checkStrategy_eq_ok.mpr (isStrategy_iff.mp hknown)
      have hlimits := checkLimits_eq_fault.mpr ⟨_, _, _, _, hsplit, hpassed, hrefused, hlong, rfl⟩
      exact .inr ⟨(), hstrategy, FailsOnly.bind_eq_error.mpr (.inl hlimits)⟩

end SymexecSettings

/-! ## Settings -/

namespace Settings

/-- A section of settings ends in a fault because its elements are no pairs. -/
theorem knownEntries_ne_fault {label : String} {names : List String} {es : List (Value × Value)}
    {f : Fault} (hf : ¬Mistyped f) :
    (knownEntries label names (.mapping es)).outcome ≠ .error (.fault f) :=
  fun h => ((knownEntries_eq_fault hf).mp h).1 es rfl

end Settings

/-- What ends the reading of compiler settings in a fault that is not about the type of a value. -/
inductive CompilerSettings.Derails (v : Value) : Fault → Prop
  | unpaired {f : Fault} (entries : Unpaired (v.orElse (.mapping [])) f) : Derails v f
  | steps {es : List (Value × Value)} {w : Value} {keys : List Value}
    (entries : entriesOf (v.orElse (.mapping [])) = .ok es) (named : ∀ e ∈ es, e.1.IsText)
    (steps : (setting es detailsName .null).orElse (.mapping []) = w) (other : ∀ ds, w ≠ .mapping ds)
    (elements : elements w = .ok keys) (texts : ∀ k ∈ keys, k.IsText) :
    Derails v (.noAttribute w.shape "items")
  | unshown {es : List (Value × Value)} {d : OptimizerDetails}
    (entries : entriesOf (v.orElse (.mapping [])) = .ok es) (named : ∀ e ∈ es, e.1.IsText)
    (steps : (OptimizerDetails.read ((setting es detailsName .null).orElse (.mapping []))).outcome =
      .ok d)
    (refused : ¬(ofEntries es d).Valid) (long : (ofEntries es d).optimizeRuns.isWritable = false) :
    Derails v .unwritable

/-- What ends the reading of settings of symbolic executions in such a fault. -/
inductive SymexecSettings.Derails (v : Value) : Fault → Prop
  | unpaired {f : Fault} (entries : Unpaired (v.orElse (.mapping [])) f) : Derails v f
  | unshown {es : List (Value × Value)} (entries : entriesOf (v.orElse (.mapping [])) = .ok es)
    (named : ∀ e ∈ es, e.1.IsText) (unshown : (ofEntries es).Unshown) : Derails v .unwritable

section

variable {v : Value} {f : Fault} (hf : ¬Mistyped f)

include hf

theorem OptimizerDetails.read_eq_fault : (OptimizerDetails.read v).outcome = .error (.fault f) ↔
    (∀ es, v ≠ .mapping es) ∧ f = .noAttribute v.shape "items" ∧
      ∃ keys, elements v = .ok keys ∧ ∀ k ∈ keys, k.IsText := by
  rw [read, Traced.outcome_bind_eq_error, ← knownEntries_eq_fault hf]
  refine or_iff_left ?_
  rintro ⟨_, _, ⟨⟩⟩

theorem CompilerSettings.read_eq_fault :
    (CompilerSettings.read v).outcome = .error (.fault f) ↔ Derails v f := by
  unfold read
  constructor
  · intro h
    rcases Traced.outcome_bind_eq_error.mp h with h | ⟨es, hes, h⟩
    · exact .unpaired ((entriesOf_eq_error hf).mp (Traced.outcome_liftFault_eq_fault.mp h))
    have hes := Traced.outcome_liftFault_eq_ok.mp hes
    rcases Traced.outcome_bind_eq_error.mp h with h | ⟨own, hown, h⟩
    · exact absurd h (knownEntries_ne_fault hf)
    obtain ⟨hown, hnamed⟩ := knownEntries_eq_ok.mp hown
    obtain rfl := Value.mapping.inj hown
    have hnamed := forall_isText_own.mp hnamed
    rcases Traced.outcome_bind_eq_error.mp h with h | ⟨d, hd, h⟩
    · obtain ⟨other, rfl, keys, hkeys, htexts⟩ := (OptimizerDetails.read_eq_fault hf).mp h
      exact .steps hes hnamed rfl other hkeys htexts
    rw [ofEntries_congr (setsAlike_own es)] at h
    rcases Traced.outcome_bind_eq_error.mp h with h | ⟨_, _, h⟩
    · obtain ⟨hrefused, hlong, rfl⟩ := check_eq_fault.mp h
      exact .unshown hes hnamed hd hrefused hlong
    · exact nomatch h
  · intro h
    cases h with
    | unpaired h =>
      exact Traced.outcome_bind_eq_error.mpr
        (.inl (Traced.outcome_liftFault_eq_fault.mpr ((entriesOf_eq_error hf).mpr h)))
    | @steps es w keys hes hnamed hw other hkeys htexts =>
      refine Traced.outcome_bind_eq_error.mpr (.inr ⟨es, Traced.outcome_liftFault_eq_ok.mpr hes, ?_⟩)
      refine Traced.outcome_bind_eq_error.mpr
        (.inr ⟨_, knownEntries_eq_ok.mpr ⟨rfl, forall_isText_own.mpr hnamed⟩, ?_⟩)
      rw [hw]
      exact Traced.outcome_bind_eq_error.mpr
        (.inl ((OptimizerDetails.read_eq_fault hf).mpr ⟨other, rfl, keys, hkeys, htexts⟩))
    | @unshown es d hes hnamed hd hrefused hlong =>
      refine Traced.outcome_bind_eq_error.mpr (.inr ⟨es, Traced.outcome_liftFault_eq_ok.mpr hes, ?_⟩)
      refine Traced.outcome_bind_eq_error.mpr
        (.inr ⟨_, knownEntries_eq_ok.mpr ⟨rfl, forall_isText_own.mpr hnamed⟩, ?_⟩)
      refine Traced.outcome_bind_eq_error.mpr (.inr ⟨d, hd, ?_⟩)
      rw [ofEntries_congr (setsAlike_own es)]
      exact Traced.outcome_bind_eq_error.mpr (.inl (check_eq_fault.mpr ⟨hrefused, hlong, rfl⟩))

theorem SymexecSettings.read_eq_fault :
    (SymexecSettings.read v).outcome = .error (.fault f) ↔ Derails v f := by
  unfold read
  constructor
  · intro h
    rcases Traced.outcome_bind_eq_error.mp h with h | ⟨es, hes, h⟩
    · exact .unpaired ((entriesOf_eq_error hf).mp (Traced.outcome_liftFault_eq_fault.mp h))
    rcases Traced.outcome_bind_eq_error.mp h with h | ⟨own, hown, h⟩
    · exact absurd h (knownEntries_ne_fault hf)
    obtain ⟨hown, hnamed⟩ := knownEntries_eq_ok.mp hown
    obtain rfl := Value.mapping.inj hown
    rcases Traced.outcome_bind_eq_error.mp h with h | ⟨_, _, h⟩
    · obtain ⟨hunshown, rfl⟩ := check_eq_fault.mp h
      exact .unshown (Traced.outcome_liftFault_eq_ok.mp hes) hnamed hunshown
    · exact nomatch h
  · intro h
    cases h with
    | unpaired h =>
      exact Traced.outcome_bind_eq_error.mpr
        (.inl (Traced.outcome_liftFault_eq_fault.mpr ((entriesOf_eq_error hf).mpr h)))
    | @unshown es hes hnamed hunshown =>
      refine Traced.outcome_bind_eq_error.mpr (.inr ⟨es, Traced.outcome_liftFault_eq_ok.mpr hes, ?_⟩)
      refine Traced.outcome_bind_eq_error.mpr (.inr ⟨es, knownEntries_eq_ok.mpr ⟨rfl, hnamed⟩, ?_⟩)
      exact Traced.outcome_bind_eq_error.mpr (.inl (check_eq_fault.mpr ⟨hunshown, rfl⟩))

theorem ServiceSettings.read_eq_fault :
    (ServiceSettings.read v).outcome = .error (.fault f) ↔ Unpaired (v.orElse (.mapping [])) f := by
  unfold read
  rw [Traced.outcome_bind_eq_error, Traced.outcome_liftFault_eq_fault, entriesOf_eq_error hf]
  refine or_iff_left ?_
  rintro ⟨es, -, h⟩
  rcases Traced.outcome_bind_eq_error.mp h with h | ⟨_, _, h⟩
  · exact knownEntries_ne_fault hf h
  · exact nomatch h

end

namespace Settings

variable {v : Value} {f : Fault}

/-- What ends the reading of settings from entries in such a fault: the first section that does. -/
inductive Derails (es : List (Value × Value)) (f : Fault) : Prop
  | compiler (derails : CompilerSettings.Derails (setting es "compiler" .null) f)
  | symexec {c : CompilerSettings}
    (compiler : (CompilerSettings.read (setting es "compiler" .null)).outcome = .ok c)
    (derails : SymexecSettings.Derails (setting es "symexec" .null) f)
  | service {c : CompilerSettings} {x : SymexecSettings}
    (compiler : (CompilerSettings.read (setting es "compiler" .null)).outcome = .ok c)
    (symexec : (SymexecSettings.read (setting es "symexec" .null)).outcome = .ok x)
    (unpaired : Unpaired ((setting es "service" .null).orElse (.mapping [])) f)

/-- Reading settings ends in a fault that is not about the type of a value if they derail. -/
theorem read_eq_fault {es : List (Value × Value)} (hf : ¬Mistyped f) :
    (read (.mapping es)).outcome = .error (.fault f) ↔ Derails es f := by
  rw [read_eq_of_mapping (Value.orElse_mapping es)]
  constructor
  · intro h
    rcases Traced.outcome_bind_eq_error.mp h with h | ⟨c, hc, h⟩
    · exact .compiler ((CompilerSettings.read_eq_fault hf).mp h)
    rcases Traced.outcome_bind_eq_error.mp h with h | ⟨x, hx, h⟩
    · exact .symexec hc ((SymexecSettings.read_eq_fault hf).mp h)
    rcases Traced.outcome_bind_eq_error.mp h with h | ⟨_, _, h⟩
    · exact .service hc hx ((ServiceSettings.read_eq_fault hf).mp h)
    · exact nomatch h
  · intro h
    cases h with
    | compiler h =>
      exact Traced.outcome_bind_eq_error.mpr (.inl ((CompilerSettings.read_eq_fault hf).mpr h))
    | symexec hc h =>
      refine Traced.outcome_bind_eq_error.mpr (.inr ⟨_, hc, ?_⟩)
      exact Traced.outcome_bind_eq_error.mpr (.inl ((SymexecSettings.read_eq_fault hf).mpr h))
    | service hc hx h =>
      refine Traced.outcome_bind_eq_error.mpr (.inr ⟨_, hc, ?_⟩)
      refine Traced.outcome_bind_eq_error.mpr (.inr ⟨_, hx, ?_⟩)
      exact Traced.outcome_bind_eq_error.mpr (.inl ((ServiceSettings.read_eq_fault hf).mpr h))

/-! ## Orderly settings -/

theorem isWritable_setting {es : List (Value × Value)} {name : String} {default : Value}
    (h : ∀ e ∈ es, e.2.isWritable = true) (hd : default.isWritable = true) :
    (setting es name default).isWritable = true := by
  have hlookup : ∀ v, Value.lookup name es = some v → v.isWritable = true := by
    induction es with
    | nil => exact nofun
    | cons e es ih =>
      obtain ⟨k, v⟩ := e
      obtain ⟨hv, hes⟩ := List.forall_mem_cons.mp h
      intro w hw
      cases k with
      | text s =>
        rw [Value.lookup] at hw
        split at hw
        · exact Option.some.inj hw ▸ hv
        · exact ih hes w hw
      | _ => exact ih hes w hw
  unfold setting
  cases hv : Value.lookup name es with
  | none => exact hd
  | some v => exact hlookup v hv

/-- Sections that are mappings or blank, the optimizer's steps too, with values that can be shown. -/
structure Orderly (es : List (Value × Value)) : Prop where
  compiler : ∃ ds, (setting es "compiler" .null).orElse (.mapping []) = .mapping ds ∧
    (∀ d ∈ ds, d.2.isWritable = true) ∧
      ∃ ss, (setting ds CompilerSettings.detailsName .null).orElse (.mapping []) = .mapping ss
  symexec : ∃ ds, (setting es "symexec" .null).orElse (.mapping []) = .mapping ds ∧
    ∀ d ∈ ds, d.2.isWritable = true
  service : ∃ ds, (setting es "service" .null).orElse (.mapping []) = .mapping ds

theorem not_unshown {es : List (Value × Value)} (h : ∀ e ∈ es, e.2.isWritable = true) :
    ¬(SymexecSettings.ofEntries es).Unshown := by
  intro hunshown
  cases hunshown with
  | strategy _ hlong =>
    rw [SymexecSettings.ofEntries, isWritable_setting h (by decide +kernel)] at hlong
    cases hlong
  | @limit before after name v _ hlimits _ _ hlong =>
    have hmem : (name, v) ∈ (SymexecSettings.ofEntries es).limits := by simp [hlimits]
    have hv : v.isWritable = true := by
      simp only [SymexecSettings.limits, SymexecSettings.ofEntries, List.mem_cons, Prod.mk.injEq,
        List.not_mem_nil, or_false] at hmem
      rcases hmem with ⟨-, rfl⟩ | ⟨-, rfl⟩ | ⟨-, rfl⟩ | ⟨-, rfl⟩ <;>
        exact isWritable_setting h (by decide +kernel)
    rw [hv] at hlong
    cases hlong

/-- Orderly settings do not derail. -/
theorem Orderly.not_derails {es : List (Value × Value)} (h : Orderly es) : ¬Derails es f := by
  obtain ⟨cs, hcs, hcwritable, ss, hss⟩ := h.compiler
  obtain ⟨xs, hxs, hxwritable⟩ := h.symexec
  obtain ⟨ws, hws⟩ := h.service
  intro hderails
  cases hderails with
  | compiler hc =>
    cases hc with
    | unpaired hu => exact hu.1 cs hcs
    | steps hes _ hw other =>
      obtain rfl := Except.ok.inj ((congrArg entriesOf hcs).symm.trans hes)
      exact other ss (hw.symm.trans hss)
    | unshown hes _ _ _ hlong =>
      obtain rfl := Except.ok.inj ((congrArg entriesOf hcs).symm.trans hes)
      rw [CompilerSettings.ofEntries, isWritable_setting hcwritable (by decide +kernel)] at hlong
      cases hlong
  | symexec _ hx =>
    cases hx with
    | unpaired hu => exact hu.1 xs hxs
    | unshown hes _ hunshown =>
      obtain rfl := Except.ok.inj ((congrArg entriesOf hxs).symm.trans hes)
      exact not_unshown hxwritable hunshown
  | service _ _ hu => exact hu.1 ws hws

end Settings

end AsmLens
