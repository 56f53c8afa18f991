import AsmLens.Proofs.Settings.Reading

/-!
# Settings that were read are kept

Settings come back from what they are written as, without a warning: what is written has each name
once, with its value, and what was checked once passes the check again. Nor do they depend on what
a section has under names that it does not know.

* `Settings.Pruning` — which entries are left out
* `Settings.Pruning.read_apply` — entries of unknown names do not matter
* `Settings.persists_of_read` — settings that were read are kept
-/

namespace AsmLens.Settings

open Yaml

variable {v : Value} {s : Settings}

/-! ## Unknown names -/

/-- A value with other entries, if it is a mapping. -/
def onEntries (change : List (Value × Value) → List (Value × Value)) : Value → Value
  | .mapping es => .mapping (change es)
  | v => v

/-- A mapping without the entries whose keys are not kept. -/
def restrict (keep : Value → Bool) : Value → Value :=
  onEntries fun es => es.filter fun e => keep e.1

/-- Entries with a change of the values under a name. -/
def alter (name : String) (change : Value → Value) (es : List (Value × Value)) :
    List (Value × Value) :=
  es.map fun e => if isNamed [name] e.1 then (e.1, change e.2) else e

/-- A mapping with a change of what it has under a name. -/
def modify (name : String) (change : Value → Value) : Value → Value := onEntries (alter name change)

/-- Which entries of the sections and of the optimizer's steps are kept: those of known names at
least. -/
structure Pruning where
  compiler : Value → Bool
  details : Value → Bool
  symexec : Value → Bool
  service : Value → Bool
  keeps_compiler : ∀ name ∈ CompilerSettings.detailsName :: CompilerSettings.names,
    compiler (.text name) = true
  keeps_details : ∀ name ∈ OptimizerDetails.names, details (.text name) = true
  keeps_symexec : ∀ name ∈ SymexecSettings.names, symexec (.text name) = true
  keeps_service : ∀ name ∈ ServiceSettings.names, service (.text name) = true

/-- The compiler section without the entries that are not kept. -/
def Pruning.ofCompiler (p : Pruning) (v : Value) : Value :=
  modify CompilerSettings.detailsName (restrict p.details) (restrict p.compiler v)

/-- A value without the entries of its sections that are not kept. -/
def Pruning.apply (p : Pruning) (v : Value) : Value :=
  modify "service" (restrict p.service)
    (modify "symexec" (restrict p.symexec) (modify "compiler" p.ofCompiler v))

variable {es : List (Value × Value)} {name other : String} {change : Value → Value}

theorem orElse_onEntries {change : List (Value × Value) → List (Value × Value)} (h : change [] = []) :
    (onEntries change v).orElse (.mapping []) = onEntries change (v.orElse (.mapping [])) := by
  cases v with
  | mapping es => simp only [onEntries, Value.orElse_mapping]
  | _ =>
    simp only [onEntries, Value.orElse]
    split <;> simp [*]

theorem alter_cons (k v : Value) : alter name change ((k, v) :: es) =
    (if isNamed [name] k then (k, change v) else (k, v)) :: alter name change es := rfl

theorem lookup_alter :
    Value.lookup name (alter name change es) = (Value.lookup name es).map change := by
  induction es with
  | nil => rfl
  | cons e es ih =>
    obtain ⟨k, v⟩ := e
    rw [alter_cons]
    cases k with
    | text s =>
      by_cases hs : s = name
      · simp [hs, isNamed, Value.lookup]
      · simp [hs, isNamed, Value.lookup, ih]
    | _ => exact ih

theorem lookup_alter_of_ne (h : other ≠ name) :
    Value.lookup other (alter name change es) = Value.lookup other es := by
  induction es with
  | nil => rfl
  | cons e es ih =>
    obtain ⟨k, v⟩ := e
    rw [alter_cons]
    cases k with
    | text s =>
      by_cases hs : s = name
      · simp [hs, isNamed, Value.lookup, ih, h.symm]
      · simp [hs, isNamed, Value.lookup, ih]
    | _ => exact ih

theorem setting_alter (h : change .null = .null) :
    setting (alter name change es) name .null = change (setting es name .null) := by
  rw [setting, lookup_alter, setting]
  cases Value.lookup name es with
  | none => exact h.symm
  | some v => rfl

theorem setting_alter_of_ne (h : other ≠ name) (default : Value) :
    setting (alter name change es) other default = setting es other default := by
  rw [setting, lookup_alter_of_ne h, setting]

theorem isText_alter (h : ∀ e ∈ es, e.1.IsText) : ∀ e ∈ alter name change es, e.1.IsText := by
  intro e he
  obtain ⟨d, hd, rfl⟩ := List.mem_map.mp he
  split
  · exact h d hd
  · exact h d hd

theorem isText_restricted {keep : Value → Bool} (h : ∀ e ∈ es, e.1.IsText) :
    ∀ e ∈ es.filter (fun e => keep e.1), e.1.IsText :=
  fun e he => h e (List.mem_filter.mp he).1

/-- A change of its entries shows in what a section stands for if it is a mapping, and else not at
all. -/
theorem entriesOf_onEntries {change : List (Value × Value) → List (Value × Value)}
    (hchange : change [] = []) (h : entriesOf (v.orElse (.mapping [])) = .ok es) :
    entriesOf ((onEntries change v).orElse (.mapping [])) = .ok (change es) ∨
      entriesOf ((onEntries change v).orElse (.mapping [])) = .ok es := by
  rw [orElse_onEntries hchange]
  cases hv : v.orElse (.mapping []) with
  | mapping ds =>
    obtain rfl : ds = es := by simpa [hv, entriesOf] using h
    exact .inl rfl
  | _ => exact .inr (by rw [← h, hv]; rfl)

/-- A section that stands for entries still does so after some were left out. -/
theorem exists_entriesOf_restrict {keep : Value → Bool} {names : List String}
    (hkeep : ∀ name ∈ names, keep (.text name) = true)
    (h : entriesOf (v.orElse (.mapping [])) = .ok es) (htext : ∀ e ∈ es, e.1.IsText) :
    ∃ es', entriesOf ((restrict keep v).orElse (.mapping [])) = .ok es' ∧ (∀ e ∈ es', e.1.IsText) ∧
      SetsAlike names es es' := by
  have hnil : [].filter (fun e : Value × Value => keep e.1) = [] := rfl
  rcases entriesOf_onEntries hnil h with h | h
  · exact ⟨_, h, isText_restricted htext, setsAlike_filter keep hkeep es⟩
  · exact ⟨es, h, htext, fun _ _ => rfl⟩

namespace Pruning

variable (p : Pruning)

theorem read_symexec {s : SymexecSettings} (h : (SymexecSettings.read v).outcome = .ok s) :
    (SymexecSettings.read (restrict p.symexec v)).outcome = .ok s := by
  obtain ⟨es, hes, htext, rfl, hvalid⟩ := SymexecSettings.read_eq_ok.mp h
  obtain ⟨es', hes', htext', halike⟩ := exists_entriesOf_restrict p.keeps_symexec hes htext
  exact SymexecSettings.read_eq_ok.mpr
    ⟨es', hes', htext', SymexecSettings.ofEntries_congr halike, hvalid⟩

theorem read_service {s : ServiceSettings} (h : (ServiceSettings.read v).outcome = .ok s) :
    (ServiceSettings.read (restrict p.service v)).outcome = .ok s := by
  obtain ⟨es, hes, htext, rfl⟩ := ServiceSettings.read_eq_ok.mp h
  obtain ⟨es', hes', htext', halike⟩ := exists_entriesOf_restrict p.keeps_service hes htext
  exact ServiceSettings.read_eq_ok.mpr ⟨es', hes', htext', ServiceSettings.ofEntries_congr halike⟩

theorem read_details {d : OptimizerDetails}
    (h : (OptimizerDetails.read (v.orElse (.mapping []))).outcome = .ok d) :
    (OptimizerDetails.read ((restrict p.details v).orElse (.mapping []))).outcome = .ok d := by
  obtain ⟨es, hes, htext, rfl⟩ := OptimizerDetails.read_eq_ok.mp h
  rw [restrict, orElse_onEntries rfl, hes]
  exact OptimizerDetails.read_eq_ok.mpr ⟨_, rfl, isText_restricted htext,
    OptimizerDetails.ofEntries_congr (setsAlike_filter p.details p.keeps_details es)⟩

theorem read_compiler {s : CompilerSettings} (h : (CompilerSettings.read v).outcome = .ok s) :
    (CompilerSettings.read (p.ofCompiler v)).outcome = .ok s := by
  obtain ⟨es, d, hes, htext, hd, rfl, hvalid⟩ := CompilerSettings.read_eq_ok.mp h
  obtain ⟨es', hes', htext', halike⟩ := exists_entriesOf_restrict p.keeps_compiler hes htext
  have hsame : CompilerSettings.ofEntries es' d = .ofEntries es d :=
    CompilerSettings.ofEntries_congr (fun name hname => halike name (.tail _ hname)) d
  rw [← halike.setting List.mem_cons_self] at hd
  rw [← hsame] at hvalid ⊢
  -- the steps are looked for in a mapping only
  have hnil : alter CompilerSettings.detailsName (restrict p.details) [] = [] := rfl
  rcases entriesOf_onEntries hnil hes' with h | h
  · have hothers : ∀ name ∈ CompilerSettings.names, name ≠ CompilerSettings.detailsName := by decide
    have hrest : SetsAlike CompilerSettings.names es'
        (alter CompilerSettings.detailsName (restrict p.details) es') :=
      fun name hname => lookup_alter_of_ne (hothers name hname)
    refine CompilerSettings.read_eq_ok.mpr ⟨_, d, h, isText_alter htext', ?_,
      CompilerSettings.ofEntries_congr hrest d, hvalid⟩
    rw [setting_alter rfl]
    exact p.read_details hd
  · exact CompilerSettings.read_eq_ok.mpr ⟨es', d, h, htext', hd, rfl, hvalid⟩

/-- Settings that are read are read without the entries of unknown names. -/
theorem read_apply (h : (Settings.read v).outcome = .ok s) :
    (Settings.read (p.apply v)).outcome = .ok s := by
  obtain ⟨es, hes, hcompiler, hsymexec, hservice⟩ := read_eq_ok.mp h
  have happly : (p.apply v).orElse (.mapping []) = p.apply (.mapping es) := by
    rw [apply, modify, orElse_onEntries rfl, modify, orElse_onEntries rfl, modify, orElse_onEntries rfl,
      hes]
    rfl
  refine read_eq_ok.mpr ⟨_, happly, ?_, ?_, ?_⟩
  · rw [setting_alter_of_ne (by decide), setting_alter_of_ne (by decide), setting_alter rfl]
    exact p.read_compiler hcompiler
  · rw [setting_alter_of_ne (by decide), setting_alter rfl, setting_alter_of_ne (by decide)]
    exact p.read_symexec hsymexec
  · rw [setting_alter rfl, setting_alter_of_ne (by decide), setting_alter_of_ne (by decide)]
    exact p.read_service hservice

/-- Only the entries of known names are kept. -/
def known : Pruning where
  compiler := isNamed (CompilerSettings.detailsName :: CompilerSettings.names)
  details := isNamed OptimizerDetails.names
  symexec := isNamed SymexecSettings.names
  service := isNamed ServiceSettings.names
  keeps_compiler _ h := List.contains_iff_mem.mpr h
  keeps_details _ h := List.contains_iff_mem.mpr h
  keeps_symexec _ h := List.contains_iff_mem.mpr h
  keeps_service _ h := List.contains_iff_mem.mpr h

end Pruning

/-! ## Settings are kept -/

/-- Settings that are read come back as they are from what they are written as, pass the checks, and
do not depend on the entries of unknown names. -/
theorem persists_of_read (h : (read v).outcome = .ok s) :
    read s.toValue = pure s ∧ s.Valid ∧ ∀ p : Pruning, (read (p.apply v)).outcome = .ok s :=
  ⟨read_toValue (valid_of_read h), valid_of_read h, fun p => p.read_apply h⟩

/-- A mapping with an unknown name in a section and one among the optimizer's steps. -/
def overfullValue : Value := .mapping [
  (.text "compiler", .mapping [(.text "optimize_runs", .bool true), (.text "colour", .null),
    (.text "details", .mapping [(.text "yul", .bool true), (.text "colour", .int 1)])]),
  (.text "symexec", .null)]

/-- The settings that are read from the mapping with unknown names. -/
def overfullSettings : Settings where
  compiler := { optimizeRuns := .bool true, details := { yul := .bool true } }

theorem overfullSettings_persist : (read overfullValue).outcome = .ok overfullSettings ∧
    read overfullSettings.toValue = pure overfullSettings ∧ overfullSettings.Valid ∧
      (read (Pruning.known.apply overfullValue)).outcome = .ok overfullSettings := by
  have h : (read overfullValue).outcome = .ok overfullSettings := rfl
  obtain ⟨hback, hvalid, hpruned⟩ := persists_of_read h
  exact ⟨h, hback, hvalid, hpruned .known⟩

end AsmLens.Settings