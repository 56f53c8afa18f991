import AsmLens.Proofs.Problem
import AsmLens.Settings.File

/-!
# How settings fail

Whatever is in a settings file, the settings raise problems of the program's own, and all of these are
reports on settings.

* `Failure.Configured` — a failure that, if it is a problem, is such a report
* `Settings.configured_load`, `Settings.configured_save` — how settings files fail
-/

namespace AsmLens

/-- A failure that, if it is a problem, is a report of the program's own on settings. -/
def Failure.Configured : Failure → Prop
  | .problem p => p.Own ∧ p.report.kind = .settings
  | .fault _ => True

theorem Failure.Configured.own : ∀ e, Failure.Configured e → Failure.Own e
  | .problem _, h => h.1
  | .fault _, _ => trivial

theorem configured_raise {α : Type} {p : Problem} (h : p.Own) (hk : p.report.kind = .settings) :
    FailsOnly Failure.Configured (Failure.raise p : Result α) :=
  .raise ⟨h, hk⟩

theorem configured_fault {α : Type} (x : Except Fault α) :
    FailsOnly Failure.Configured (liftM x : Result α) :=
  .liftFault fun _ _ => trivial

theorem configured_tracedFault {α : Type} (x : Except Fault α) :
    FailsOnly Failure.Configured (liftM x : Traced α).outcome :=
  .tracedFault fun _ _ => trivial

/-! ## Checks -/

theorem Settings.configured_refuse (v : Yaml.Value) {problem : String → Problem}
    (h : ∀ shown, (problem shown).Own) (hk : ∀ shown, (problem shown).report.kind = .settings) :
    FailsOnly Failure.Configured (refuse v problem) := by
  unfold refuse
  split
  · exact configured_raise (h _) (hk _)
  · exact .error trivial

theorem CompilerSettings.configured_check (s : CompilerSettings) :
    FailsOnly Failure.Configured s.check := by
  unfold check
  split
  · exact .ok _
  · split
    · exact .ok _
    · exact Settings.configured_refuse _ (fun _ => nofun) fun _ => rfl
  · exact Settings.configured_refuse _ (fun _ => nofun) fun _ => rfl

theorem SymexecSettings.configured_check (s : SymexecSettings) :
    FailsOnly Failure.Configured s.check := by
  have strategy : FailsOnly Failure.Configured s.checkStrategy := by
    unfold checkStrategy
    split
    · exact .ok _
    · exact Settings.configured_refuse _ (fun _ => nofun) fun _ => rfl
  have limits : FailsOnly Failure.Configured s.checkLimits := by
    unfold checkLimits
    split
    · exact Settings.configured_refuse _ (fun _ => nofun) fun _ => rfl
    · exact .ok _
  have address : FailsOnly Failure.Configured s.checkAddress := by
    unfold checkAddress
    split
    · exact configured_raise nofun rfl
    · exact .ok _
  exact strategy.bind fun _ _ => limits.bind fun _ _ => address

/-! ## Sections -/

theorem Settings.configured_knownEntries (label : String) (names : List String) (v : Yaml.Value) :
    FailsOnly Failure.Configured (knownEntries label names v).outcome := by
  refine .tracedBind (configured_tracedFault _) fun _ _ =>
    .tracedBind (configured_tracedFault _) fun _ _ => .tracedBind (.ok _) fun _ _ => ?_
  split
  · exact .ok _
  · exact .error trivial

theorem OptimizerDetails.configured_read (v : Yaml.Value) :
    FailsOnly Failure.Configured (OptimizerDetails.read v).outcome :=
  .tracedBind (Settings.configured_knownEntries _ _ _) fun _ _ => .ok _

theorem CompilerSettings.configured_read (v : Yaml.Value) :
    FailsOnly Failure.Configured (CompilerSettings.read v).outcome :=
  .tracedBind (configured_tracedFault _) fun _ _ =>
    .tracedBind (Settings.configured_knownEntries _ _ _) fun _ _ =>
    .tracedBind (OptimizerDetails.configured_read _) fun _ _ =>
    .tracedBind (configured_check _) fun _ _ => .ok _

theorem SymexecSettings.configured_read (v : Yaml.Value) :
    FailsOnly Failure.Configured (SymexecSettings.read v).outcome :=
  .tracedBind (configured_tracedFault _) fun _ _ =>
    .tracedBind (Settings.configured_knownEntries _ _ _) fun _ _ =>
    .tracedBind (configured_check _) fun _ _ => .ok _

theorem ServiceSettings.configured_read (v : Yaml.Value) :
    FailsOnly Failure.Configured (ServiceSettings.read v).outcome :=
  .tracedBind (configured_tracedFault _) fun _ _ =>
    .tracedBind (Settings.configured_knownEntries _ _ _) fun _ _ => .ok _

/-! ## Files -/

namespace Settings

theorem configured_read (v : Yaml.Value) : FailsOnly Failure.Configured (Settings.read v).outcome :=
  .tracedBind (configured_tracedFault _) fun _ _ =>
    .tracedBind (CompilerSettings.configured_read _) fun _ _ =>
    .tracedBind (configured_tracedFault _) fun _ _ =>
    .tracedBind (SymexecSettings.configured_read _) fun _ _ =>
    .tracedBind (configured_tracedFault _) fun _ _ =>
    .tracedBind (ServiceSettings.configured_read _) fun _ _ => .ok _

theorem configured_readFrom (path : String) (v : Yaml.Value) :
    FailsOnly Failure.Configured (readFrom path v).outcome := by
  unfold readFrom
  split
  · dsimp only
    split
    · split
      · exact configured_raise nofun rfl
      · exact configured_read _
    · exact configured_read _
  · exact configured_raise nofun rfl

theorem configured_fileValue (parser : Yaml.Parser) (folder : Folder) (path : String) :
    FailsOnly Failure.Configured (fileValue parser folder path) := by
  unfold fileValue
  split
  · exact configured_raise nofun rfl
  · refine (configured_fault _).bind fun text _ => ?_
    split
    · exact .ok _
    · exact configured_raise nofun rfl
    · exact .error trivial

theorem configured_load (folder : Folder) (chosen url : Option String) (parser : Yaml.Parser) :
    FailsOnly Failure.Configured (load folder chosen url parser).outcome := by
  unfold load
  dsimp only
  split
  · exact .tracedBind (configured_fileValue _ _ _) fun _ _ =>
      .tracedBind (configured_readFrom _ _) fun _ _ => .tracedBind (.ok _) fun _ _ => .ok _
  · exact .error trivial
  · split
    · exact configured_raise nofun rfl
    · exact .ok _

theorem configured_save (s : Settings) (folder : Folder) (chosen : Option String) :
    FailsOnly Failure.Configured (s.save folder chosen).outcome := by
  unfold save
  dsimp only
  split
  · exact configured_raise nofun rfl
  · exact .tracedBind (.ok _) fun _ _ => .ok _

end Settings

end AsmLens
