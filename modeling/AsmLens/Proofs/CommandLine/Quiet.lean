import AsmLens.CommandLine.Run
import AsmLens.Proofs.Session.Failures
import AsmLens.Proofs.Settings.Failures

/-!
# Actions that write nothing

Most of what a command does goes by without a word on the standard output: it reads files, leaves
notes, and asks the service. Such actions also leave what the service will reply, and if they fail,
then with a problem of the program's own or a fault.

* `Console.Still` — a console with the same standard output and the same replies to come
* `Action.Quiet` — an action that writes nothing
* `quiet_loadTable`, `quiet_loadSettings`, `quiet_readSource` — loading is quiet
-/

namespace AsmLens.CommandLine

/-- A console after an action that wrote nothing to the standard output and asked for nothing. -/
structure Console.Still (c d : Console) : Prop where
  output : d.output = c.output
  color : d.color = c.color
  replies : d.replies = c.replies
  closing : d.closing = c.closing
  timePasses : d.timePasses = c.timePasses

namespace Console.Still

theorem refl (c : Console) : Still c c := ⟨rfl, rfl, rfl, rfl, rfl⟩

theorem trans {c d e : Console} (h : Still c d) (h' : Still d e) : Still c e :=
  ⟨h'.output.trans h.output, h'.color.trans h.color, h'.replies.trans h.replies,
    h'.closing.trans h.closing, h'.timePasses.trans h.timePasses⟩

theorem tell (c : Console) (notes : List Note) : Still c (c.tell notes) := ⟨rfl, rfl, rfl, rfl, rfl⟩

end Console.Still

/-- A console without files, and without a service. -/
def deserted : Console where
  folder := .empty "/"
  color := false
  errorColor := false
  serviceUrl := none
  replies := []
  closing := .timedOut
  timePasses := true
  time := ""
  log := {}
  output := ""
  errors := ""
  requests := []

/-- An action that writes nothing, and fails only with problems of the program's own. -/
def Action.Quiet {α : Type} (x : Action α) : Prop :=
  ∀ c, c.Still (x c).1 ∧ FailsOnly Failure.Own (x c).2

/-- An action succeeds if both of its parts do. -/
theorem Action.bind_eq_ok {α β : Type} {x : Action α} {f : α → Action β} {c d : Console} {b : β} :
    (x >>= f) c = (d, .ok b) ↔ ∃ e a, x c = (e, .ok a) ∧ f a e = (d, .ok b) := by
  show Action.bind x f c = _ ↔ _
  unfold Action.bind
  cases hx : x c with
  | mk e r =>
    cases r with
    | ok a =>
      refine ⟨fun h => ⟨e, a, rfl, h⟩, ?_⟩
      rintro ⟨e', a', he, h⟩
      obtain ⟨rfl, ha⟩ := Prod.mk.inj he
      exact Except.ok.inj ha ▸ h
    | error f =>
      refine ⟨fun h => (nomatch (Prod.mk.inj h).2), ?_⟩
      rintro ⟨e', a', he, -⟩
      exact nomatch (Prod.mk.inj he).2

theorem Action.bind_of_ok {α β : Type} {x : Action α} {f : α → Action β} {c d : Console} {a : α}
    (hx : x c = (d, .ok a)) : (x >>= f) c = f a d := by
  show Action.bind x f c = f a d
  rw [Action.bind, hx]

theorem Action.bind_of_error {α β : Type} {x : Action α} {f : α → Action β} {c : Console}
    {e : Failure} (hx : (x c).2 = .error e) : ((x >>= f) c).2 = .error e := by
  show (Action.bind x f c).2 = .error e
  rcases hc : x c with ⟨d, r⟩
  rw [hc] at hx
  obtain rfl : r = .error e := hx
  rw [Action.bind, hc]

theorem Action.guarded_of_fault {α : Type} {x : Action α} {json : Bool} {next : α → Action Nat}
    {c : Console} {f : Fault} (hx : (x c).2 = .error (.fault f)) :
    (Action.guarded json x next c).2 = .error (.fault f) := by
  unfold Action.guarded
  rcases hc : x c with ⟨d, r⟩
  rw [hc] at hx
  obtain rfl : r = .error (.fault f) := hx
  rfl

/-- A problem is told, and ends a command. -/
theorem Action.guarded_of_problem {α : Type} {x : Action α} {json : Bool} {next : α → Action Nat}
    {c : Console} {p : Problem} (hx : (x c).2 = .error (.problem p)) :
    (Action.guarded json x next c).2 = .ok Action.problemCode := by
  unfold Action.guarded
  rcases hc : x c with ⟨d, r⟩
  rw [hc] at hx
  obtain rfl : r = .error (.problem p) := hx
  cases json <;> rfl

namespace Action.Quiet

open Console (Still)

variable {α β : Type}

theorem pure (a : α) : Quiet (Pure.pure a : Action α) := fun c => ⟨.refl c, .ok a⟩

theorem bind {x : Action α} {f : α → Action β} (hx : Quiet x) (hf : ∀ a, Quiet (f a)) :
    Quiet (x >>= f) := by
  intro c
  obtain ⟨hstill, hfails⟩ := hx c
  show Still c (Action.bind x f c).1 ∧ FailsOnly _ (Action.bind x f c).2
  unfold Action.bind
  split
  · next d a h =>
    rw [h] at hstill
    obtain ⟨hstill', hfails'⟩ := hf a d
    exact ⟨hstill.trans hstill', hfails'⟩
  · next d e h =>
    rw [h] at hstill hfails
    exact ⟨hstill, .error (hfails e rfl)⟩

theorem look {f : Console → Action β} (hf : ∀ c, Quiet (f c)) : Quiet (Action.look >>= f) :=
  fun c => hf c c

theorem ofResult {r : Result α} (h : FailsOnly Failure.Own r) : Quiet (Action.ofResult r) :=
  fun c => ⟨.refl c, h⟩

theorem fail {p : Problem} (h : p.Own) : Quiet (Action.fail p : Action α) :=
  ofResult (admits_own.raise h)

theorem problem {x : Except Problem α} (h : Raises x) : Quiet (liftM x : Action α) :=
  fun c => ⟨.refl c, admits_own.lift h⟩

theorem fault (x : Except Fault α) : Quiet (liftM x : Action α) :=
  fun c => ⟨.refl c, fails_fault x⟩

theorem traced {x : Traced α} (h : FailsOnly Failure.Own x.outcome) : Quiet (liftM x : Action α) :=
  fun c => ⟨.tell c x.notes, h⟩

theorem note (level : LogLevel) (message : String) : Quiet (Action.note level message) :=
  fun c => ⟨.tell c _, .ok ()⟩

theorem changeFolder {f : Folder → Traced (Folder × α)}
    (h : ∀ folder, FailsOnly Failure.Own (f folder).outcome) : Quiet (Action.changeFolder f) := by
  intro c
  unfold Action.changeFolder
  dsimp only
  split
  · exact ⟨⟨rfl, rfl, rfl, rfl, rfl⟩, .ok _⟩
  · next e he => exact ⟨.tell c _, .error (h c.folder e he)⟩

end Action.Quiet

open CommandLine.Action (Quiet)

/-! ## Files -/

theorem quiet_readSource (path : String) : Quiet (Action.readSource path) := by
  refine .look fun c => ?_
  split
  · exact .fail nofun
  · exact .fault _

theorem quiet_readDocument (path : String) : Quiet (Action.readDocument path) := by
  refine .look fun c => ?_
  split
  · exact .fail nofun
  · refine .bind (.fault _) fun text => ?_
    split
    · exact .pure _
    · split
      · exact .ofResult (.error trivial)
      · exact .fail nofun

theorem quiet_loadCompilation (source compiled : String) : Quiet (loadCompilation source compiled) :=
  .bind (quiet_readSource source) fun _ => .bind (quiet_readDocument compiled) fun _ =>
    .bind (.note _ _) fun _ => .traced (Compilation.failsOnly_runBuild admits_own _ _ _
      (fun _ _ _ _ => trivial) (fun _ _ _ _ _ _ _ _ _ _ _ => trivial) fun _ _ _ _ => trivial)

theorem quiet_attachMeasurements (c : Compilation) (t : RegionTable) (path : String) :
    Quiet (attachMeasurements c t path) :=
  .bind (quiet_readDocument path) fun _ => .bind (.traced
    (Measurements.failsOnly_runRead admits_own.malformed fun _ _ _ _ _ =>
      GasRecord.meets_own _ _)) fun _ => .bind (.traced
    (RegionTable.failsOnly_runMerge admits_own _ _ _ fun _ node _ _ => Syntax.meets_own node)) fun _ =>
    .pure _

theorem quiet_loadTable (source compiled : String) (contract symexec : Option String) :
    Quiet (loadTable source compiled contract symexec) := by
  refine .bind (quiet_loadCompilation source compiled) fun c =>
    .bind (.problem (c.raises_choose contract)) fun t => ?_
  split
  · exact quiet_attachMeasurements c t _
  · exact .pure _

/-! ## Settings -/

theorem quiet_loadSettings (o : CompileOptions) : Quiet (loadSettings o) :=
  .look fun _ => .bind (.traced ((Settings.configured_load _ _ _ _).mono Failure.Configured.own))
    fun _ => .pure _

theorem quiet_saveSettings {o : CompileOptions} (hj : o.json = true) (s : Settings) :
    Quiet (saveSettings o s) := by
  refine .bind (.changeFolder fun folder =>
    (s.configured_save folder none).mono Failure.Configured.own) fun path => ?_
  rw [hj]
  exact .pure _

theorem quiet_prepare {o : CompileOptions} (hj : o.json = true) : Quiet (prepare o) := by
  refine .bind (quiet_loadSettings o) fun settings => ?_
  have rest : Quiet (do
      let source ← Action.readSource o.source
      return (source, ← Session.new settings) : Action (String × Session)) :=
    .bind (quiet_readSource _) fun _ => .bind (.fault _) fun _ => .pure _
  dsimp only
  split
  · exact .bind (quiet_saveSettings hj settings) fun _ => rest
  · exact rest

/-! ## Logging -/

theorem quiet_openLog (log : LogSetup) : Quiet (openLog log) := by
  refine .bind (fun c => ⟨⟨rfl, rfl, rfl, rfl, rfl⟩, .ok ()⟩) fun _ => ?_
  split
  · exact .pure _
  · refine .look fun c => ?_
    dsimp only
    split
    · exact .ofResult (.error trivial)
    · exact fun c => ⟨⟨rfl, rfl, rfl, rfl, rfl⟩, .ok ()⟩

end AsmLens.CommandLine
