import AsmLens.Proofs.Gas.Failures
import AsmLens.Proofs.Session.Lane

/-!
# How sessions fail

Whatever the service says, a session raises problems of the program's own, and so do requests to the
service.

* `Session.fails_applyCompile`, `Session.fails_applySymexec` — how applying a result fails
* `Client.fails_readTask` — how handing in a job fails
-/

namespace AsmLens

/-! ## Results -/

namespace Store

theorem fails_runBuild (s : Store) (source : String) (output : Doc) :
    FailsOnly Failure.Own (s.runBuild source output).outcome :=
  .tracedBind (Compilation.failsOnly_runBuild admits_own source output _ (fun _ _ _ _ => trivial)
    (fun _ _ _ _ _ _ _ _ _ _ _ => trivial) fun _ _ _ _ => trivial) fun _ _ =>
    .tracedBind (.ok _) fun _ _ => .ok _

theorem raises_target (s : Store) (contract : String) (generation : Int) :
    Raises (s.target contract generation) := by
  unfold target
  split
  · exact .error nofun
  · split
    · exact .error nofun
    · split
      · exact .error nofun
      · exact .ok _

theorem fails_runMerge (s : Store) (contract : String) (ms : Measurements) (generation : Int) :
    FailsOnly Failure.Own (s.runMerge contract ms generation).outcome :=
  .tracedBind (admits_own.traced (s.raises_target _ _)) fun _ _ =>
    .tracedBind (RegionTable.failsOnly_runMerge admits_own _ _ _ fun _ node _ _ =>
      Syntax.meets_own node) fun _ _ => .ok _

theorem raises_checkSource (s : Store) (source : String) : Raises (s.checkSource source) := by
  unfold checkSource
  dsimp only
  split
  · exact .ok _
  · exact .error nofun

end Store

namespace Session

theorem raises_payload (kind : JobKind) (result : Doc) : Raises (payload kind result) := by
  unfold payload
  split
  · exact .ok _
  · split
    · exact .error nofun
    · exact .ok _

theorem raises_compilerOutput (result : Doc) : Raises (compilerOutput result) := by
  refine (raises_payload .compile result).bind fun d _ => ?_
  split
  · exact .ok _
  · exact .error nofun

theorem fails_applyCompile (s : Session) (result : Doc) (source : Option String) :
    FailsOnly Failure.Own (applyCompile s result source).outcome := by
  refine .tracedBind (admits_own.traced (raises_compilerOutput result)) fun output _ => ?_
  split
  · exact admits_own.raise nofun
  · exact .tracedBind (s.store.fails_runBuild _ _) fun _ _ => .tracedBind (.ok _) fun _ _ => .ok _

theorem fails_applySymexec (s : Session) (result : Doc) (target : Option SymexecTarget) :
    FailsOnly Failure.Own (applySymexec s result target).outcome := by
  refine .tracedBind (admits_own.traced (raises_payload _ result)) fun document _ => ?_
  split
  · exact .error trivial
  · exact .tracedBind (Measurements.failsOnly_runRead admits_own.malformed fun _ _ _ _ _ =>
      GasRecord.meets_own _ _) fun _ _ => .tracedBind (s.store.fails_runMerge _ _ _) fun _ _ => .ok _

theorem raises_plan (s : Session) (contract : String) (source : Option String) :
    Raises (s.plan contract source) := by
  unfold plan
  split
  · exact .error nofun
  · refine (s.store.raises_checkSource _).bind fun _ _ => ?_
    split
    · exact .error nofun
    · exact .ok _

end Session

/-! ## Requests -/

theorem Client.fails_readTask (c : Client) (kind : JobKind) (reply : Reply) :
    FailsOnly Failure.Own (c.readTask kind reply) := by
  have reply : ∀ url, FailsOnly Failure.Own (c.readReply url reply) := by
    intro url
    unfold readReply
    split
    · exact .ok _
    · exact admits_own.raise nofun
    · exact admits_own.raise nofun
    · exact .error trivial
  refine (reply _).bind fun r _ => FailsOnly.bind ?_ fun d _ => (fails_fault _).bind fun v _ => ?_
  · unfold readResponse
    split
    · split
      · exact .ok _
      · exact admits_own.raise nofun
    · split
      · exact admits_own.raise nofun
      · exact .error trivial
  · dsimp only
    split
    · exact admits_own.raise nofun
    · exact .ok _

end AsmLens
