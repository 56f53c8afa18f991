import AsmLens.Compilation
import AsmLens.Proofs.Problem

/-!
# How compiling fails

Reading a compiler output raises problems of the program's own, whatever the output is. It meets a
fault in three places, where the output has something else in place of an object.

* `Compilation.failsOnly_runBuild` — how compiling fails
* `Compilation.raises_choose` — how choosing a table fails
-/

namespace AsmLens

variable {Q : Failure → Prop} (hQ : Admits Q)

/-! ## Documents -/

namespace Doc

theorem membersFor_eq_ok {operation : String} {d : Doc} {ms : List (String × Doc)} :
    d.membersFor operation = .ok ms ↔ d = .object ms := by
  cases d with
  | object xs => exact ⟨fun h => congrArg object (Except.ok.inj h), fun h => by cases h; rfl⟩
  | _ => exact ⟨fun h => (nomatch h), fun h => (nomatch h)⟩

theorem rejects_requireFrom (walked : List String) (d : Doc) (path : List Doc) :
    Rejects (requireFrom walked d path) := by
  induction path generalizing walked d with
  | nil => exact .ok d
  | cons step path ih =>
    unfold requireFrom
    dsimp only
    split
    · exact ih _ _
    · exact .error (Problem.malformed_missingField _)

theorem rejects_requireAt (d : Doc) (names : List String) (base : String) :
    Rejects (d.requireAt names base) :=
  rejects_requireFrom _ _ _

theorem rejects_requireNumber (d : Doc) (name base : String) :
    Rejects (d.requireNumber name base) := by
  refine (rejects_requireAt d [name] base).bind fun v _ => ?_
  split
  · exact .ok _
  · exact .error ⟨nofun, .head _⟩

end Doc

/-! ## Compiling -/

namespace SourceRange

theorem rejects_ofKey (key : String) : Rejects (ofKey key) := by
  unfold ofKey
  split
  · split
    · exact .ok _
    · exact .error ⟨nofun, .head _⟩
  · exact .error ⟨nofun, .head _⟩

theorem raises_ofSrc (value : Doc) (path : String) : Raises (ofSrc value path) := by
  unfold ofSrc
  split
  · split
    · split
      · exact .ok _
      · exact .error nofun
    · exact .error nofun
  · exact .error nofun

end SourceRange

namespace Syntax

theorem raises_rangeOf (node : Doc) : Raises (rangeOf node) := by
  unfold rangeOf
  dsimp only
  split
  · exact .error nofun
  · exact SourceRange.raises_ofSrc _ _

theorem raises_findContract (tree : Doc) (name : Option String) :
    Raises (findContract tree name) := by
  unfold findContract
  split
  · exact (raises_rangeOf _).map
  · exact .ok none

end Syntax

theorem Instruction.raises_readInteger (d : Doc) (name base : String) :
    Raises (readInteger d name base) := by
  unfold readInteger
  split
  · exact .ok _
  · exact .ok _
  · exact .error nofun

theorem Instruction.raises_read (d : Doc) (path : String) : Raises (Instruction.read d path) := by
  unfold Instruction.read
  dsimp only
  split
  · exact .error nofun
  · split
    · exact (raises_readInteger _ _ _).bind fun _ _ => (raises_readInteger _ _ _).bind fun _ _ =>
        (raises_readInteger _ _ _).bind fun _ _ => .ok _
    · exact .error nofun

namespace Assembly

theorem raises_firstField (d : Doc) (names : List String) (path : String) :
    Raises (firstField d names path) := by
  unfold firstField
  split
  · exact .ok _
  · exact .error nofun

theorem raises_readFrom (path : String) (i : Nat) (ds : List Doc) :
    Raises (readFrom path i ds) := by
  induction ds generalizing i with
  | nil => exact .ok []
  | cons d ds ih =>
    exact (Instruction.raises_read d _).bind fun _ _ => (ih (i + 1)).bind fun _ _ => .ok _

theorem raises_readCode (raw : Doc) (path : String) : Raises (readCode raw path) := by
  unfold readCode
  split
  · exact raises_readFrom _ _ _
  · exact .error nofun

theorem raises_read (d : Doc) (path : String) : Raises (Assembly.read d path) := by
  refine (raises_firstField _ _ _).bind fun code _ => (raises_readCode code _).bind fun _ _ =>
    (raises_firstField _ _ _).bind fun data _ => ?_
  dsimp only
  split
  · exact .error nofun
  · exact (raises_firstField _ _ _).bind fun _ _ => (raises_readCode _ _).bind fun _ _ => .ok _

end Assembly

theorem LineIndex.raises_cursor (ix : LineIndex) (offset : Int) : Raises (ix.cursor offset) := by
  unfold LineIndex.cursor
  split
  · exact .error nofun
  · exact .ok _

theorem LineIndex.raises_position (ix : LineIndex) (r : SourceRange) : Raises (ix.position r) :=
  (ix.raises_cursor r.first).bind fun _ _ => (ix.raises_cursor r.last).bind fun _ _ => .ok _

namespace Builder

theorem own_of_fate {b : Builder} {i : Instruction} {p : Problem}
    (h : (b.fate i).problem? = some p) : p.Own := by
  unfold fate at h
  split at h
  · exact nomatch h
  · split at h
    · exact nomatch h
    · split at h
      · exact nomatch h
      · next e he =>
        obtain rfl := Option.some.inj h
        exact b.index.raises_position _ _ he

theorem own_of_addAll {b : Builder} {is : List Instruction} {p : Problem}
    (h : (b.addAll is).2 = some p) : p.Own := by
  induction is generalizing b with
  | nil => exact nomatch h
  | cons i is ih =>
    unfold addAll at h
    split at h
    · next q hq =>
      obtain rfl := Option.some.inj h
      exact own_of_fate hq
    · exact ih h

include hQ in
theorem failsOnly_runSection (b : Builder) (s : Section) (is : List Instruction) :
    FailsOnly Q (b.runSection s is).outcome := by
  refine .tracedBind (.ok _) fun _ _ => ?_
  split
  · exact .tracedBind (.ok _) fun _ _ => .ok _
  · next p h => exact hQ.raise (own_of_addAll (congrArg Prod.snd h))

end Builder

include hQ in
theorem Assembly.failsOnly_tabulate (a : Assembly) (b : Builder) :
    FailsOnly Q (a.tabulate b).outcome :=
  .tracedBind (b.failsOnly_runSection hQ _ _) fun c _ =>
    .tracedBind (c.failsOnly_runSection hQ _ _) fun _ _ => .tracedBind (.ok _) fun _ _ => .ok _

namespace Compilation

theorem raises_declarationRange (tree : Doc) (name : String) :
    Raises (declarationRange tree name) := by
  refine (Syntax.raises_findContract _ _).bind fun r _ => ?_
  split
  · exact .ok _
  · exact Syntax.raises_findContract _ _

include hQ in
/-- Adding a contract is a fault only if what the compiler says about it has no members. -/
theorem failsOnly_addContract (index : LineIndex) (sources : Doc) (generation : Int)
    (file : String) (p : Progress) (contract : String × Doc)
    (hevm : ∀ evm f, contract.2.field? "evm" = some evm →
      evm.getMember "legacyAssembly" = .error f → Q (.fault f)) :
    FailsOnly Q (addContract index sources generation file p contract).outcome := by
  obtain ⟨name, output⟩ := contract
  refine .tracedBind (hQ.traced (Doc.rejects_requireAt _ _ _).raises) fun evm he =>
    .tracedBind (.tracedFault fun f hf => ?_) fun assembly _ => ?_
  · exact hevm evm f (Doc.requireAt_eq_ok.mp (Traced.outcome_lift_eq_ok.mp he)) hf
  · split
    · exact .tracedBind (.ok _) fun _ _ => .ok _
    · exact .tracedBind (hQ.traced (Doc.rejects_requireAt _ _ _).raises) fun _ _ =>
        .tracedBind (hQ.traced (raises_declarationRange _ _)) fun _ _ =>
        .tracedBind (.ok _) fun _ _ =>
        .tracedBind (hQ.traced (Assembly.raises_read _ _)) fun assembly _ =>
        .tracedBind (assembly.failsOnly_tabulate hQ _) fun _ _ => .ok _

include hQ in
/-- Compiling is a fault only if the output has something else in place of an object. -/
theorem failsOnly_runBuild (source : String) (output : Doc) (generation : Int)
    (hcontracts : ∀ d f, output.field? "contracts" = some d →
      d.membersFor "items" = .error f → Q (.fault f))
    (hevm : ∀ files file members contract, output.field? "contracts" = some (.object files) →
      (file, .object members) ∈ files → contract ∈ members → ∀ evm f,
        contract.2.field? "evm" = some evm → evm.getMember "legacyAssembly" = .error f → Q (.fault f))
    (hsources : ∀ d f, output.field? "sources" = some d →
      d.membersFor "values" = .error f → Q (.fault f)) :
    FailsOnly Q (runBuild source output generation).outcome := by
  refine .tracedBind (hQ.traced (Doc.rejects_requireAt _ _ _).raises) fun contracts hc =>
    .tracedBind (hQ.traced (Doc.rejects_requireAt _ _ _).raises) fun sources hs =>
    .tracedBind (.tracedFault fun f hf => ?_) fun files hfiles =>
    .tracedBind (.tracedFoldlM (fun file hfile p => ?_) _) fun _ _ => .tracedBind (.ok _) fun _ _ =>
    .tracedBind (.tracedFault fun f hf => ?_) fun _ _ => .ok _
  · exact hcontracts contracts f (Doc.requireAt_eq_ok.mp (Traced.outcome_lift_eq_ok.mp hc)) hf
  · unfold addFile
    split
    · next members hm =>
      refine .tracedFoldlM (fun c hmem p => failsOnly_addContract hQ _ _ _ _ p c ?_) p
      have hobject : contracts = .object files :=
        Doc.membersFor_eq_ok.mp (Traced.outcome_liftFault_eq_ok.mp hfiles)
      have hfield := Doc.requireAt_eq_ok.mp (Traced.outcome_lift_eq_ok.mp hc)
      rw [hobject] at hfield
      exact hevm files file.1 members c hfield (hm ▸ hfile) hmem
    · exact hQ.raise nofun
  · exact hsources sources f (Doc.requireAt_eq_ok.mp (Traced.outcome_lift_eq_ok.mp hs)) hf

theorem raises_choose (c : Compilation) (contract : Option String) : Raises (c.choose contract) := by
  unfold choose
  split <;> split
  · exact .ok _
  · exact .error nofun
  · exact .ok _
  · exact .error nofun

end Compilation

end AsmLens
