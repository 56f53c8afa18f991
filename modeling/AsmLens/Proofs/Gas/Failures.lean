import AsmLens.Gas.Merge
import AsmLens.Proofs.Compilation.Failures
import AsmLens.Proofs.Gas.Reading

/-!
# How measurements fail

Reading measurements and attaching them raises problems of the program's own, whatever the documents
are. Faults come from numbers that are too large to be counted or divided, and from the nodes of a
syntax tree that define functions.

* `Measurements.failsOnly_runRead` — how reading measurements fails
* `failsOnly_functionIndex` — how naming the functions of a tree fails
* `RegionTable.failsOnly_runMerge` — how attaching measurements fails
-/

namespace AsmLens

variable {Q : Failure → Prop} (hQ : Admits Q)

/-! ## Measuring -/

section Measuring

variable (hM : AdmitsMalformed Q)

namespace GasRecord

theorem rejects_optionalNumber (item : Doc) (name path : String) :
    Rejects (optionalNumber item name path) := by
  unfold optionalNumber
  split
  · exact .ok none
  · exact (Doc.rejects_requireNumber _ _ _).map

theorem rejects_firstNumber (item : Doc) (path : String) (names : List String) :
    Rejects (firstNumber item path names) := by
  induction names with
  | nil => exact .ok none
  | cons name names ih =>
    unfold firstNumber
    split
    · exact ih
    · exact (Doc.rejects_requireNumber _ _ _).map

theorem rejects_readLoop (path counter : String) (estimate : Doc) :
    Rejects (readLoop path counter estimate) := by
  unfold readLoop
  dsimp only
  split
  · exact .error ⟨nofun, .head _⟩
  · split
    · exact (Doc.rejects_requireNumber _ _ _).bind fun _ _ => .ok _
    · exact .error ⟨nofun, .head _⟩

theorem rejects_readLoops (raw : Doc) (path : String) : Rejects (readLoops raw path) := by
  unfold readLoops
  split
  · exact .ok ∅
  · exact (FailsOnly.mapM fun _ _ => rejects_readLoop _ _ _).bind fun _ _ => .ok _
  · exact .error ⟨nofun, .head _⟩

theorem rejects_readIssues (item : Doc) (path : String) (names : List String) :
    Rejects (readIssues item path names) := by
  induction names with
  | nil => exact .ok []
  | cons name names ih =>
    unfold readIssues
    dsimp only
    split
    · exact ih
    · split
      · exact .ok _
      · exact .error ⟨nofun, .head _⟩

/-- That the faults a measurement may meet have a property: its samples, and its mean. -/
structure Meets (Q : Failure → Prop) (item : Doc) (path : String) : Prop where
  samples : ∀ n f, firstNumber item path ["numSamples", "numTx"] = .ok (some n) →
    n.truncate = .error f → Q (.fault f)
  sum : ∀ a b c f, item.requireNumber "maxOpcodeGas" path = .ok a →
    item.requireNumber "maxStorageGas" path = .ok b → item.requireNumber "memGas" path = .ok c →
    sum3 a b c = .error f → Q (.fault f)
  mean : ∀ n k a b c t f, firstNumber item path ["numSamples", "numTx"] = .ok (some n) →
    n.truncate = .ok k → 0 < k → item.requireNumber "maxOpcodeGas" path = .ok a →
    item.requireNumber "maxStorageGas" path = .ok b → item.requireNumber "memGas" path = .ok c →
    sum3 a b c = .ok t → t.div (.int k) = .error f → Q (.fault f)

theorem meets_own (item : Doc) (path : String) : Meets Failure.Own item path :=
  ⟨fun _ _ _ _ => trivial, fun _ _ _ _ _ _ _ _ => trivial,
    fun _ _ _ _ _ _ _ _ _ _ _ _ _ _ _ => trivial⟩

include hM in
theorem failsOnly_readSamples {item : Doc} {path : String} (h : Meets Q item path) :
    FailsOnly Q (readSamples item path) := by
  refine (hM.lift (rejects_firstNumber _ _ _)).bind fun n hn => ?_
  split
  · next n => exact .liftFault fun f hf => h.samples n f (FailsOnly.liftProblem_eq_ok.mp hn) hf
  · exact hM.raise (Problem.malformed_missingField _)

include hM in
theorem failsOnly_read {item : Doc} {path : String} (h : Meets Q item path) :
    FailsOnly Q (GasRecord.read item path) := by
  cases item with
  | object ms =>
    have number : ∀ name,
        FailsOnly Q (liftM ((Doc.object ms).requireNumber name path) : Result Number) :=
      fun name => hM.lift (Doc.rejects_requireNumber _ name path)
    rw [read_object]
    refine (failsOnly_readSamples hM h).bind fun samples hs => (number _).bind fun _ _ =>
      (number _).bind fun maxOpcode ho => (number _).bind fun _ _ =>
      (number _).bind fun maxStorage ht => (number _).bind fun memory hm =>
      (hM.lift (rejects_firstNumber _ _ _)).bind fun given _ =>
      (FailsOnly.liftFault ?_).bind fun _ _ =>
      (hM.lift (rejects_optionalNumber _ _ _)).bind fun _ _ =>
      (hM.lift (rejects_optionalNumber _ _ _)).bind fun _ _ =>
      (hM.lift (rejects_readLoops _ _)).bind fun _ _ =>
      (hM.lift (rejects_readIssues _ _ _)).bind fun _ _ => .ok _
    -- only a mean that has to be computed can be a fault
    cases given with
    | some w => exact .ok _
    | none =>
      by_cases hpos : 0 < samples
      · rw [computedWorst, if_pos hpos]
        obtain ⟨n, hn, hk⟩ := readSamples_eq_ok.mp hs
        have hn : firstNumber (.object ms) path ["numSamples", "numTx"] = .ok (some n) :=
          firstNumber_eq_ok.mpr hn
        have ho := FailsOnly.liftProblem_eq_ok.mp ho
        have ht := FailsOnly.liftProblem_eq_ok.mp ht
        have hm := FailsOnly.liftProblem_eq_ok.mp hm
        refine FailsOnly.bind (fun f hf => h.sum _ _ _ f ho ht hm hf) fun total hsum =>
          FailsOnly.bind (fun f hf => ?_) fun _ _ => .ok _
        exact h.mean n samples _ _ _ total f hn hk hpos ho ht hm hsum hf
      · rw [computedWorst, if_neg hpos]
        exact .ok none
  | _ => exact hM.raise ⟨by rintro _ ⟨⟩, .head _⟩

end GasRecord

namespace Measurements

include hM in
theorem failsOnly_readPhase {document : Doc} {phase : Phase}
    (h : ∀ ms, document.field? phase.name = some (.object ms) → ∀ m ∈ ms,
      GasRecord.Meets Q m.2 (phase.name ++ "." ++ m.1)) :
    FailsOnly Q (readPhase document phase) := by
  unfold readPhase
  split
  · exact hM.raise (Problem.malformed_missingField _)
  · next ms hms =>
    refine .mapM fun m hm => (hM.lift (SourceRange.rejects_ofKey m.1)).bind fun _ _ => ?_
    exact (GasRecord.failsOnly_read hM (h ms hms m hm)).bind fun _ _ => .ok _
  · exact hM.raise ⟨nofun, .head _⟩

include hM in
theorem failsOnly_read {document : Doc}
    (h : ∀ phase ms, document.field? (Phase.name phase) = some (.object ms) → ∀ m ∈ ms,
      GasRecord.Meets Q m.2 (phase.name ++ "." ++ m.1)) :
    FailsOnly Q (Measurements.read document) := by
  unfold Measurements.read
  split
  · exact (failsOnly_readPhase hM (h .creation)).bind fun _ _ =>
      (failsOnly_readPhase hM (h .runtime)).bind fun _ _ => .ok _
  · exact hM.raise ⟨nofun, .head _⟩

include hM in
/-- Reading measurements is a fault only if one of them is. -/
theorem failsOnly_runRead {document : Doc}
    (h : ∀ phase ms, document.field? (Phase.name phase) = some (.object ms) → ∀ m ∈ ms,
      GasRecord.Meets Q m.2 (phase.name ++ "." ++ m.1)) :
    FailsOnly Q (runRead document).outcome :=
  .tracedBind (failsOnly_read hM h) fun _ _ => .tracedBind (.ok _) fun _ _ => .ok _

end Measurements

end Measuring

/-! ## Naming functions -/

theorem raises_readSelectors (ids : Doc) : Raises (readSelectors ids) := by
  unfold readSelectors
  split
  · exact .ok []
  · refine .mapM fun m _ => ?_
    split
    · exact .ok _
    · exact .error nofun
  · exact .error nofun

/-- The parameters of a node that defines a function. -/
def Syntax.parametersOf (node : Doc) : Except Fault Doc :=
  match (node.get "parameters").orElse (.object []) with
  | .object ms => .ok ((Doc.lookup "parameters" ms).getD (.list []))
  | d => .error (.noAttribute d.shape "get")

theorem Syntax.readFunction_eq (node : Doc) :
    readFunction node = do
      let parameters ← parametersOf node
      let range ← rangeOf node
      let types ← canonicalTypes parameters
      let kind := (node.member? "kind").getD (.text "function")
      return ⟨(node.get "name").orElse kind, kind, (node.member? "visibility").getD (.text ""),
        range, types⟩ := by
  unfold readFunction parametersOf
  cases (node.get "parameters").orElse (.object []) <;> rfl

/-- That the faults which reading a function may meet have a property. -/
structure Syntax.Meets (Q : Failure → Prop) (node : Doc) : Prop where
  parameters : ∀ f, parametersOf node = .error f → Q (.fault f)
  types : ∀ ps f, parametersOf node = .ok ps → canonicalTypes ps = .error f → Q (.fault f)
  label : ∀ g selectors f, readFunction node = .ok g → labelEntry selectors g = .error f →
    Q (.fault f)

theorem Syntax.meets_own (node : Doc) : Syntax.Meets Failure.Own node :=
  ⟨fun _ _ => trivial, fun _ _ _ _ => trivial, fun _ _ _ _ _ => trivial⟩

include hQ in
theorem Syntax.failsOnly_readFunction {node : Doc} (h : Syntax.Meets Q node) :
    FailsOnly Q (Syntax.readFunction node) := by
  rw [readFunction_eq]
  refine (FailsOnly.liftFault h.parameters).bind fun ps hps =>
    (hQ.lift (raises_rangeOf node)).bind fun _ _ =>
    (FailsOnly.liftFault fun f hf => ?_).bind fun _ _ => .ok _
  exact h.types ps f (FailsOnly.liftFault_eq_ok.mp hps) hf

/-- A function that a tree has was read from a node that defines one. -/
theorem Syntax.exists_node_of_functions {tree : Doc} {fs : List Syntax.Function}
    (h : functions tree = .ok fs) {g : Syntax.Function} (hg : g ∈ fs) :
    ∃ node ∈ walk tree, hasType node "FunctionDefinition" ∧ readFunction node = .ok g := by
  obtain ⟨node, hnode, hread⟩ := FailsOnly.mem_of_mapM h hg
  obtain ⟨hmem, htype⟩ := List.mem_filter.mp hnode
  exact ⟨node, hmem, htype, hread⟩

include hQ in
/-- Naming the functions of a tree is a fault only if reading one of them is. -/
theorem failsOnly_functionIndex {tree : Doc} (ids : Doc)
    (h : tree.isBlank = false → ∀ node ∈ Syntax.walk tree,
      Syntax.hasType node "FunctionDefinition" → Syntax.Meets Q node) :
    FailsOnly Q (functionIndex tree ids) := by
  unfold functionIndex
  split
  · exact .ok _
  · next hb =>
    have h := h (Bool.eq_false_iff.mpr hb)
    refine (hQ.lift (raises_readSelectors ids)).bind fun selectors _ => FailsOnly.bind ?_ fun fs hfs =>
      FailsOnly.bind (FailsOnly.liftFault fun f hf => ?_) fun _ _ => .ok _
    · refine .mapM fun node hnode => ?_
      obtain ⟨hmem, htype⟩ := List.mem_filter.mp hnode
      exact Syntax.failsOnly_readFunction hQ (h node hmem htype)
    · have hlabel : FailsOnly (fun f => Q (.fault f)) (fs.mapM (labelEntry selectors)) := by
        refine .mapM fun g hg f hf => ?_
        obtain ⟨node, hmem, htype, hread⟩ := Syntax.exists_node_of_functions hfs hg
        exact (h node hmem htype).label g selectors f hread hf
      exact hlabel f hf

include hQ in
/-- So is attaching measurements. -/
theorem RegionTable.failsOnly_runMerge (t : RegionTable) (ms : Measurements) {tree : Doc} (ids : Doc)
    (h : tree.isBlank = false → ∀ node ∈ Syntax.walk tree,
      Syntax.hasType node "FunctionDefinition" → Syntax.Meets Q node) :
    FailsOnly Q (t.runMerge ms tree ids).outcome := by
  refine .tracedBind ?_ fun _ _ => .tracedBind (.ok _) fun _ _ => .ok _
  show FailsOnly Q (t.merge ms tree ids)
  unfold RegionTable.merge
  dsimp only
  split
  · exact FailsOnly.bind (hQ.raise nofun) fun _ h => (nomatch h)
  · exact (failsOnly_functionIndex hQ ids h).bind fun _ _ => .ok _

end AsmLens
