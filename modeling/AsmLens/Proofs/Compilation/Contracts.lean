import AsmLens.Proofs.Compilation
import AsmLens.Proofs.Syntax.Declaration
import Mathlib.Data.List.Dedup

/-!
# Which contracts get a table

A compiler output lists contracts by file, and a compilation has tables by bare names. Contracts
with assembly put their tables in one after another, so of the contracts with one name only the
last keeps its table.

* `Compilation.assembled` — the contracts of an output that have assembly
* `Assembled.tabulate` — the table of one of them by itself
* `Compilation.Puts` — contracts that put their tables into a ledger
* `Compilation.tables_of_names` — which of these tables a compilation has
-/

namespace AsmLens

namespace Compilation

/-- A contract with its assembly, and the file that it is in. -/
structure Assembled where
  file : String
  name : String
  assembly : Doc

/-- The assembly of a contract, if it has any. -/
def assemblyOf? (contract : Doc) : Option Doc :=
  (contract.field? "evm").bind fun evm =>
    if (evm.get "legacyAssembly").isBlank then none else some (evm.get "legacyAssembly")

/-- A contract of a file, if it has assembly. -/
def assembledAs? (file : String) (contract : String × Doc) : Option Assembled :=
  (assemblyOf? contract.2).map fun d => ⟨file, contract.1, d⟩

/-- The contracts of a file that have assembly. -/
def assembledIn (file : String × Doc) : List Assembled :=
  match file.2 with
  | .object ms => ms.filterMap (assembledAs? file.1)
  | _ => []

/-- The contracts of a compiler output that have assembly, file by file. -/
def assembled (output : Doc) : List Assembled :=
  match output.get "contracts" with
  | .object files => files.flatMap assembledIn
  | _ => []

variable {source : String} {sources : Doc} {generation : Int}

/-- The range that is left out for a contract. -/
def Assembled.excluded (sources : Doc) (p : Assembled) : Except Problem (Option SourceRange) := do
  declarationRange (← sources.requireAt [p.file, "ast"] "sources") p.name

/-- The instructions of a contract. -/
def Assembled.read (p : Assembled) : Except Problem Assembly :=
  Assembly.read p.assembly ("contracts." ++ p.file ++ "." ++ p.name ++ ".evm.legacyAssembly")

/-- The table of a contract by itself. -/
def Assembled.tabulate (source : String) (sources : Doc) (generation : Int) (p : Assembled) :
    Result RegionTable := do
  let excluded ← p.excluded sources
  let a ← p.read
  (a.tabulate (Builder.new (.ofText source) p.name excluded generation)).outcome

theorem Assembled.tabulate_eq_ok {p : Assembled} {t : RegionTable} :
    p.tabulate source sources generation = .ok t ↔ ∃ excluded a, p.excluded sources = .ok excluded ∧
      p.read = .ok a ∧
      (a.tabulate (Builder.new (.ofText source) p.name excluded generation)).outcome = .ok t := by
  unfold tabulate
  cases p.excluded sources with
  | error e => simp [bind, Except.bind, liftM, monadLift, MonadLift.monadLift]
  | ok excluded =>
    cases p.read with
    | error e => simp [bind, Except.bind, liftM, monadLift, MonadLift.monadLift]
    | ok a => simp [bind, Except.bind, liftM, monadLift, MonadLift.monadLift]

theorem Assembled.excluded_eq {p : Assembled} {tree node : Doc} {b l f : Int}
    (htree : sources.requireAt [p.file, "ast"] "sources" = .ok tree)
    (hnode : (Syntax.walk tree).find? (Syntax.definesContract (some p.name)) = some node)
    (hdecl : Syntax.DeclaredAt node b l f) : p.excluded sources = .ok (some ⟨b, b + l⟩) := by
  rw [excluded, htree]
  exact declarationRange_eq hnode hdecl

theorem Assembled.exists_tabulate {p : Assembled} {excluded : Option SourceRange} {a : Assembly}
    (hx : p.excluded sources = .ok excluded) (ha : p.read = .ok a)
    (hok : (a.tabulate (Builder.new (.ofText source) p.name excluded generation)).outcome.isOk =
      true) :
    ∃ t, p.tabulate source sources generation = .ok t := by
  cases ht : (a.tabulate (Builder.new (.ofText source) p.name excluded generation)).outcome with
  | ok t => exact ⟨t, tabulate_eq_ok.mpr ⟨excluded, a, hx, ha, ht⟩⟩
  | error e =>
    rw [ht] at hok
    exact absurd hok (by rintro ⟨⟩)

/-! ## One contract after another -/

/-- That contracts put their tables into a ledger, one after another. -/
inductive Puts (source : String) (sources : Doc) (generation : Int) :
    Ledger String RegionTable → List Assembled → Ledger String RegionTable → Prop
  | nil (l) : Puts source sources generation l [] l
  | cons {l l' p ps t} (made : p.tabulate source sources generation = .ok t)
      (rest : Puts source sources generation (l.insert p.name t) ps l') :
      Puts source sources generation l (p :: ps) l'

namespace Puts

variable {l l' l'' : Ledger String RegionTable} {p : Assembled} {ps qs : List Assembled}

theorem append (h : Puts source sources generation l ps l')
    (h' : Puts source sources generation l' qs l'') :
    Puts source sources generation l (ps ++ qs) l'' := by
  induction h with
  | nil l => exact h'
  | cons made rest ih => exact .cons made (ih h')

/-- New names come behind the known ones, in the order in which they are first mentioned. -/
theorem keys_eq (h : Puts source sources generation l ps l') :
    l'.keys = l.keys ++ ((ps.map Assembled.name).removeAll l.keys).eraseDups := by
  induction h with
  | nil l => simp [List.removeAll]
  | @cons l l' p ps t made rest ih =>
    rw [ih, Ledger.keys_insert]
    -- a name that is known already is removed from what comes later, a new one comes first in it
    by_cases hp : p.name ∈ l.keys
    · simp [hp, List.removeAll]
    · simp [hp, List.removeAll, List.eraseDups_cons, Bool.and_comm, Bool.beq_eq_decide_eq]

theorem find?_of_notMem {name : String} (h : Puts source sources generation l ps l')
    (hn : name ∉ ps.map Assembled.name) : l'.find? name = l.find? name := by
  induction h with
  | nil l => rfl
  | cons made rest ih =>
    rw [List.map_cons, List.mem_cons, not_or] at hn
    rw [ih hn.2, Ledger.find?_insert, if_neg (Ne.symm hn.1)]

theorem exists_table (h : Puts source sources generation l ps l') (hp : p ∈ ps) :
    ∃ t, p.tabulate source sources generation = .ok t := by
  induction h with
  | nil l => exact nomatch hp
  | cons made rest ih =>
    rcases List.mem_cons.mp hp with rfl | hp
    · exact ⟨_, made⟩
    · exact ih hp

/-- The last contract of a name has its table under the name. -/
theorem find?_last (h : Puts source sources generation l (ps ++ p :: qs) l')
    (hq : p.name ∉ qs.map Assembled.name) :
    ∃ t, p.tabulate source sources generation = .ok t ∧ l'.find? p.name = some t := by
  induction ps generalizing l with
  | nil =>
    cases h with
    | cons made rest =>
      refine ⟨_, made, ?_⟩
      rw [rest.find?_of_notMem hq, Ledger.find?_insert, if_pos rfl]
  | cons p' ps ih =>
    cases h with
    | cons made rest => exact ih rest

end Puts

/-! ## A compiler output -/

variable {file : String} {output : Doc} {p q : Progress}

theorem puts_of_foldlM {α : Type} {f : Progress → α → Traced Progress} {g : α → List Assembled}
    {as : List α}
    (hf : ∀ p a q, (f p a).outcome = .ok q →
      Puts source sources generation p.tables (g a) q.tables)
    (h : (as.foldlM f p).outcome = .ok q) :
    Puts source sources generation p.tables (as.flatMap g) q.tables := by
  induction as generalizing p with
  | nil =>
    rw [← Except.ok.inj h]
    exact .nil _
  | cons a as ih =>
    obtain ⟨r, hr, h⟩ := Traced.outcome_bind_eq_ok.mp h
    rw [List.flatMap_cons]
    exact (hf p a r hr).append (ih h)

theorem puts_of_addContract {contract : String × Doc}
    (h : (addContract (.ofText source) sources generation file p contract).outcome = .ok q) :
    Puts source sources generation p.tables (assembledAs? file contract).toList q.tables := by
  obtain ⟨evm, doc, he, hd, hcase⟩ := of_addContract h
  have he := Doc.requireAt_eq_ok.mp he
  have hd := Doc.get_eq_of_getMember hd
  rcases hcase with ⟨hb, rfl⟩ | ⟨hb, tree, excluded, a, t, htree, hx, ha, ht, rfl⟩
  · have hnone : assembledAs? file contract = none := by
      simp [assembledAs?, assemblyOf?, he, hd, hb]
    rw [hnone]
    exact .nil _
  · have hsome : assembledAs? file contract = some ⟨file, contract.1, doc⟩ := by
      simp [assembledAs?, assemblyOf?, he, hd, hb]
    have hexcluded : Assembled.excluded sources ⟨file, contract.1, doc⟩ = .ok excluded := by
      simp only [Assembled.excluded, htree]
      exact hx
    rw [hsome]
    exact .cons (Assembled.tabulate_eq_ok.mpr ⟨excluded, a, hexcluded, ha, ht⟩) (.nil _)

theorem puts_of_addFile {f : String × Doc}
    (h : (addFile (.ofText source) sources generation p f).outcome = .ok q) :
    Puts source sources generation p.tables (assembledIn f) q.tables := by
  obtain ⟨name, contracts⟩ := f
  cases contracts with
  | object ms =>
    show Puts source sources generation p.tables (ms.filterMap (assembledAs? name)) q.tables
    rw [List.filterMap_eq_flatMap_toList]
    exact puts_of_foldlM (fun _ _ _ => puts_of_addContract) h
  | _ => exact nomatch h

/-- A compilation has what the contracts of the output put into an empty ledger. -/
theorem puts_of_runBuild {c : Compilation}
    (h : (runBuild source output generation).outcome = .ok c) :
    Puts source (output.get "sources") generation ∅ (assembled output) c.tables := by
  obtain ⟨contracts, hc, h⟩ := Traced.outcome_bind_eq_ok.mp h
  obtain ⟨sources, hs, h⟩ := Traced.outcome_bind_eq_ok.mp h
  obtain ⟨files, hf, h⟩ := Traced.outcome_bind_eq_ok.mp h
  obtain ⟨p, hp, h⟩ := Traced.outcome_bind_eq_ok.mp h
  obtain ⟨_, -, h⟩ := Traced.outcome_bind_eq_ok.mp h
  obtain ⟨infos, -, h⟩ := Traced.outcome_bind_eq_ok.mp h
  obtain rfl := Except.ok.inj h
  have hc := Doc.get_eq_of_field? (Doc.requireAt_eq_ok.mp (Traced.outcome_lift_eq_ok.mp hc))
  have hs := Doc.get_eq_of_field? (Doc.requireAt_eq_ok.mp (Traced.outcome_lift_eq_ok.mp hs))
  have hf := Traced.outcome_liftFault_eq_ok.mp hf
  cases contracts with
  | object ms =>
    obtain rfl := Except.ok.inj hf
    rw [assembled, hc, hs]
    refine puts_of_foldlM ?_ hp
    intro p f q
    exact puts_of_addFile
  | _ => exact nomatch hf

/-! ## Outputs that compile -/

/-- That the parts of an output are there, as far as every compilation goes through them. -/
structure Shaped (output : Doc) (files infos : List (String × Doc)) : Prop where
  contracts : output.field? "contracts" = some (.object files)
  sources : output.field? "sources" = some (.object infos)
  contract : ∀ f ∈ files, ∃ ms, f.2 = .object ms ∧
    ∀ m ∈ ms, ∃ parts, m.2.field? "evm" = some (.object parts)

theorem exists_addContract {contract : String × Doc} {parts : List (String × Doc)}
    (he : contract.2.field? "evm" = some (.object parts))
    (ht : ∀ x, assembledAs? file contract = some x →
      ∃ t, x.tabulate source sources generation = .ok t) :
    ∃ q, (addContract (.ofText source) sources generation file p contract).outcome = .ok q := by
  refine Traced.exists_outcome_bind (Traced.outcome_lift_eq_ok.mpr (Doc.requireAt_eq_ok.mpr he)) ?_
  refine Traced.exists_outcome_bind (Traced.outcome_liftFault_eq_ok.mpr rfl) ?_
  split
  · exact Traced.exists_outcome_bind rfl ⟨p, rfl⟩
  · next hb =>
    have hsome : assembledAs? file contract =
        some ⟨file, contract.1, (Doc.object parts).get "legacyAssembly"⟩ := by
      simp only [assembledAs?, assemblyOf?, he]
      simp [Doc.get, Doc.member?, hb]
    obtain ⟨t, ht⟩ := ht _ hsome
    obtain ⟨excluded, a, hx, ha, hta⟩ := Assembled.tabulate_eq_ok.mp ht
    cases htree : sources.requireAt [file, "ast"] "sources" with
    | error e =>
      simp only [Assembled.excluded, htree] at hx
      cases hx
    | ok tree =>
      simp only [Assembled.excluded, htree] at hx
      refine Traced.exists_outcome_bind (a := tree) rfl ?_
      refine Traced.exists_outcome_bind (Traced.outcome_lift_eq_ok.mpr hx) ?_
      refine Traced.exists_outcome_bind rfl ?_
      refine Traced.exists_outcome_bind (Traced.outcome_lift_eq_ok.mpr ha) ?_
      exact Traced.exists_outcome_bind hta ⟨_, rfl⟩

/-- An output compiles if its parts are there and every contract with assembly has a table. -/
theorem exists_runBuild {files infos : List (String × Doc)} (h : Shaped output files infos)
    (ht : ∀ x ∈ assembled output,
      ∃ t, x.tabulate source (output.get "sources") generation = .ok t) :
    ∃ c, (runBuild source output generation).outcome = .ok c := by
  have hassembled : assembled output = files.flatMap assembledIn := by
    rw [assembled, Doc.get_eq_of_field? h.contracts]
  rw [hassembled, Doc.get_eq_of_field? h.sources] at ht
  have hfiles : ∀ f ∈ files, ∀ p : Progress,
      ∃ q, (addFile (.ofText source) (.object infos) generation p f).outcome = .ok q := by
    intro f hf p
    obtain ⟨ms, hms, hcontract⟩ := h.contract f hf
    simp only [addFile, hms]
    refine Traced.exists_outcome_foldlM (fun m hm p => ?_) p
    obtain ⟨parts, he⟩ := hcontract m hm
    refine exists_addContract he fun x hx => ht x (List.mem_flatMap.mpr ⟨f, hf, ?_⟩)
    simp only [assembledIn, hms]
    exact List.mem_filterMap.mpr ⟨m, hm, hx⟩
  obtain ⟨p, hp⟩ := Traced.exists_outcome_foldlM hfiles ⟨∅, ∅⟩
  refine Traced.exists_outcome_bind
    (Traced.outcome_lift_eq_ok.mpr (Doc.requireAt_eq_ok.mpr h.contracts)) ?_
  refine Traced.exists_outcome_bind
    (Traced.outcome_lift_eq_ok.mpr (Doc.requireAt_eq_ok.mpr h.sources)) ?_
  refine Traced.exists_outcome_bind (Traced.outcome_liftFault_eq_ok.mpr rfl) ?_
  refine Traced.exists_outcome_bind hp ?_
  refine Traced.exists_outcome_bind rfl ?_
  exact Traced.exists_outcome_bind (Traced.outcome_liftFault_eq_ok.mpr rfl) ⟨_, rfl⟩

/-! ## Main result -/

/--
**A compilation has the tables of the contracts with assembly, as far as their names differ.** Each
such contract has a table by itself; the names come in the order of their first mention; the last
contract of a name has its table under the name. So there are as many tables as such contracts, and
each keeps its own, exactly when no two share a name.
-/
theorem tables_of_names {c : Compilation} (h : build source output generation = .ok c) :
    (∀ p ∈ assembled output,
      ∃ t, p.tabulate source (output.get "sources") generation = .ok t) ∧
    c.contracts = ((assembled output).map Assembled.name).eraseDups ∧
    (∀ before p after, assembled output = before ++ p :: after →
      p.name ∉ after.map Assembled.name →
        ∃ t, p.tabulate source (output.get "sources") generation = .ok t ∧
          c.find? p.name = some t) ∧
    (c.tables.size = (assembled output).length ↔
      ((assembled output).map Assembled.name).Nodup) ∧
    (((assembled output).map Assembled.name).Nodup → ∀ p ∈ assembled output,
      ∃ t, p.tabulate source (output.get "sources") generation = .ok t ∧
        c.find? p.name = some t) := by
  have hputs := puts_of_runBuild h
  have hkeys : c.tables.keys = ((assembled output).map Assembled.name).eraseDups := by
    have hkeys := hputs.keys_eq
    simpa [show (∅ : Ledger String RegionTable).keys = [] from rfl, List.removeAll] using hkeys
  have hlast : ∀ before p after, assembled output = before ++ p :: after →
      p.name ∉ after.map Assembled.name →
        ∃ t, p.tabulate source (output.get "sources") generation = .ok t ∧
          c.find? p.name = some t := by
    intro before p after hsplit hafter
    rw [hsplit] at hputs
    exact hputs.find?_last hafter
  refine ⟨fun p hp => hputs.exists_table hp, hkeys, hlast, ?_, ?_⟩
  · -- the keys are the names without repetition, so their number is that of the distinct names
    have hperm : c.tables.keys.Perm ((assembled output).map Assembled.name).dedup := by
      have hnodup : c.tables.keys.Nodup := c.tables.nodup
      rw [List.perm_ext_iff_of_nodup hnodup (List.nodup_dedup _)]
      intro name
      rw [hkeys, List.mem_eraseDups, List.mem_dedup]
    have hsize : c.tables.size = ((assembled output).map Assembled.name).dedup.length := by
      rw [← hperm.length_eq, Ledger.keys, List.length_map]
      rfl
    rw [hsize, ← List.length_map (f := Assembled.name)]
    constructor
    · intro hlength
      have hsame := (List.dedup_sublist _).eq_of_length hlength
      exact List.dedup_eq_self.mp hsame
    · intro hnodup
      rw [List.dedup_eq_self.mpr hnodup]
  · intro hnodup p hp
    obtain ⟨before, after, hsplit⟩ := List.append_of_mem hp
    refine hlast before p after hsplit ?_
    rw [hsplit, List.map_append, List.map_cons] at hnodup
    exact (List.nodup_cons.mp (List.nodup_append.mp hnodup).2.1).1

/-! ## Two contracts of one name -/

/-- An instruction as a compiler writes it. -/
def instructionDoc (name : String) (source first last : Int) : Doc :=
  .object [("name", .text name), ("source", .int source), ("begin", .int first), ("end", .int last)]

/-- An assembly as a compiler writes it, with the instructions of its constructor. -/
def assemblyDoc (code : List Doc) : Doc :=
  .object [(".code", .list code), (".data", .object [("0", .object [(".code", .list [])])])]

/-- A contract as a compiler writes it. -/
def contractDoc (code : List Doc) : Doc :=
  .object [("evm", .object [("legacyAssembly", assemblyDoc code)])]

/-- The declaration of a contract as a compiler writes it. -/
def declarationDoc (name src : String) : Doc :=
  .object [("nodeType", .text "ContractDefinition"), ("name", .text name), ("src", .text src)]

/-- A source as a compiler writes it. -/
def sourceDoc (id : Int) (declarations : List Doc) : Doc :=
  .object [("id", .int id), ("ast", .object [
    ("nodeType", .text "SourceUnit"), ("nodes", .list declarations)])]

/-- Two files, each with a contract of the same name. -/
def clashing : Doc :=
  .object [
    ("contracts", .object [
      ("a.sol", .object [("C", contractDoc [instructionDoc "ADD" 0 0 4])]),
      ("b.sol", .object [("C", contractDoc [instructionDoc "MUL" 1 0 4])])]),
    ("sources", .object [
      ("a.sol", sourceDoc 0 [declarationDoc "C" "0:6:0"]),
      ("b.sol", sourceDoc 1 [declarationDoc "C" "0:6:1"])])]

theorem declaredAt_primary : Syntax.DeclaredAt (declarationDoc "C" "0:6:0") 0 6 0 :=
  ⟨"0:6:0", "0", "6", "0", rfl,
    SourceRange.parts_intercalate rfl (by simp) (by simp), rfl, rfl, rfl⟩

theorem declaredAt_second : Syntax.DeclaredAt (declarationDoc "C" "0:6:1") 0 6 1 :=
  ⟨"0:6:1", "0", "6", "1", rfl,
    SourceRange.parts_intercalate rfl (by simp) (by simp), rfl, rfl, rfl⟩

theorem exists_build_clashing : ∃ c, build "ab\ncde" clashing 1 = .ok c := by
  have hadd : ∃ t, Assembled.tabulate "ab\ncde" (clashing.get "sources") 1
      ⟨"a.sol", "C", assemblyDoc [instructionDoc "ADD" 0 0 4]⟩ = .ok t := by
    refine Assembled.exists_tabulate (Assembled.excluded_eq rfl ?_ declaredAt_primary) rfl ?_
    · with_unfolding_all rfl
    · decide +kernel
  have hmul : ∃ t, Assembled.tabulate "ab\ncde" (clashing.get "sources") 1
      ⟨"b.sol", "C", assemblyDoc [instructionDoc "MUL" 1 0 4]⟩ = .ok t := by
    refine Assembled.exists_tabulate (Assembled.excluded_eq rfl ?_ declaredAt_second) rfl ?_
    · with_unfolding_all rfl
    · decide +kernel
  refine exists_runBuild ⟨rfl, rfl, ?_⟩ ?_
  · simp [contractDoc, Doc.field?, Doc.member?, Doc.lookup]
  · intro x hx
    have hassembled : assembled clashing =
        [⟨"a.sol", "C", assemblyDoc [instructionDoc "ADD" 0 0 4]⟩,
          ⟨"b.sol", "C", assemblyDoc [instructionDoc "MUL" 1 0 4]⟩] := rfl
    rw [hassembled] at hx
    rcases List.mem_pair.mp hx with rfl | rfl
    · exact hadd
    · exact hmul

/-- The output of two files compiles, but has one table for its two contracts. -/
theorem tables_of_names_clashing :
    ∃ c, build "ab\ncde" clashing 1 = .ok c ∧ (assembled clashing).length = 2 ∧
      c.contracts = ["C"] := by
  obtain ⟨c, hc⟩ := exists_build_clashing
  obtain ⟨-, hnames, -⟩ := tables_of_names hc
  exact ⟨c, hc, rfl, hnames.trans (by decide +kernel)⟩

end Compilation

end AsmLens
