import AsmLens.Proofs.Failure
import AsmLens.Proofs.Gas.Merge

/-!
# Merges in full or not at all

A merge is written measurement by measurement. Whatever it needs and may not get — a table that is
not retired, selectors, the functions of the syntax tree, their labels — it asks for before the
first measurement is written. So a merge that fails, for whatever reason, has written nothing.

* `functionIndex_eq_error` — how naming the functions of a tree fails
* `RegionTable.Refuses` — the ways in which a merge fails, each with its failure
* `RegionTable.merge_whole` — a merge in full or not at all
-/

namespace AsmLens

/-- The nodes of a tree that define functions, level by level. -/
def Syntax.functionNodes (tree : Doc) : List Doc :=
  (walk tree).filter (hasType · "FunctionDefinition")

/-- The functions of a tree are named from the selectors, the functions and their labels, in this order. -/
theorem functionIndex_eq_error {tree ids : Doc} {e : Failure} :
    functionIndex tree ids = .error e ↔ tree.isBlank = false ∧
      ((∃ p, readSelectors ids = .error p ∧ e = .problem p) ∨
        ∃ selectors, readSelectors ids = .ok selectors ∧
          (Syntax.functions tree = .error e ∨
            ∃ fs f, Syntax.functions tree = .ok fs ∧ fs.mapM (labelEntry selectors) = .error f ∧
              e = .fault f)) := by
  unfold functionIndex
  cases tree.isBlank with
  | true => exact ⟨fun h => (nomatch h), fun h => (nomatch h.1)⟩
  | false =>
    refine FailsOnly.bind_eq_error.trans (Iff.trans ?_ (and_iff_right rfl).symm)
    refine or_congr FailsOnly.liftProblem_eq_error (exists_congr fun selectors => ?_)
    refine and_congr FailsOnly.liftProblem_eq_ok (FailsOnly.bind_eq_error.trans (or_congr Iff.rfl ?_))
    constructor
    · rintro ⟨fs, hfs, h⟩
      rcases FailsOnly.bind_eq_error.mp h with h | ⟨_, _, h⟩
      · obtain ⟨f, hf, he⟩ := FailsOnly.liftFault_eq_error.mp h
        exact ⟨fs, f, hfs, hf, he⟩
      · exact nomatch h
    · rintro ⟨fs, f, hfs, hf, he⟩
      exact ⟨fs, hfs, FailsOnly.bind_eq_error.mpr (.inl (FailsOnly.liftFault_eq_error.mpr ⟨f, hf, he⟩))⟩

namespace RegionTable

/--
The ways in which a merge fails: the table is retired; the tree is not blank, and the selectors cannot
be read, or a node that defines a function, or the label of a function cannot be made. Of several such
nodes or functions the first one counts.
-/
inductive Refuses (t : RegionTable) (tree ids : Doc) : Failure → Prop
  | retired (retired : t.retired = true) :
    Refuses t tree ids (.problem (.retiredTable t.contract t.generation))
  | selectors {p} (live : t.retired = false) (named : tree.isBlank = false)
    (failed : readSelectors ids = .error p) : Refuses t tree ids (.problem p)
  | function {selectors before node after e} (live : t.retired = false)
    (named : tree.isBlank = false) (listed : readSelectors ids = .ok selectors)
    (nodes : Syntax.functionNodes tree = before ++ node :: after)
    (read : ∀ n ∈ before, ∃ f, Syntax.readFunction n = .ok f)
    (failed : Syntax.readFunction node = .error e) : Refuses t tree ids e
  | label {selectors before f after fault} (live : t.retired = false)
    (named : tree.isBlank = false) (listed : readSelectors ids = .ok selectors)
    (functions : Syntax.functions tree = .ok (before ++ f :: after))
    (labeled : ∀ g ∈ before, ∃ entry, labelEntry selectors g = .ok entry)
    (failed : labelEntry selectors f = .error fault) : Refuses t tree ids (.fault fault)

variable {t : RegionTable} {tree ids : Doc} {e : Failure}

/-- A table that is not retired is refused what its functions are refused. -/
theorem refuses_iff_of_live (live : t.retired = false) :
    t.Refuses tree ids e ↔ functionIndex tree ids = .error e := by
  rw [functionIndex_eq_error]
  constructor
  · rintro (retired | ⟨-, named, failed⟩ | ⟨-, named, listed, nodes, read, failed⟩ |
      ⟨-, named, listed, functions, labeled, failed⟩)
    · rw [live] at retired
      exact nomatch retired
    · exact ⟨named, .inl ⟨_, failed, rfl⟩⟩
    · exact ⟨named, .inr ⟨_, listed, .inl (FailsOnly.mapM_eq_error.mpr ⟨_, _, _, nodes, read, failed⟩)⟩⟩
    · exact ⟨named, .inr ⟨_, listed, .inr ⟨_, _, functions,
        FailsOnly.mapM_eq_error.mpr ⟨_, _, _, rfl, labeled, failed⟩, rfl⟩⟩⟩
  · rintro ⟨named, ⟨p, failed, rfl⟩ | ⟨selectors, listed, failed | ⟨fs, f, functions, failed, rfl⟩⟩⟩
    · exact .selectors live named failed
    · obtain ⟨before, node, after, nodes, read, failed⟩ := FailsOnly.mapM_eq_error.mp failed
      exact .function live named listed nodes read failed
    · obtain ⟨before, g, after, rfl, labeled, failed⟩ := FailsOnly.mapM_eq_error.mp failed
      exact .label live named listed functions labeled failed

/-- A merge fails exactly in these ways. -/
theorem merge_eq_error (ms : Measurements) :
    t.merge ms tree ids = .error e ↔ t.Refuses tree ids e := by
  cases ht : t.retired with
  | true =>
    rw [merge_of_retired ht]
    constructor
    · intro h
      rw [← Except.error.inj h]
      exact .retired ht
    · rintro (retired | ⟨live, -, -⟩ | ⟨live, -, -, -, -, -⟩ | ⟨live, -, -, -, -, -⟩)
      · rfl
      all_goals exact absurd live (by simp [ht])
  | false =>
    rw [refuses_iff_of_live ht]
    unfold merge
    rw [ht]
    refine FailsOnly.bind_eq_error.trans ⟨fun h => ?_, .inl⟩
    exact h.elim id fun ⟨_, _, h⟩ => (nomatch h)

/--
**A merge is made in full or not at all.** Whatever the table, the measurements, the syntax tree and the
selectors are, a merge in place ends in one of two ways: it fails for one of the reasons that there
are, and the table is as it was, with all its gas, names and selectors; or it succeeds, all
measurements are attached, and there was no reason to fail.
-/
theorem merge_whole (t : RegionTable) (ms : Measurements) (tree ids : Doc) :
    (∀ e, ((mergeInPlace ms tree ids).run t).2.outcome = .error e →
      ((mergeInPlace ms tree ids).run t).1 = t) ∧
    (∀ e, ((mergeInPlace ms tree ids).run t).2.outcome = .error e ↔ t.Refuses tree ids e) ∧
    (((mergeInPlace ms tree ids).run t).2.outcome = .ok () →
      ∃ labels, functionIndex tree ids = .ok labels ∧
        ((mergeInPlace ms tree ids).run t).1 = t.attachAll labels ms) := by
  have houtcome : (t.runMerge ms tree ids).outcome = t.merge ms tree ids := by
    rw [runMerge, Traced.outcome_bind]
    cases h : t.merge ms tree ids <;> simp <;> rfl
  rw [mergeInPlace_eq, Traced.settle]
  dsimp only
  rw [houtcome]
  cases h : t.merge ms tree ids with
  | error e =>
    refine ⟨fun _ _ => rfl, fun d => ?_, by rintro ⟨⟩⟩
    rw [← merge_eq_error ms, h]
    exact ⟨fun hd => congrArg Except.error (Except.error.inj hd),
      fun hd => congrArg Except.error (Except.error.inj hd)⟩
  | ok u =>
    obtain ⟨-, labels, hlabels, rfl⟩ := merge_eq_ok.mp h
    refine ⟨by rintro _ ⟨⟩, fun d => ?_, fun _ => ⟨labels, hlabels, rfl⟩⟩
    rw [← merge_eq_error ms, h]
    exact ⟨by rintro ⟨⟩, by rintro ⟨⟩⟩

/-- A tree with two functions, of which the second has no place. -/
def unplacedTree : Doc :=
  .object [("nodeType", .text "SourceUnit"),
    ("nodes", .list [smallTree, .object [("nodeType", .text "FunctionDefinition")]])]

/-- The function without a place keeps both measurements of the first function out of the table. -/
theorem merge_whole_unplaced :
    ((mergeInPlace functionSurvey.measurements unplacedTree functionSurvey.ids).run
        smallTable).2.outcome =
      .error (.problem (.noSrc "FunctionDefinition" "ast.FunctionDefinition.src")) ∧
    ((mergeInPlace functionSurvey.measurements unplacedTree functionSurvey.ids).run smallTable).1 =
      smallTable := by
  obtain ⟨hkept, hrefused, -⟩ :=
    merge_whole smallTable functionSurvey.measurements unplacedTree functionSurvey.ids
  have hnodes : Syntax.functionNodes unplacedTree =
      [smallTree] ++ .object [("nodeType", .text "FunctionDefinition")] :: [] := by
    with_unfolding_all rfl
  have hsecond : Syntax.readFunction (.object [("nodeType", .text "FunctionDefinition")]) =
      .error (.problem (.noSrc "FunctionDefinition" "ast.FunctionDefinition.src")) := by
    with_unfolding_all rfl
  have hselectors : readSelectors functionSurvey.ids = .ok [("f()", "0x26121ff0")] := by
    with_unfolding_all rfl
  have herror := (hrefused _).mpr (.function (by with_unfolding_all rfl) rfl hselectors hnodes
    (by simp [readFunction_small]) hsecond)
  exact ⟨herror, hkept _ herror⟩

end RegionTable

end AsmLens
