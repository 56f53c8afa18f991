import AsmLens.Proofs.Assembly.Emission
import AsmLens.Proofs.Compilation.Contracts

/-!
# What is left out for a contract

The instructions that stand for the declaration of a contract are to be left out. The range of the
declaration is kept without its file, and only instructions of the primary file have a range. So what
is left out are the instructions of the primary file with the ends of the declaration: where another
file declares the contract, the instructions of the declaration have lines, and instructions that only
have its ends have none.

* `Instruction.isLeftOut_range_iff` — which instructions are left out for a range
* `Instruction.ComesFrom.kept` — what comes from a declaration in another file has its line
* `Compilation.declaration_left_out` — what the tables of a compilation leave out
-/

namespace AsmLens

namespace Instruction

variable {i : Instruction}

/-- That an instruction comes from what is declared at `b:l:f`. -/
def ComesFrom (b l f : Int) (i : Instruction) : Prop :=
  i.source = some f ∧ i.first = some b ∧ i.last = some (b + l)

/-- Left out are the instructions of the primary file with the ends of the range, if the range is
one that instructions have. -/
theorem isLeftOut_range_iff {b l : Int} :
    i.isLeftOut (some ⟨b, b + l⟩) = true ↔ i.ComesFrom b l 0 ∧ 0 ≤ b ∧ 0 ≤ l := by
  rw [isLeftOut_iff]
  constructor
  · rintro ⟨r, hr, he⟩
    obtain rfl := Option.some.inj he
    obtain ⟨hsource, hfirst, hlast, h₀, hle⟩ := range?_eq_some.mp hr
    exact ⟨⟨hsource, hfirst, hlast⟩, h₀, by omega⟩
  · rintro ⟨⟨hsource, hfirst, hlast⟩, h₀, hle⟩
    exact ⟨⟨b, b + l⟩, range?_eq_some.mpr ⟨hsource, hfirst, hlast, h₀, by omega⟩, rfl⟩

/-- What comes from a declaration in another file than the primary one is not left out. -/
theorem ComesFrom.kept {b l f : Int} (h : i.ComesFrom b l f) (hf : f ≠ 0) :
    i.isLeftOut (some ⟨b, b + l⟩) = false := by
  cases hleft : i.isLeftOut (some ⟨b, b + l⟩) with
  | false => rfl
  | true =>
    have hprimary := (isLeftOut_range_iff.mp hleft).1.1
    exact absurd (Option.some.inj (h.1.symm.trans hprimary)) hf

end Instruction

namespace Compilation

variable {source : String} {output sources : Doc} {generation : Int} {c : Compilation}

/-- The table of a declared contract agrees with its lines, those of the declaration left out. -/
theorem Assembled.agrees_of_tabulate {p : Assembled} {t : RegionTable} {tree node : Doc}
    {b l f : Int} (ht : p.tabulate source sources generation = .ok t)
    (htree : sources.requireAt [p.file, "ast"] "sources" = .ok tree)
    (hnode : (Syntax.walk tree).find? (Syntax.definesContract (some p.name)) = some node)
    (hdecl : Syntax.DeclaredAt node b l f) :
    ∃ a, p.read = .ok a ∧
      Agrees source.utf8ByteSize (some ⟨b, b + l⟩) (a.transcript (some ⟨b, b + l⟩)) t := by
  obtain ⟨excluded, a, hx, ha, hta⟩ := tabulate_eq_ok.mp ht
  rw [excluded_eq htree hnode hdecl] at hx
  obtain rfl := Except.ok.inj hx
  exact ⟨a, ha, (Assembly.agrees_of_tabulate hta).1⟩

/--
**The tables of a compilation leave out what has the ends of the declaration.** Where the contract is
declared at `b:l:f`, exactly the instructions of the primary file from `b` to `b + l` are left out,
unless no instruction can have this range. If the primary file is the one of the declaration, these
are the instructions that come from it; if it is not, no instruction that comes from the declaration is
left out. Every other instruction has its line, and the table agrees with the lines. In the compilation
this is the table of the last contract of each name.
-/
theorem declaration_left_out (h : build source output generation = .ok c) :
    ∀ before p after, assembled output = before ++ p :: after →
    ∀ tree node b l f, (output.get "sources").requireAt [p.file, "ast"] "sources" = .ok tree →
      (Syntax.walk tree).find? (Syntax.definesContract (some p.name)) = some node →
      Syntax.DeclaredAt node b l f →
      ∃ a t, p.read = .ok a ∧ p.tabulate source (output.get "sources") generation = .ok t ∧
        (p.name ∉ after.map Assembled.name → c.find? p.name = some t) ∧
        t.lines.toList = (a.transcript (some ⟨b, b + l⟩)).map Origin.text ∧
        Agrees source.utf8ByteSize (some ⟨b, b + l⟩) (a.transcript (some ⟨b, b + l⟩)) t ∧
        ∀ i ∈ a.constructor ++ a.runtime,
          (i.isLeftOut (some ⟨b, b + l⟩) = true ↔ i.ComesFrom b l 0 ∧ 0 ≤ b ∧ 0 ≤ l) ∧
          (f ≠ 0 → i.ComesFrom b l f → i.isLeftOut (some ⟨b, b + l⟩) = false) := by
  intro before p after hsplit tree node b l f htree hnode hdecl
  have hputs := puts_of_runBuild h
  rw [hsplit] at hputs
  -- the table by itself exists even if a later contract of the name takes its place
  obtain ⟨t, ht⟩ := hputs.exists_table (List.mem_append_right before List.mem_cons_self)
  obtain ⟨a, ha, hagrees⟩ := Assembled.agrees_of_tabulate ht htree hnode hdecl
  refine ⟨a, t, ha, ht, ?_, hagrees.lines, hagrees, fun i _ => ⟨?_, ?_⟩⟩
  · intro hlast
    obtain ⟨u, hu, hfind⟩ := hputs.find?_last hlast
    rw [ht] at hu
    rw [Except.ok.inj hu]
    exact hfind
  · exact Instruction.isLeftOut_range_iff
  · intro hf hi
    exact hi.kept hf

/-- An output of one contract. -/
def declaring (infos : List (String × Doc)) (code : List Doc) : Doc :=
  .object [("contracts", .object [("a.sol", .object [("C", contractDoc code)])]),
    ("sources", .object infos)]

theorem exists_build_declaring {infos : List (String × Doc)} {code : List Doc} {tree node : Doc}
    {b l f : Int} {a : Assembly}
    (htree : (Doc.object infos).requireAt ["a.sol", "ast"] "sources" = .ok tree)
    (hnode : (Syntax.walk tree).find? (Syntax.definesContract (some "C")) = some node)
    (hdecl : Syntax.DeclaredAt node b l f)
    (ha : Assembled.read ⟨"a.sol", "C", assemblyDoc code⟩ = .ok a)
    (hok : (a.tabulate
      (Builder.new (.ofText source) "C" (some ⟨b, b + l⟩) generation)).outcome.isOk = true) :
    ∃ c, build source (declaring infos code) generation = .ok c := by
  refine exists_runBuild ⟨rfl, rfl, ?_⟩ ?_
  · simp [contractDoc, Doc.field?, Doc.member?, Doc.lookup]
  · intro x hx
    have hassembled : assembled (declaring infos code) = [⟨"a.sol", "C", assemblyDoc code⟩] := rfl
    rw [hassembled] at hx
    rw [List.mem_singleton.mp hx]
    exact Assembled.exists_tabulate (Assembled.excluded_eq htree hnode hdecl) ha hok

/-- A contract of another file, with an instruction of its declaration and one of the primary file that
has the same ends. -/
def foreign : Doc :=
  declaring [("main.sol", sourceDoc 0 []), ("a.sol", sourceDoc 1 [declarationDoc "C" "0:6:1"])]
    [instructionDoc "ADD" 1 0 6, instructionDoc "MUL" 0 0 6]

/-- The instruction of a declaration in another file has its line, and the one of the primary file has
none. -/
theorem declaration_left_out_foreign :
    ∃ c t, build "ab\ncde" foreign 1 = .ok c ∧ c.find? "C" = some t ∧
      t.lines.toList = ["CONSTRUCTOR:", "\t\t\t\tADD", "SUBROUTINES:"] := by
  have hnode : (Syntax.walk ((sourceDoc 1 [declarationDoc "C" "0:6:1"]).get "ast")).find?
      (Syntax.definesContract (some "C")) = some (declarationDoc "C" "0:6:1") := by
    with_unfolding_all rfl
  obtain ⟨c, hc⟩ : ∃ c, build "ab\ncde" foreign 1 = .ok c :=
    exists_build_declaring rfl hnode declaredAt_second rfl (by decide +kernel)
  obtain ⟨a, t, ha, -, hfind, hlines, -⟩ :=
    declaration_left_out hc [] _ [] rfl _ _ _ _ _ rfl hnode declaredAt_second
  obtain rfl := Except.ok.inj ha
  exact ⟨c, t, hc, hfind (by simp), hlines.trans (by decide +kernel)⟩

end Compilation

end AsmLens
