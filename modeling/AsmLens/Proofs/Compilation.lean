import AsmLens.Compilation
import AsmLens.Proofs.Assembly.Agreement

/-!
# What a compilation consists of

A compiler output is gone through file by file and contract by contract. Each contract either is
left out or puts one table, made from its assembly, under its name.

* `RegionTable.heading_of_tabulate` — a table bears the number that it was made for
* `Compilation.of_addContract` — what becomes of one contract
* `Compilation.of_runBuild` — what every contract keeps, the compilation has
* `Compilation.of_find?_runBuild` — what all tables of an assembly have, its tables have
-/

namespace AsmLens

/-! ## The heading of a table -/

/-- What a table says of itself: its contract, its number, and what has happened to it. -/
def RegionTable.heading (t : RegionTable) : String × Int × Bool × Bool :=
  (t.contract, t.generation, t.measured, t.retired)

theorem RegionTable.heading_ensure (t : RegionTable) (r : SourceRange) (p : Position) :
    (t.ensure r p).heading = t.heading := by
  unfold ensure
  split <;> rfl

namespace Builder

theorem heading_add (b : Builder) (i : Instruction) : (b.add i).table.heading = b.table.heading := by
  unfold add
  cases b.fate i with
  | mapped r p => exact RegionTable.heading_ensure (b.emit i.render).table r p
  | _ => rfl

theorem heading_addAll (b : Builder) (is : List Instruction) :
    (b.addAll is).1.table.heading = b.table.heading := by
  induction is generalizing b with
  | nil => rfl
  | cons i is ih =>
    rw [addAll]
    split
    · exact b.heading_add i
    · rw [ih, heading_add]

/-- Calls write into a table, and leave what it says of itself. -/
theorem heading_callAll (b : Builder) (cs : List Call) :
    (b.callAll cs).table.heading = b.table.heading := by
  induction cs generalizing b with
  | nil => rfl
  | cons c cs ih =>
    show ((b.call c).1.callAll cs).table.heading = _
    rw [ih]
    cases c with
    | whole s is => exact heading_addAll (b.emit s.header) is
    | single i => exact heading_addAll b [i]

end Builder

/-- A table of an assembly bears the number that it was made for, and nothing has happened to it. -/
theorem RegionTable.heading_of_tabulate {a : Assembly} {index : LineIndex} {contract : String}
    {excluded : Option SourceRange} {generation : Int} {t : RegionTable}
    (h : (a.tabulate (Builder.new index contract excluded generation)).outcome = .ok t) :
    t.heading = (contract, generation, false, false) := by
  rw [Assembly.eq_of_tabulate h, Builder.heading_callAll]
  rfl

/-! ## Contracts and files -/

namespace Compilation

variable {index : LineIndex} {sources : Doc} {generation : Int} {file : String}

/-- A contract without assembly is left out; one with assembly gets its table. -/
theorem of_addContract {p q : Progress} {contract : String × Doc}
    (h : (addContract index sources generation file p contract).outcome = .ok q) :
    ∃ evm doc, contract.2.requireAt ["evm"] ("contracts." ++ file ++ "." ++ contract.1) = .ok evm ∧
      evm.getMember "legacyAssembly" = .ok doc ∧
      (doc.isBlank = true ∧ q = p ∨
        doc.isBlank = false ∧ ∃ tree excluded a t,
          sources.requireAt [file, "ast"] "sources" = .ok tree ∧
          declarationRange tree contract.1 = .ok excluded ∧
          Assembly.read doc ("contracts." ++ file ++ "." ++ contract.1 ++ ".evm.legacyAssembly") =
            .ok a ∧
          (a.tabulate (Builder.new index contract.1 excluded generation)).outcome = .ok t ∧
          q = ⟨p.tables.insert contract.1 t, p.selectors.insert contract.1
            ((evm.get "methodIdentifiers").orElse (.object []))⟩) := by
  obtain ⟨name, output⟩ := contract
  obtain ⟨evm, he, h⟩ := Traced.outcome_bind_eq_ok.mp h
  obtain ⟨doc, hd, h⟩ := Traced.outcome_bind_eq_ok.mp h
  refine ⟨evm, doc, Traced.outcome_lift_eq_ok.mp he, Traced.outcome_liftFault_eq_ok.mp hd, ?_⟩
  split at h
  · next hb => exact .inl ⟨hb, (Except.ok.inj h).symm⟩
  · next hb =>
    obtain ⟨tree, ht, h⟩ := Traced.outcome_bind_eq_ok.mp h
    obtain ⟨excluded, hx, h⟩ := Traced.outcome_bind_eq_ok.mp h
    obtain ⟨_, -, h⟩ := Traced.outcome_bind_eq_ok.mp h
    obtain ⟨a, ha, h⟩ := Traced.outcome_bind_eq_ok.mp h
    obtain ⟨t, htable, h⟩ := Traced.outcome_bind_eq_ok.mp h
    exact .inr ⟨Bool.eq_false_iff.mpr hb, tree, excluded, a, t, Traced.outcome_lift_eq_ok.mp ht,
      Traced.outcome_lift_eq_ok.mp hx, Traced.outcome_lift_eq_ok.mp ha, htable,
      (Except.ok.inj h).symm⟩

theorem of_addFile {P : Progress → Prop} {p q : Progress} {f : String × Doc}
    (hc : ∀ file p contract q, P p →
      (addContract index sources generation file p contract).outcome = .ok q → P q)
    (hp : P p) (h : (addFile index sources generation p f).outcome = .ok q) : P q := by
  unfold addFile at h
  split at h
  · exact Traced.of_outcome_foldlM (hc f.1) hp h
  · exact nomatch h

/-- A compilation is what is left of its files, with the number that it was made for. -/
theorem runBuild_cases {source : String} {output : Doc} {c : Compilation}
    (h : (runBuild source output generation).outcome = .ok c) :
    ∃ sources files p tree,
      (List.foldlM (addFile (.ofText source) sources generation) ⟨∅, ∅⟩ files).outcome = .ok p ∧
        c = ⟨p.tables, generation, tree, p.selectors⟩ := by
  obtain ⟨contracts, -, h⟩ := Traced.outcome_bind_eq_ok.mp h
  obtain ⟨sources, -, h⟩ := Traced.outcome_bind_eq_ok.mp h
  obtain ⟨files, -, h⟩ := Traced.outcome_bind_eq_ok.mp h
  obtain ⟨p, hp, h⟩ := Traced.outcome_bind_eq_ok.mp h
  obtain ⟨_, -, h⟩ := Traced.outcome_bind_eq_ok.mp h
  obtain ⟨infos, -, h⟩ := Traced.outcome_bind_eq_ok.mp h
  exact ⟨sources, files, p, primaryTree infos, hp, (Except.ok.inj h).symm⟩

/-- What holds of nothing yet and is kept by every contract, a compilation has. -/
theorem of_runBuild {P : Progress → Prop} {source : String} {output : Doc} {c : Compilation}
    (h₀ : P ⟨∅, ∅⟩)
    (hc : ∀ sources file p contract q, P p →
      (addContract (.ofText source) sources generation file p contract).outcome = .ok q → P q)
    (h : (runBuild source output generation).outcome = .ok c) : P ⟨c.tables, c.selectors⟩ := by
  obtain ⟨sources, files, p, tree, hp, rfl⟩ := runBuild_cases h
  exact Traced.of_outcome_foldlM (fun _ _ _ => of_addFile (hc sources)) h₀ hp

/-- What all tables have that an assembly gives, the tables of a compilation have. -/
theorem of_find?_runBuild {P : RegionTable → Prop} {source : String} {output : Doc}
    {c : Compilation}
    (ht : ∀ (a : Assembly) contract excluded t,
      (a.tabulate (Builder.new (.ofText source) contract excluded generation)).outcome = .ok t →
        P t)
    (h : (runBuild source output generation).outcome = .ok c) :
    ∀ contract t, c.find? contract = some t → P t := by
  refine of_runBuild (P := fun p => ∀ contract t, p.tables.find? contract = some t → P t) ?_ ?_ h
  · exact fun _ _ ht => nomatch ht
  · intro sources file p contract q hp hq
    obtain ⟨_, _, -, -, ⟨-, rfl⟩ | ⟨-, _, excluded, a, t, -, -, -, hta, rfl⟩⟩ := of_addContract hq
    · exact hp
    · intro d u hu
      rw [Ledger.find?_insert] at hu
      split at hu
      · obtain rfl := Option.some.inj hu
        exact ht a contract.1 excluded t hta
      · exact hp d u hu

/-- A compilation has the number that it was made for. -/
theorem generation_of_runBuild {source : String} {output : Doc} {c : Compilation}
    (h : (runBuild source output generation).outcome = .ok c) : c.generation = generation := by
  obtain ⟨_, _, _, _, -, rfl⟩ := runBuild_cases h
  rfl

end Compilation

end AsmLens
