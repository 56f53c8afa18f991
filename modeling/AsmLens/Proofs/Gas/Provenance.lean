import AsmLens.Proofs.Store.Basic

/-!
# Where gas comes from

A table that was just made carries no gas, and a merge brings gas from its measurements only, each
record to the region under its own key. So the gas of the installed tables comes from the merges
since the compilation was installed.

* `RegionTable.Carries`, `Store.Carries` — that there is gas under a key
* `RegionTable.carries_attachAll` — after a merge it was there before, or is one of the measurements
* `Store.of_runBuild`, `Store.of_runMerge` — the same for stores
-/

namespace AsmLens

namespace RegionTable

variable {t u : RegionTable} {k : String} {g : GasRecord} {labels : Ledger String FunctionLabel}

/-- That a table has a record of gas under a key. -/
def Carries (t : RegionTable) (k : String) (g : GasRecord) : Prop :=
  ∃ r, t.find? k = some r ∧ r.gas = some g

/-! ## Merging -/

/-- A measurement goes to the region under its key, and to no other. -/
theorem carries_attach {m : String × GasRecord} (h : (t.attach labels m).Carries k g) :
    t.Carries k g ∨ (k, g) = m := by
  obtain ⟨r, hr, hg⟩ := h
  rw [find?, attach, Ledger.find?_update] at hr
  split at hr
  · next hk =>
    obtain ⟨r, -, rfl⟩ := Option.map_eq_some_iff.mp hr
    exact .inr (Prod.ext hk (Option.some.inj hg).symm)
  · exact .inl ⟨r, hr, hg⟩

/-- After a merge there is the gas that was there before, and gas of the measurements. -/
theorem carries_attachAll {ms : Measurements} (h : (t.attachAll labels ms).Carries k g) :
    t.Carries k g ∨ (k, g) ∈ ms.creation ++ ms.runtime := by
  have fold : ∀ (l : List (String × GasRecord)) (t : RegionTable),
      (l.foldl (attach labels) t).Carries k g → t.Carries k g ∨ (k, g) ∈ l := by
    intro l
    induction l with
    | nil => exact fun t h => .inl h
    | cons m l ih =>
      intro t h
      rcases ih _ h with h | h
      · rcases carries_attach h with h | rfl
        · exact .inl h
        · exact .inr List.mem_cons_self
      · exact .inr (List.mem_cons_of_mem _ h)
  exact fold _ t h

/-! ## Tables that were just made -/

/-- A table of an assembly carries no gas. -/
theorem not_carries_of_tabulate {a : Assembly} {ix : LineIndex} {contract : String}
    {excluded : Option SourceRange} {generation : Int}
    (h : (a.tabulate (Builder.new ix contract excluded generation)).outcome = .ok t) :
    ¬t.Carries k g := by
  rintro ⟨r, hr, hg⟩
  rw [Assembly.eq_of_tabulate h] at hr
  have hw := (Builder.Written.new ix contract excluded generation).callAll a.calls
  obtain ⟨s, -, -, rfl⟩ := hw.find?_eq_some.mp hr
  exact nomatch hg

end RegionTable

/-! ## Compilations -/

namespace Compilation

/-- That no table of a ledger carries gas. -/
def Bare (ts : Ledger String RegionTable) : Prop :=
  ∀ c t, ts.find? c = some t → ∀ k g, ¬t.Carries k g

/-- The tables of a compilation that was just made carry no gas. -/
theorem bare_of_runBuild {source : String} {output : Doc} {generation : Int} {c : Compilation}
    (h : (runBuild source output generation).outcome = .ok c) : Bare c.tables :=
  of_find?_runBuild (P := fun t => ∀ k g, ¬t.Carries k g)
    (fun _ _ _ _ ht _ _ => RegionTable.not_carries_of_tabulate ht) h

end Compilation

/-! ## Stores -/

namespace Store

variable {s s' : Store} {contract k : String} {g : GasRecord}

/-- That the installed table of a contract has a record of gas under a key. -/
def Carries (s : Store) (contract k : String) (g : GasRecord) : Prop :=
  ∃ t, s.find? contract = some t ∧ t.Carries k g

/-- A compilation that was just installed has a new number and no gas. -/
theorem of_runBuild {source : String} {output : Doc}
    (h : (s.runBuild source output).outcome = .ok s') :
    s'.generation = s.generation + 1 ∧ s'.Stamped ∧ ∀ c k g, ¬s'.Carries c k g := by
  obtain ⟨c, hc, rfl⟩ := build_eq_ok.mp h
  refine ⟨rfl, s.stamped_install c _, ?_⟩
  rintro d k g ⟨u, hu, hg⟩
  rw [find?_install] at hu
  obtain ⟨t, ht, rfl⟩ := Option.map_eq_some_iff.mp hu
  exact Compilation.bare_of_runBuild hc d t ht k g hg

/-- A merge goes to the table of its contract in the installed generation. -/
theorem of_runMerge {ms : Measurements} {generation : Int}
    (h : (s.runMerge contract ms generation).outcome = .ok s') :
    generation = s.generation ∧ s'.generation = s.generation ∧ (s.Stamped → s'.Stamped) ∧
      ∀ c k g, s'.Carries c k g →
        s.Carries c k g ∨ c = contract ∧ (k, g) ∈ ms.creation ++ ms.runtime := by
  obtain ⟨hg, c, t, u, -, ht, hu, rfl⟩ := of_merge h
  -- one table is replaced by its merge, and the others are the ones that were there
  have found : ∀ d v, (s.update ⟨s.generation, contract⟩ u).find? d = some v →
      d = contract ∧ v = u ∨ s.find? d = some v := by
    intro d v hv
    rw [find?_update] at hv
    split at hv
    · next hd =>
      obtain ⟨-, -, rfl⟩ := Option.map_eq_some_iff.mp hv
      exact .inl ⟨hd, rfl⟩
    · exact .inr hv
  refine ⟨hg, generation_update .., fun hstamp d v hv => ?_, ?_⟩
  · rw [generation_update]
    rcases found d v hv with ⟨-, rfl⟩ | hv
    · rw [show v.generation = t.generation from
        congrArg (fun w => w.generation) (RegionTable.unmeasured_merge hu)]
      exact hstamp contract t ht
    · exact hstamp d v hv
  · obtain ⟨-, labels, -, rfl⟩ := RegionTable.merge_eq_ok.mp hu
    rintro d k g ⟨v, hv, hk⟩
    rcases found d v hv with ⟨rfl, rfl⟩ | hv
    · rcases RegionTable.carries_attachAll hk with hk | hk
      · exact .inl ⟨t, ht, hk⟩
      · exact .inr ⟨rfl, hk⟩
    · exact .inl ⟨v, hv, hk⟩

end Store

end AsmLens
