import AsmLens.Proofs.Compilation.Shape
import AsmLens.Proofs.Gas.Moderate
import AsmLens.Proofs.Gas.Provenance
import AsmLens.View.Wire

/-!
# Tables that can be shown

A table is shown as rows of text or as a document. Rows have numbers in groups of digits and names in
columns, which is no fault as long as the gas is of moderate size and the names can be laid out.

* `Region.Showable`, `RegionTable.Showable` — regions and tables that can be shown
* `Region.Showable.exists_row`, `RegionTable.Showable.exists_functionRow` — their rows
* `RegionTable.showable_runMerge` — a table can be shown after a merge as before
* `Compilation.showable_runBuild` — the tables of a compilation can be shown
-/

namespace AsmLens

/-- A region whose gas is of moderate size, and whose function has a name for a column. -/
structure Region.Showable (r : Region) : Prop where
  gas : ∀ g, r.gas = some g → g.Moderate
  name : r.functionName.Alignable

/-- A table of regions that can be shown. -/
def RegionTable.Showable (t : RegionTable) : Prop := ∀ k r, t.find? k = some r → r.Showable

/-! ## Rows -/

theorem Gas.exists_amount {n : Option Number} (h : ∀ m, n = some m → m.Within 1021) :
    ∃ s, amount n = .ok s := by
  cases n with
  | none => exact ⟨"-", rfl⟩
  | some m => exact Number.exists_pretty ((h m rfl).mono (by decide))

theorem Doc.Alignable.exists_padded {d : Doc} (h : d.Alignable) (key : String) (width : Nat) :
    ∃ s, (d.orElse (.text key)).displayPadded width = .ok s := by
  unfold orElse
  split
  · exact ⟨_, rfl⟩
  · next hb => exact h.resolve_left hb width

theorem Region.Showable.exists_row {r : Region} (h : r.Showable) (on : Bool) :
    ∃ s, r.row on = .ok s := by
  have hgas : ∃ s, gasRow on r.gas = .ok s := by
    cases hg : r.gas with
    | none => exact ⟨"", rfl⟩
    | some g =>
      obtain ⟨s, hs⟩ := Gas.exists_amount (h.gas g hg).worstCase
      simp only [gasRow, hs, bind, Except.bind, pure, Except.pure]
      exact ⟨_, rfl⟩
  obtain ⟨s, hs⟩ := hgas
  simp only [row, hs, bind, Except.bind, pure, Except.pure]
  exact ⟨_, rfl⟩

namespace RegionTable

variable {t u : RegionTable}

theorem Showable.of_mem (h : t.Showable) {r : Region} (hr : r ∈ t.regions.values) : r.Showable := by
  obtain ⟨p, hp, rfl⟩ := List.mem_map.mp hr
  exact h p.1 p.2 (Ledger.find?_eq_some.mpr hp)

theorem Showable.exists_functionRow (h : t.Showable) {f : FunctionGas} (hf : f ∈ t.functionGas)
    (on : Bool) : ∃ s, functionRow on f = .ok s := by
  obtain ⟨r, hr, hrow⟩ := List.mem_filterMap.mp hf
  have hshow := h.of_mem (List.mem_mergeSort.mp hr)
  obtain ⟨g, hg, hrow⟩ := Option.bind_eq_some_iff.mp hrow
  obtain ⟨n, hn, hrow⟩ := Option.bind_eq_some_iff.mp hrow
  obtain rfl := Option.some.inj hrow
  obtain ⟨name, hname⟩ := hshow.name.exists_padded r.key 18
  obtain ⟨gas, hgas⟩ := Number.exists_pretty (((hshow.gas g hg).functionGas n hn).mono (by decide))
  simp only [functionRow, hname, hgas, bind, Except.bind, pure, Except.pure]
  exact ⟨_, rfl⟩

/-! ## Merging -/

theorem showable_runMerge {ms : Measurements} {tree ids : Doc} (ht : t.Showable)
    (htree : Syntax.Describes tree) (hms : ∀ m ∈ ms.creation ++ ms.runtime, m.2.Moderate)
    (h : (t.runMerge ms tree ids).outcome = .ok u) : u.Showable := by
  obtain ⟨-, labels, hl, rfl⟩ := merge_eq_ok.mp (of_runMerge h)
  intro k r hr
  rw [find?_attachAll] at hr
  obtain ⟨old, hold, rfl⟩ := Option.map_eq_some_iff.mp hr
  cases hs : Ledger.search k (ms.creation ++ ms.runtime).reverse with
  | none => exact ht k old hold
  | some g =>
    -- the region has the measurement under its key, and the label of the function there if any
    refine ⟨fun g' hg' => ?_, ?_⟩
    · obtain rfl : g = g' := Option.some.inj hg'
      exact hms (k, g) (List.mem_reverse.mp (Ledger.mem_of_search hs))
    · show Doc.Alignable (((if g.functionGas.isSome then labels.find? k else none).map
        FunctionLabel.name).getD .null)
      split
      · cases hk : labels.find? k with
        | none => exact .inl rfl
        | some label => exact alignable_of_functionIndex htree hl hk
      · exact .inl rfl

theorem showable_regionIn (ix : LineIndex) (o : Transcript) (r : SourceRange) :
    (regionIn ix o r).Showable :=
  ⟨fun _ hg => (nomatch hg), .inl rfl⟩

theorem showable_of_tabulate {a : Assembly} {ix : LineIndex} {contract : String}
    {excluded : Option SourceRange} {generation : Int}
    (h : (a.tabulate (Builder.new ix contract excluded generation)).outcome = .ok t) :
    t.Showable := by
  intro k r hr
  rw [Assembly.eq_of_tabulate h] at hr
  have hw := (Builder.Written.new ix contract excluded generation).callAll a.calls
  obtain ⟨s, -, -, rfl⟩ := hw.find?_eq_some.mp hr
  exact showable_regionIn ix _ s

end RegionTable

/-- The tables of a compilation can be shown. -/
theorem Compilation.showable_runBuild {source : String} {output : Doc} {generation : Int}
    {c : Compilation} (h : (runBuild source output generation).outcome = .ok c) :
    ∀ name t, c.find? name = some t → t.Showable :=
  of_find?_runBuild (fun _ _ _ _ => RegionTable.showable_of_tabulate) h

end AsmLens
