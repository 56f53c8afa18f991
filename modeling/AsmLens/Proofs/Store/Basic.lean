import AsmLens.Proofs.Compilation
import AsmLens.Proofs.Gas.Merge
import AsmLens.Store

/-!
# The operations of a store

A store is looked at through the tables that it finds, installed or replaced. A build installs the
compilation of its source, and a merge puts the merged table in the place of the installed one.

* `Compilation.unmeasured_updateTable`, `Compilation.stamp_of_runBuild` — what a store keeps of one
* `Store.find?_install`, `Store.find?_update`, `Store.resolve?_update` — what is found afterwards
* `Store.build_eq_ok` — when a build succeeds, and with which store
* `Store.of_merge`, `Store.merge_refused` — what a merge does, and when it is refused
-/

namespace AsmLens

/-! ## Compilations in a store -/

namespace Compilation

variable {c : Compilation} {contract : String} {t u : RegionTable}

/-- A compilation without the measurements of its tables. -/
def unmeasured (c : Compilation) : Compilation :=
  { c with tables := c.tables.mapValues fun _ => RegionTable.unmeasured }

/-- A merge changes nothing of a compilation but measurements. -/
theorem unmeasured_updateTable (ht : c.find? contract = some t)
    (hu : u.unmeasured = t.unmeasured) :
    (c.updateTable contract u).unmeasured = c.unmeasured := by
  have htables : (c.tables.update contract fun _ => u).mapValues (fun _ => RegionTable.unmeasured) =
      c.tables.mapValues fun _ => RegionTable.unmeasured := by
    refine Ledger.ext_find? (by simp) fun d _ => ?_
    rw [Ledger.find?_mapValues, Ledger.find?_mapValues, Ledger.find?_update]
    by_cases hd : d = contract
    · have ht : c.tables.find? d = some t := hd ▸ ht
      rw [if_pos hd, ht]
      exact congrArg some hu
    · rw [if_neg hd]
  exact congrArg (fun ts => { c with tables := ts }) htables

/-- The tables of a compilation that was just made bear its number already. -/
theorem stamp_of_runBuild {source : String} {output : Doc} {n : Nat}
    (h : (runBuild source output n).outcome = .ok c) : c.stamp n = c := by
  have htables : (c.tables.mapValues fun _ t => { t with generation := (n : Int) }) = c.tables := by
    refine Ledger.ext_find? (by simp) fun d _ => ?_
    rw [Ledger.find?_mapValues]
    cases hd : c.tables.find? d with
    | none => rfl
    | some t =>
      have hn : t.generation = n := by
        refine of_find?_runBuild (P := fun t => t.generation = n) (fun a _ _ t ht => ?_) h d t hd
        have hh := RegionTable.heading_of_tabulate ht
        simp only [RegionTable.heading, Prod.mk.injEq] at hh
        exact hh.2.1
      rw [Option.map_some, ← hn]
  have hn := generation_of_runBuild h
  show { c with generation := (n : Int), tables := c.tables.mapValues _ } = c
  rw [htables, ← hn]

end Compilation

namespace Store

variable {s s' : Store} {contract : String}

/-! ## Looking up -/

theorem resolve?_installed (s : Store) (contract : String) :
    s.resolve? ⟨s.generation, contract⟩ = s.find? contract :=
  if_pos rfl

theorem find?_eq_search (s : Store) (contract : String) :
    s.find? contract = Ledger.search contract s.tables := by
  rw [find?, tables]
  cases s.installed <;> rfl

theorem lookup_map_retire (g : Nat) (ps : List (String × RegionTable)) (r : TableRef) :
    (ps.map fun p => ((⟨g, p.1⟩ : TableRef), p.2.retire)).lookup r =
      if r.generation = g then (Ledger.search r.contract ps).map RegionTable.retire else none := by
  obtain ⟨g', contract⟩ := r
  induction ps with
  | nil => simp [Ledger.search]
  | cons p ps ih =>
    rw [List.map_cons, List.lookup_cons, ih, Ledger.search]
    by_cases hg : g' = g
    · by_cases hp : p.1 = contract
      · simp [hg, hp]
      · have hne : ((⟨g, contract⟩ : TableRef) == ⟨g, p.1⟩) = false := by simp [Ne.symm hp]
        simp [hg, hp, hne]
    · have hne : ((⟨g', contract⟩ : TableRef) == ⟨g, p.1⟩) = false := by simp [hg]
      simp [hg, hne]

@[simp] theorem generation_update (s : Store) (r : TableRef) (u : RegionTable) :
    (s.update r u).generation = s.generation := by
  unfold update
  split <;> rfl

theorem find?_update (s : Store) (contract : String) (u : RegionTable) (d : String) :
    (s.update ⟨s.generation, contract⟩ u).find? d =
      if d = contract then (s.find? d).map fun _ => u else s.find? d := by
  rw [update, if_pos rfl, find?, find?]
  cases s.installed with
  | none => exact (ite_self none).symm
  | some c => exact Ledger.find?_update c.tables contract d fun _ => u

/-- A change of an installed table changes what its own reference means. -/
theorem resolve?_update (s : Store) (contract : String) (u : RegionTable) (r : TableRef) :
    (s.update ⟨s.generation, contract⟩ u).resolve? r =
      if r = ⟨s.generation, contract⟩ then (s.resolve? r).map fun _ => u else s.resolve? r := by
  obtain ⟨g, d⟩ := r
  rw [resolve?, generation_update, find?_update, resolve?]
  by_cases hg : g = s.generation
  · simp [hg]
  · have harchive : (s.update ⟨s.generation, contract⟩ u).archive = s.archive := by
      rw [update, if_pos rfl]
    simp [hg, harchive]

/-! ## Installing -/

/-- The installed tables bear the number of the installed generation. -/
def Stamped (s : Store) : Prop := ∀ c t, s.find? c = some t → t.generation = s.generation

theorem find?_install (s : Store) (c : Compilation) (digest : Option String) (d : String) :
    (s.install c digest).find? d =
      (c.find? d).map fun t => { t with generation := (s.nextGeneration : Int) } :=
  Ledger.find?_mapValues c.tables _ d

theorem stamped_install (s : Store) (c : Compilation) (digest : Option String) :
    (s.install c digest).Stamped := by
  intro d u hu
  rw [find?_install] at hu
  obtain ⟨t, -, rfl⟩ := Option.map_eq_some_iff.mp hu
  rfl

theorem build_eq_ok {source : String} {output : Doc} :
    s.build source output = .ok s' ↔
      ∃ c, (Compilation.runBuild source output s.nextGeneration).outcome = .ok c ∧
        s' = s.install c (some (sourceDigest source)) := by
  constructor
  · intro h
    obtain ⟨c, hc, h⟩ := Traced.outcome_bind_eq_ok.mp h
    obtain ⟨_, -, h⟩ := Traced.outcome_bind_eq_ok.mp h
    exact ⟨c, hc, (Except.ok.inj h).symm⟩
  · rintro ⟨c, hc, rfl⟩
    exact Traced.outcome_bind_eq_ok.mpr ⟨c, hc, rfl⟩

/-! ## Merging -/

/-- Gas that was asked for in another generation is refused. -/
theorem runMerge_stale {ms : Measurements} {generation : Int} (h : generation ≠ s.generation) :
    (s.runMerge contract ms generation).outcome =
      .error (.problem (.staleGeneration contract generation s.generation)) := by
  have ht : s.target contract generation =
      .error (.staleGeneration contract generation s.generation) := by
    unfold target
    cases s.installed with
    | none => rfl
    | some c => exact if_pos h
  rw [runMerge, ht]
  rfl

/-- A merge of the store is one of the installed table of its contract. -/
theorem of_merge {ms : Measurements} {generation : Int}
    (h : s.merge contract ms generation = .ok s') :
    generation = s.generation ∧ ∃ c t u, s.installed = some c ∧ s.find? contract = some t ∧
      t.merge ms c.tree (c.selectorsOf contract) = .ok u ∧
      s' = s.update ⟨s.generation, contract⟩ u := by
  obtain ⟨⟨c, t⟩, ht, h⟩ := Traced.outcome_bind_eq_ok.mp h
  obtain ⟨u, hu, h⟩ := Traced.outcome_bind_eq_ok.mp h
  obtain rfl := Except.ok.inj h
  obtain ⟨hc, hg, ht⟩ := target_eq_ok.mp (Traced.outcome_lift_eq_ok.mp ht)
  refine ⟨hg, c, t, u, hc, ?_, RegionTable.of_runMerge hu, ?_⟩
  · rw [find?, hc]
    exact ht
  · rw [update, if_pos rfl, hc]
    rfl

/-- A merge keeps the generation, the digest, and all of the compilation but its measurements. -/
theorem kept_merge {ms : Measurements} {generation : Int}
    (h : s.merge contract ms generation = .ok s') :
    s'.generation = s.generation ∧ s'.digest = s.digest ∧
      s'.installed.map Compilation.unmeasured = s.installed.map Compilation.unmeasured := by
  obtain ⟨-, c, t, u, hc, ht, hu, rfl⟩ := of_merge h
  refine ⟨generation_update .., ?_, ?_⟩
  · rw [update, if_pos rfl]
  · rw [find?, hc] at ht
    rw [update, if_pos rfl, hc]
    exact congrArg some (Compilation.unmeasured_updateTable ht (RegionTable.unmeasured_merge hu))

/-- Gas for another generation, or for a contract that is not installed, is refused as stale. -/
theorem merge_refused (ms : Measurements) {generation : Int}
    (h : generation ≠ s.generation ∨ s.find? contract = none) :
    ∃ p, s.merge contract ms generation = .error (.problem p) ∧ p.report.kind = .stale := by
  by_cases hg : generation = s.generation
  · have hf : s.find? contract = none := h.resolve_left (not_not_intro hg)
    cases hc : s.installed with
    | none =>
      have ht : s.target contract generation =
          .error (.staleGeneration contract generation s.generation) := by
        rw [target, hc]
      exact ⟨_, by rw [merge, runMerge, ht]; rfl, rfl⟩
    | some c =>
      rw [find?, hc] at hf
      have hf : c.find? contract = none := hf
      have ht : s.target contract generation =
          .error (.contractGone contract generation s.generation) := by
        rw [target, hc]
        simp [hg, hf]
      exact ⟨_, by rw [merge, runMerge, ht]; rfl, rfl⟩
  · exact ⟨_, runMerge_stale hg, rfl⟩

end Store

end AsmLens
