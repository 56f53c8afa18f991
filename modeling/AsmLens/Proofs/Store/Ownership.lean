import AsmLens.Proofs.Store.Basic

/-!
# Generations own their tables

A table belongs to the generation that it was installed in. While this generation is the current
one, the table is not retired and bears its number; with the next one it is retired, and from then
on it stays as it is, whatever is done to the store or to the table itself.

* `Store.Operation`, `Store.run` — what can be done to a store, and to tables that a reader holds
* `Store.renewed_of_renews`, `Store.change_of_not_renews` — all that one operation does
* `Store.Owned` — what each operation keeps
* `Store.generations_own_tables` — what holds of every run
-/

namespace AsmLens

/-- That a compilation can be installed: none of its tables has been replaced. -/
def Compilation.Fresh (c : Compilation) : Prop :=
  ∀ contract t, c.find? contract = some t → t.retired = false

theorem Compilation.fresh_of_runBuild {source : String} {output : Doc} {generation : Int}
    {c : Compilation} (h : (runBuild source output generation).outcome = .ok c) : c.Fresh := by
  refine of_find?_runBuild (fun a contract excluded t ht => ?_) h
  have hh := RegionTable.heading_of_tabulate ht
  simp only [RegionTable.heading, Prod.mk.injEq] at hh
  exact hh.2.2.2

namespace RegionTable

variable {t u : RegionTable}

theorem retire_of_retired (h : t.retired = true) : t.retire = t := by
  unfold retire
  rw [← h]

theorem unmeasured_retire_congr (h : u.unmeasured = t.unmeasured) :
    u.retire.unmeasured = t.retire.unmeasured :=
  congrArg retire h

/-- A table is what it is but for its retirement, and its retirement. -/
theorem unmeasured_eq_of_retire (h : u.retire.unmeasured = t.retire.unmeasured)
    (hr : u.retired = t.retired) : u.unmeasured = t.unmeasured := by
  have hset := congrArg (fun v => { v with retired := u.retired }) h
  rw [show t.unmeasured = { t.retire.unmeasured with retired := u.retired } by rw [hr]; rfl]
  exact hset

end RegionTable

namespace Store

variable {s s' : Store} {r : TableRef} {t u : RegionTable} {contract : String}

/-! ## Operations -/

/-- The store with a survey merged into a table that a reader holds. -/
def mergeInto (s : Store) (r : TableRef) (x : Survey) : Result Store :=
  match s.resolve? r with
  | none => .ok s
  | some t => do return s.update r (← t.merge x.measurements x.tree x.ids)

/-- Gas that is attached without a store comes without a tree and without selectors. -/
theorem mergeHeld_eq (s : Store) (r : TableRef) (ms : Measurements) :
    s.mergeHeld r ms = s.mergeInto r ⟨ms, .null, .null⟩ := rfl

/-- What can be done to a store and to its tables. -/
inductive Operation
  /-- A source compiled and its compilation installed. -/
  | build (source : String) (output : Doc)
  /-- A fresh compilation installed that was made elsewhere. -/
  | replace (c : Compilation) (fresh : c.Fresh) (digest : Option String)
  | clear
  /-- Gas for a contract, asked for in a generation. -/
  | merge (contract : String) (ms : Measurements) (generation : Int)
  /-- Gas for a table that a reader holds, whether or not it is still installed. -/
  | mergeInto (r : TableRef) (x : Survey)

/-- The store after an operation, if it succeeds. -/
def attempt (s : Store) : Operation → Result Store
  | .build source output => s.build source output
  | .replace c _ digest => .ok (s.install c digest)
  | .clear => .ok s.clear
  | .merge contract ms generation => s.merge contract ms generation
  | .mergeInto r x => s.mergeInto r x

/-- The store after an operation; one that fails leaves it. -/
def step (s : Store) (o : Operation) : Store :=
  match s.attempt o with
  | .ok s' => s'
  | .error _ => s

/-- The store after some operations. -/
def run (s : Store) (os : List Operation) : Store := os.foldl step s

/-- That an operation begins a generation: a build that succeeds, a replacement or a clearing. -/
def Renews (s : Store) : Operation → Prop
  | .build source output => ∃ s', s.build source output = .ok s'
  | .replace .. | .clear => True
  | .merge .. | .mergeInto .. => False

theorem run_append (s : Store) (os os' : List Operation) :
    s.run (os ++ os') = (s.run os).run os' :=
  List.foldl_append

theorem step_of_ok {o : Operation} (h : s.attempt o = .ok s') : s.step o = s' := by
  rw [step, h]

theorem step_of_error {o : Operation} {e : Failure} (h : s.attempt o = .error e) :
    s.step o = s := by
  rw [step, h]

/-! ## One operation -/

/-- That a generation was begun: the installed tables were retired, and others took their place. -/
structure Renewed (s s' : Store) : Prop where
  generation : s'.generation = s.generation + 1
  archive : s'.archive = s.archived
  live : ∀ c t, s'.find? c = some t → t.retired = false
  stamped : s'.Stamped

/-- That at most one installed table was merged. -/
inductive Change (s : Store) : Store → Prop
  | none : Change s s
  | merged {contract : String} {t u : RegionTable} {x : Survey} (found : s.find? contract = some t)
      (merge : t.merge x.measurements x.tree x.ids = .ok u) :
      Change s (s.update ⟨s.generation, contract⟩ u)

theorem renewed_install (s : Store) {c : Compilation} (hc : c.Fresh) (digest : Option String) :
    s.Renewed (s.install c digest) := by
  refine ⟨rfl, rfl, fun d u hu => ?_, s.stamped_install c digest⟩
  rw [find?_install] at hu
  obtain ⟨t, ht, rfl⟩ := Option.map_eq_some_iff.mp hu
  exact hc d t ht

theorem renewed_clear (s : Store) : s.Renewed s.clear :=
  ⟨rfl, rfl, fun _ _ h => (nomatch h), fun _ _ h => (nomatch h)⟩

/-- Gas for a table that a reader holds goes to this table, if it is there at all. -/
theorem of_mergeInto {x : Survey} (h : s.mergeInto r x = .ok s') :
    s.resolve? r = none ∧ s' = s ∨ ∃ t u, s.resolve? r = some t ∧
      t.merge x.measurements x.tree x.ids = .ok u ∧ s' = s.update r u := by
  unfold mergeInto at h
  split at h
  · next hr => exact .inl ⟨hr, (Except.ok.inj h).symm⟩
  · next t hr =>
    cases hm : t.merge x.measurements x.tree x.ids with
    | error e =>
      rw [hm] at h
      exact nomatch h
    | ok u =>
      rw [hm] at h
      exact .inr ⟨t, u, hr, hm, (Except.ok.inj h).symm⟩

/-- An operation that begins a generation puts fresh tables in place of the installed ones. -/
theorem renewed_of_renews {o : Operation} (h : s.Renews o) : s.Renewed (s.step o) := by
  cases o with
  | build source output =>
    obtain ⟨s', hs'⟩ := h
    rw [step_of_ok (o := .build source output) hs']
    obtain ⟨c, hc, rfl⟩ := build_eq_ok.mp hs'
    exact s.renewed_install (Compilation.fresh_of_runBuild hc) _
  | replace c fresh digest => exact s.renewed_install fresh digest
  | clear => exact s.renewed_clear
  | merge _ _ _ => exact h.elim
  | mergeInto _ _ => exact h.elim

namespace Change

theorem generation_eq (h : s.Change s') : s'.generation = s.generation := by
  cases h with
  | none => rfl
  | merged _ _ => exact generation_update ..

/-- The tables of other generations are left. -/
theorem resolve?_of_ne (h : s.Change s') (hr : r.generation ≠ s.generation) :
    s'.resolve? r = s.resolve? r := by
  cases h with
  | none => rfl
  | @merged contract _ u _ _ _ =>
    have hne : r ≠ ⟨s.generation, contract⟩ := by
      rintro rfl
      exact hr rfl
    rw [resolve?_update, if_neg hne]

/-- No table is lost, and nothing of any but measurements changes. -/
theorem exists_resolve? (h : s.Change s') (hr : s.resolve? r = some t) :
    ∃ u, s'.resolve? r = some u ∧ u.unmeasured = t.unmeasured := by
  cases h with
  | none => exact ⟨t, hr, rfl⟩
  | @merged contract t' u x found merge =>
    by_cases he : r = ⟨s.generation, contract⟩
    · subst he
      rw [resolve?_installed, found] at hr
      obtain rfl := Option.some.inj hr
      refine ⟨u, ?_, RegionTable.unmeasured_merge merge⟩
      rw [resolve?_update, if_pos rfl, resolve?_installed, found]
      rfl
    · refine ⟨t, ?_, rfl⟩
      rw [resolve?_update, if_neg he]
      exact hr

end Change

/-! ## The invariant -/

/-- That installed tables are the current generation's, and replaced ones are retired. -/
structure Owned (s : Store) : Prop where
  live : ∀ c t, s.find? c = some t → t.retired = false
  stamped : s.Stamped
  replaced : ∀ r t, s.archive.lookup r = some t → r.generation < s.generation ∧ t.retired = true

namespace Owned

theorem empty : Owned ∅ :=
  ⟨fun _ _ h => (nomatch h), fun _ _ h => (nomatch h), fun _ _ h => (nomatch h)⟩

/-- A reference to a table is to the current generation or to one before it. -/
theorem of_resolve? (h : s.Owned) (hr : s.resolve? r = some t) :
    r.generation = s.generation ∧ s.find? r.contract = some t ∧ t.retired = false ∨
      r.generation < s.generation ∧ t.retired = true := by
  unfold resolve? at hr
  split at hr
  · next hg => exact .inl ⟨hg, hr, h.live _ t hr⟩
  · exact .inr (h.replaced r t hr)

/-- The archive to come: what references mean now, retired. -/
theorem lookup_archived (h : s.Owned) (r : TableRef) :
    s.archived.lookup r = (s.resolve? r).map RegionTable.retire := by
  rw [archived, List.lookup_append, lookup_map_retire, ← find?_eq_search, resolve?]
  by_cases hg : r.generation = s.generation
  · -- the archive has older generations only
    have hnone : s.archive.lookup r = none := by
      cases hl : s.archive.lookup r with
      | none => rfl
      | some t => exact absurd hg (Nat.ne_of_lt (h.replaced r t hl).1)
    rw [hnone, if_pos hg, if_pos hg]
    rfl
  · rw [if_neg hg, if_neg hg]
    cases hl : s.archive.lookup r with
    | none => rfl
    | some t =>
      rw [Option.map_some, RegionTable.retire_of_retired (h.replaced r t hl).2]
      rfl

/-- The tables of older generations are where they were, and retired. -/
theorem resolve?_renewed (h : s.Owned) (hs : s.Renewed s') (hr : r.generation ≠ s'.generation) :
    s'.resolve? r = (s.resolve? r).map RegionTable.retire := by
  rw [resolve?, if_neg hr, hs.archive, h.lookup_archived]

theorem renewed (h : s.Owned) (hs : s.Renewed s') : s'.Owned where
  live := hs.live
  stamped := hs.stamped
  replaced := by
    intro r t hl
    rw [hs.archive, h.lookup_archived] at hl
    obtain ⟨u, hu, rfl⟩ := Option.map_eq_some_iff.mp hl
    refine ⟨?_, rfl⟩
    rw [hs.generation]
    rcases h.of_resolve? hu with ⟨hg, -⟩ | ⟨hg, -⟩ <;> omega

/-- All that an operation does which begins no generation: a retired table cannot be merged. -/
theorem change_of_not_renews (h : s.Owned) {o : Operation} (hn : ¬s.Renews o) :
    s.Change (s.step o) := by
  cases ha : s.attempt o with
  | error e =>
    rw [step_of_error ha]
    exact .none
  | ok s' =>
    rw [step_of_ok ha]
    cases o with
    | build source output => exact absurd ⟨s', ha⟩ hn
    | replace c fresh digest => exact absurd trivial hn
    | clear => exact absurd trivial hn
    | merge contract ms generation =>
      obtain ⟨-, c, t, u, -, ht, hu, rfl⟩ := of_merge ha
      exact .merged (x := ⟨ms, c.tree, c.selectorsOf contract⟩) ht hu
    | mergeInto r x =>
      rcases of_mergeInto ha with ⟨-, rfl⟩ | ⟨t, u, ht, hu, rfl⟩
      · exact .none
      · rcases h.of_resolve? ht with ⟨hg, hf, -⟩ | ⟨-, hr⟩
        · rw [show r = ⟨s.generation, r.contract⟩ by rw [← hg]]
          exact .merged hf hu
        · rw [RegionTable.merge_of_retired hr] at hu
          exact nomatch hu

theorem change (h : s.Owned) (hs : s.Change s') : s'.Owned := by
  -- what is installed now, was installed before, but for its measurements
  have before : ∀ d v, s'.find? d = some v →
      ∃ t, s.find? d = some t ∧ v.unmeasured = t.unmeasured := by
    intro d v hv
    cases hs with
    | none => exact ⟨v, hv, rfl⟩
    | @merged contract t u x found merge =>
      rw [find?_update] at hv
      split at hv
      · next hd =>
        obtain ⟨-, -, rfl⟩ := Option.map_eq_some_iff.mp hv
        exact ⟨t, hd ▸ found, RegionTable.unmeasured_merge merge⟩
      · exact ⟨v, hv, rfl⟩
  have harchive : s'.archive = s.archive := by
    cases hs with
    | none => rfl
    | merged _ _ => rw [update, if_pos rfl]
  refine ⟨fun d v hv => ?_, fun d v hv => ?_, ?_⟩
  · obtain ⟨t, ht, he⟩ := before d v hv
    have hretired : v.retired = t.retired := congrArg (fun w => w.retired) he
    rw [hretired]
    exact h.live d t ht
  · obtain ⟨t, ht, he⟩ := before d v hv
    have hgeneration : v.generation = t.generation := congrArg (fun w => w.generation) he
    rw [hgeneration, hs.generation_eq]
    exact h.stamped d t ht
  · rw [harchive, hs.generation_eq]
    exact h.replaced

theorem step (h : s.Owned) (o : Operation) : (s.step o).Owned := by
  by_cases hn : s.Renews o
  · exact h.renewed (renewed_of_renews hn)
  · exact h.change (h.change_of_not_renews hn)

/-- **Generations own their tables after every run.** -/
theorem run (h : s.Owned) (os : List Operation) : (s.run os).Owned := by
  induction os generalizing s with
  | nil => exact h
  | cons o os ih => exact ih (h.step o)

/-! ## Generations -/

theorem le_generation_step (h : s.Owned) (o : Operation) :
    s.generation ≤ (s.step o).generation := by
  by_cases hn : s.Renews o
  · rw [(renewed_of_renews hn).generation]
    exact Nat.le_succ _
  · exact Nat.le_of_eq (h.change_of_not_renews hn).generation_eq.symm

theorem le_generation_run (h : s.Owned) (os : List Operation) :
    s.generation ≤ (s.run os).generation := by
  induction os generalizing s with
  | nil => exact Nat.le_refl _
  | cons o os ih => exact Nat.le_trans (h.le_generation_step o) (ih (h.step o))

/-! ## One table through a run -/

theorem resolve?_step_of_lt (h : s.Owned) (hg : r.generation < s.generation)
    (hr : s.resolve? r = some t) (o : Operation) : (s.step o).resolve? r = some t := by
  have ht : t.retired = true := by
    rcases h.of_resolve? hr with ⟨he, -⟩ | ⟨-, ht⟩
    · omega
    · exact ht
  by_cases hn : s.Renews o
  · have hs := renewed_of_renews hn
    have hne : r.generation ≠ (s.step o).generation := by
      rw [hs.generation]
      omega
    rw [h.resolve?_renewed hs hne, hr, Option.map_some, RegionTable.retire_of_retired ht]
  · rw [(h.change_of_not_renews hn).resolve?_of_ne (Nat.ne_of_lt hg)]
    exact hr

theorem resolve?_run_of_lt (h : s.Owned) (hg : r.generation < s.generation)
    (hr : s.resolve? r = some t) (os : List Operation) : (s.run os).resolve? r = some t := by
  induction os generalizing s with
  | nil => exact hr
  | cons o os ih =>
    exact ih (h.step o) (Nat.lt_of_lt_of_le hg (h.le_generation_step o))
      (h.resolve?_step_of_lt hg hr o)

/-- A table is not lost, and nothing of it changes but its measurements and its retirement. -/
theorem exists_resolve?_step (h : s.Owned) (hr : s.resolve? r = some t) (o : Operation) :
    ∃ u, (s.step o).resolve? r = some u ∧ u.retire.unmeasured = t.retire.unmeasured := by
  by_cases hn : s.Renews o
  · have hs := renewed_of_renews hn
    have hne : r.generation ≠ (s.step o).generation := by
      rw [hs.generation]
      rcases h.of_resolve? hr with ⟨hg, -⟩ | ⟨hg, -⟩ <;> omega
    refine ⟨t.retire, ?_, rfl⟩
    rw [h.resolve?_renewed hs hne, hr]
    rfl
  · obtain ⟨u, hu, he⟩ := (h.change_of_not_renews hn).exists_resolve? hr
    exact ⟨u, hu, RegionTable.unmeasured_retire_congr he⟩

theorem exists_resolve?_run (h : s.Owned) (hr : s.resolve? r = some t) (os : List Operation) :
    ∃ u, (s.run os).resolve? r = some u ∧ u.retire.unmeasured = t.retire.unmeasured := by
  induction os generalizing s t with
  | nil => exact ⟨t, hr, rfl⟩
  | cons o os ih =>
    obtain ⟨u, hu, he⟩ := h.exists_resolve?_step hr o
    obtain ⟨v, hv, he'⟩ := ih (h.step o) hu
    exact ⟨v, hv, he'.trans he⟩

end Owned

/--
**Generations own their tables.** After any run of a store, of whatever operations, and whatever
is done next:

* a build that succeeds, a replacement and a clearing begin the next generation, and nothing else
  does; a build that fails leaves the store;
* the installed tables are not retired and bear the number of the current generation;
* an installed table stays installed as long as its generation is current, and from then on is
  retired, cannot be merged and stays as it is;
* gas is refused as stale for another generation than the current one, or for a contract that is
  not installed, and so is gas that was asked for before a new generation began;
* gas that is taken changes the table of its contract, and no other table.
-/
theorem generations_own_tables {os : List Operation} (h : run ∅ os = s) :
    (∀ o, (s.Renews o → (s.step o).generation = s.generation + 1) ∧
      (¬s.Renews o → (s.step o).generation = s.generation)) ∧
    (∀ source output e, s.build source output = .error e → s.step (.build source output) = s) ∧
    (∀ contract t, s.find? contract = some t →
      t.retired = false ∧ t.generation = s.generation ∧
      ∀ os', ((s.run os').generation = s.generation →
          ∃ u, (s.run os').find? contract = some u ∧ u.unmeasured = t.unmeasured) ∧
        ((s.run os').generation ≠ s.generation →
          ∃ u, u.retired = true ∧ u.unmeasured = t.retire.unmeasured ∧
            (∀ ms tree ids, ∃ p, u.merge ms tree ids = .error (.problem p) ∧
              p.report.kind = .stale) ∧
            ∀ os'', ((s.run os').run os'').resolve? ⟨s.generation, contract⟩ = some u)) ∧
    (∀ contract ms (generation : Int), generation ≠ s.generation ∨ s.find? contract = none →
      (∃ p, s.merge contract ms generation = .error (.problem p) ∧ p.report.kind = .stale) ∧
        s.step (.merge contract ms generation) = s) ∧
    (∀ os' o os'' contract ms, (s.run os').Renews o →
      ∃ p, (((s.run os').step o).run os'').merge contract ms s.generation =
        .error (.problem p) ∧ p.report.kind = .stale) ∧
    ∀ contract ms (generation : Int) s', s.merge contract ms generation = .ok s' →
      generation = s.generation ∧ s'.generation = s.generation ∧ s'.digest = s.digest ∧
      (∃ c t u, s.installed = some c ∧ c.find? contract = some t ∧
        t.merge ms c.tree (c.selectorsOf contract) = .ok u ∧
        s'.installed = some (c.updateTable contract u) ∧ s'.find? contract = some u) ∧
      ∀ r, r ≠ ⟨s.generation, contract⟩ → s'.resolve? r = s.resolve? r := by
  have hs : s.Owned := h ▸ Owned.empty.run os
  refine ⟨fun o => ⟨fun hn => (renewed_of_renews hn).generation,
    fun hn => (hs.change_of_not_renews hn).generation_eq⟩, ?_, ?_, ?_, ?_, ?_⟩
  · intro source output e he
    exact step_of_error (o := .build source output) he
  · intro contract t ht
    refine ⟨hs.live contract t ht, hs.stamped contract t ht, fun os' => ?_⟩
    have hs' := hs.run os'
    obtain ⟨u, hu, he⟩ := hs.exists_resolve?_run ((s.resolve?_installed contract).trans ht) os'
    constructor
    · intro hg
      rw [← hg, resolve?_installed] at hu
      refine ⟨u, hu, RegionTable.unmeasured_eq_of_retire he ?_⟩
      rw [hs'.live contract u hu, hs.live contract t ht]
    · intro hg
      obtain ⟨hlt, hr⟩ := (hs'.of_resolve? hu).resolve_left fun hc => hg hc.1.symm
      rw [RegionTable.retire_of_retired hr] at he
      refine ⟨u, hr, he, fun ms tree ids => ?_, fun os'' => hs'.resolve?_run_of_lt hlt hu os''⟩
      exact ⟨_, RegionTable.merge_of_retired hr, rfl⟩
  · intro contract ms generation hn
    obtain ⟨p, hp, hk⟩ := merge_refused ms hn
    exact ⟨⟨p, hp, hk⟩, step_of_error (o := .merge contract ms generation) hp⟩
  · intro os' o os'' contract ms hn
    -- the number only grows, and it grew at least once
    have h₁ := hs.le_generation_run os'
    have h₂ := (renewed_of_renews hn).generation
    have h₃ := ((hs.run os').step o).le_generation_run os''
    exact merge_refused ms (.inl (by omega))
  · intro contract ms generation s' hm
    obtain ⟨hg, c, t, u, hc, ht, hu, rfl⟩ := of_merge hm
    refine ⟨hg, generation_update .., ?_, ⟨c, t, u, hc, ?_, hu, ?_, ?_⟩, ?_⟩
    · rw [update, if_pos rfl]
    · rw [find?, hc] at ht
      exact ht
    · rw [update, if_pos rfl, hc]
      rfl
    · rw [find?_update, if_pos rfl, ht]
      rfl
    · intro r hr
      rw [resolve?_update, if_neg hr]

/-- A compilation of one contract with one table. -/
def smallCompilation : Compilation :=
  ⟨Ledger.ofList [("C", RegionTable.smallTable)], 0, .null, ∅⟩

theorem fresh_smallCompilation : smallCompilation.Fresh := by
  intro contract t ht
  have hmem : (contract, t) ∈ [("C", RegionTable.smallTable)] := Ledger.find?_eq_some.mp ht
  obtain ⟨-, rfl⟩ := Prod.mk.inj (List.mem_singleton.mp hmem)
  with_unfolding_all rfl

/-- A compilation installed, and its table measured. -/
def smallRun : List Operation :=
  [.replace smallCompilation fresh_smallCompilation none,
    .mergeInto ⟨1, "C"⟩ RegionTable.plainSurvey]

/-- A table that is replaced is retired and stays so, and gas for it comes too late. -/
theorem generations_own_tables_cleared :
    ∃ s, run ∅ smallRun = s ∧
      (∃ u, u.retired = true ∧ ∀ os, ((s.run [.clear]).run os).resolve? ⟨1, "C"⟩ = some u) ∧
      ∀ os, ∃ p, ((s.step .clear).run os).merge "C" ⟨[], []⟩ 1 = .error (.problem p) ∧
        p.report.kind = .stale := by
  refine ⟨_, rfl, ?_⟩
  obtain ⟨-, -, htables, -, hlate, -⟩ := generations_own_tables (show run ∅ smallRun = _ from rfl)
  have hgeneration : (run ∅ smallRun).generation = 1 := by decide +kernel
  obtain ⟨t, ht⟩ : ∃ t, (run ∅ smallRun).find? "C" = some t := ⟨_, by with_unfolding_all rfl⟩
  rw [hgeneration] at htables hlate
  constructor
  · obtain ⟨u, hr, -, -, hstays⟩ := ((htables "C" t ht).2.2 [.clear]).2 (by decide +kernel)
    exact ⟨u, hr, hstays⟩
  · exact fun os => hlate [] .clear os "C" ⟨[], []⟩ trivial

end Store

end AsmLens
