import AsmLens.Gas.Merge
import AsmLens.Proofs.Syntax.Declaration

/-!
# Merging

Measurements are written into a table one after the other, and each replaces everything that an
earlier one wrote to its region. So after any number of merges a region shows its last measurement,
with the label that the functions of that merge have for it.

* `RegionTable.unmeasured` — what a merge does not touch
* `RegionTable.merge_eq_ok` — when a merge succeeds, and with which table
* `RegionTable.mergeAll_eq` — a run of merges as one list of writes
* `RegionTable.last_measurement_counts` — the last write to a region is the one that is seen
-/

namespace AsmLens

/-! ## What a merge does not touch -/

namespace Region

/-- A region without its measurement. -/
def unmeasured (r : Region) : Region :=
  { r with gas := none, functionName := .null, functionSelector := none }

@[simp] theorem unmeasured_attach (r : Region) (label : Option FunctionLabel) (g : GasRecord) :
    (r.attach label g).unmeasured = r.unmeasured := rfl

/-- A measurement leaves nothing of the one before it. -/
theorem attach_attach (r : Region) (label label' : Option FunctionLabel) (g g' : GasRecord) :
    (r.attach label g).attach label' g' = r.attach label' g' := rfl

end Region

namespace RegionTable

variable {t u : RegionTable}

/-- A table without its measurements: everything else, with the regions in their order. -/
def unmeasured (t : RegionTable) : RegionTable :=
  { t with regions := t.regions.mapValues fun _ => Region.unmeasured, measured := false }

theorem keys_eq_of_unmeasured (h : u.unmeasured = t.unmeasured) :
    u.regions.keys = t.regions.keys := by
  have hk := congrArg (fun v => v.regions.keys) h
  simpa [unmeasured] using hk

/-! ## One merge -/

theorem attachAll_eq (t : RegionTable) (labels : Ledger String FunctionLabel) (ms : Measurements) :
    t.attachAll labels ms =
      { t with
        regions := (ms.creation ++ ms.runtime).foldl
          (fun l m => l.update m.1 fun r => r.attach (labels.find? m.1) m.2) t.regions
        measured := true } := by
  have fold : ∀ (ms : List (String × GasRecord)) (t : RegionTable), ms.foldl (attach labels) t =
      { t with regions :=
          ms.foldl (fun l m => l.update m.1 fun r => r.attach (labels.find? m.1) m.2) t.regions } := by
    intro ms
    induction ms with
    | nil => exact fun _ => rfl
    | cons m ms ih =>
      intro t
      rw [List.foldl_cons, List.foldl_cons, ih]
      rfl
  rw [attachAll, fold]

/-- A merge succeeds on a table that is not retired, if its functions can be read. -/
theorem merge_eq_ok {ms : Measurements} {tree ids : Doc} :
    t.merge ms tree ids = .ok u ↔ t.retired = false ∧
      ∃ labels, functionIndex tree ids = .ok labels ∧ u = t.attachAll labels ms := by
  unfold merge
  cases ht : t.retired with
  | true => exact ⟨fun h => (nomatch h), fun h => (nomatch h.1)⟩
  | false =>
    cases hl : functionIndex tree ids with
    | error e => exact ⟨fun h => (nomatch h), fun ⟨_, _, h, _⟩ => (nomatch h)⟩
    | ok labels =>
      constructor
      · intro h
        exact ⟨rfl, labels, rfl, (Except.ok.inj h).symm⟩
      · rintro ⟨-, labels', h, rfl⟩
        obtain rfl := Except.ok.inj h
        rfl

theorem of_runMerge {ms : Measurements} {tree ids : Doc}
    (h : (t.runMerge ms tree ids).outcome = .ok u) : t.merge ms tree ids = .ok u := by
  obtain ⟨v, hv, h⟩ := Traced.outcome_bind_eq_ok.mp h
  obtain rfl : v = u := Except.ok.inj h
  exact hv

theorem merge_of_retired {ms : Measurements} {tree ids : Doc} (h : t.retired = true) :
    t.merge ms tree ids = Failure.raise (.retiredTable t.contract t.generation) := by
  unfold merge
  rw [h]
  rfl

theorem unmeasured_foldl_update {ω : Type} {f : String → Region → ω → Region}
    (h : ∀ k r w, (f k r w).unmeasured = r.unmeasured) (ws : List (String × ω))
    (l : Ledger String Region) :
    ((ws.foldl (fun l w => l.update w.1 fun r => f w.1 r w.2) l).mapValues
        fun _ => Region.unmeasured) = l.mapValues fun _ => Region.unmeasured := by
  induction ws generalizing l with
  | nil => rfl
  | cons w ws ih => rw [List.foldl_cons, ih, Ledger.mapValues_update fun r => h w.1 r w.2]

/-- A merge touches nothing but measurements. -/
theorem unmeasured_attachAll (t : RegionTable) (labels : Ledger String FunctionLabel)
    (ms : Measurements) : (t.attachAll labels ms).unmeasured = t.unmeasured := by
  have hattach : ∀ k (r : Region) (g : GasRecord),
      (r.attach (labels.find? k) g).unmeasured = r.unmeasured :=
    fun k r g => r.unmeasured_attach (labels.find? k) g
  rw [attachAll_eq, unmeasured, unmeasured_foldl_update hattach]
  rfl

theorem unmeasured_merge {ms : Measurements} {tree ids : Doc} (h : t.merge ms tree ids = .ok u) :
    u.unmeasured = t.unmeasured := by
  obtain ⟨-, labels, -, rfl⟩ := merge_eq_ok.mp h
  exact unmeasured_attachAll t labels ms

/-- Of the measurements under a key the last counts. -/
theorem find?_attachAll (t : RegionTable) (labels : Ledger String FunctionLabel)
    (ms : Measurements) (k : String) :
    (t.attachAll labels ms).find? k = (t.find? k).map fun r =>
      ((Ledger.search k (ms.creation ++ ms.runtime).reverse).map
        (r.attach (labels.find? k))).getD r := by
  rw [attachAll_eq]
  exact Ledger.find?_foldl_update (f := fun k r g => r.attach (labels.find? k) g)
    (fun k r => r.attach_attach (labels.find? k) (labels.find? k)) _ t.regions k

/-- The same measurements once more change nothing. -/
theorem attachAll_attachAll (t : RegionTable) (labels : Ledger String FunctionLabel)
    (ms : Measurements) :
    (t.attachAll labels ms).attachAll labels ms = t.attachAll labels ms := by
  have hregions : ((t.attachAll labels ms).attachAll labels ms).regions =
      (t.attachAll labels ms).regions := by
    refine Ledger.ext_find? (keys_eq_of_unmeasured (unmeasured_attachAll _ labels ms)) fun k _ => ?_
    show ((t.attachAll labels ms).attachAll labels ms).find? k = (t.attachAll labels ms).find? k
    rw [find?_attachAll, find?_attachAll, Option.map_map]
    refine congrArg (Option.map · _) (funext fun r => ?_)
    cases Ledger.search k (ms.creation ++ ms.runtime).reverse with
    | none => simp
    | some g => simp [Region.attach_attach]
  rw [attachAll_eq (t.attachAll labels ms)] at hregions ⊢
  rw [show (ms.creation ++ ms.runtime).foldl _ _ = _ from hregions]
  rw [attachAll_eq t]

end RegionTable

/-! ## A run of merges -/

/-- The outcome of a symbolic execution, with what names the functions of its contract. -/
structure Survey where
  measurements : Measurements
  /-- The syntax tree that defines the functions. -/
  tree : Doc
  /-- The selectors that the compiler lists. -/
  ids : Doc

namespace Survey

/-- The labels of the functions; none if they cannot be read. -/
def labels (s : Survey) : Ledger String FunctionLabel :=
  match functionIndex s.tree s.ids with
  | .ok labels => labels
  | .error _ => ∅

/-- The measurements of a survey in the order in which they are applied, creation first. -/
def findings (s : Survey) : List (String × Survey × GasRecord) :=
  (s.measurements.creation ++ s.measurements.runtime).map fun m => (m.1, s, m.2)

end Survey

/-- A region with a measurement of a survey, made under a key. -/
def Region.record (key : String) (r : Region) (f : Survey × GasRecord) : Region :=
  r.attach (f.1.labels.find? key) f.2

namespace RegionTable

variable {t u : RegionTable} {ss : List Survey}

/-- The table with surveys merged into it, one after the other. -/
def mergeAll (t : RegionTable) (ss : List Survey) : Result RegionTable :=
  ss.foldlM (fun t s => t.merge s.measurements s.tree s.ids) t

theorem mergeAll_append (t : RegionTable) (ss ss' : List Survey) :
    t.mergeAll (ss ++ ss') = t.mergeAll ss >>= fun u => u.mergeAll ss' :=
  List.foldlM_append

/-- The table with some findings written into it. -/
def enter (t : RegionTable) (fs : List (String × Survey × GasRecord)) : RegionTable :=
  { t with regions := fs.foldl (fun l f => l.update f.1 fun r => r.record f.1 f.2) t.regions }

theorem find?_enter (t : RegionTable) (fs : List (String × Survey × GasRecord)) (k : String) :
    (t.enter fs).find? k =
      (t.find? k).map fun r => ((Ledger.search k fs.reverse).map (r.record k)).getD r :=
  Ledger.find?_foldl_update (fun k r f f' => r.attach_attach (f.1.labels.find? k)
    (f'.1.labels.find? k) f.2 f'.2) fs t.regions k

theorem unmeasured_enter (t : RegionTable) (fs : List (String × Survey × GasRecord)) :
    (t.enter fs).unmeasured = t.unmeasured := by
  have hrecord : ∀ k (r : Region) (f : Survey × GasRecord),
      (r.record k f).unmeasured = r.unmeasured :=
    fun k r f => r.unmeasured_attach (f.1.labels.find? k) f.2
  rw [enter, unmeasured, unmeasured_foldl_update hrecord]
  rfl

/-- A run of merges writes all findings, and marks the table if there is a merge at all. -/
theorem mergeAll_eq (h : t.mergeAll ss = .ok u) :
    u = { t.enter (ss.flatMap Survey.findings) with measured := t.measured || !ss.isEmpty } ∧
      ∀ s ∈ ss, functionIndex s.tree s.ids = .ok s.labels := by
  induction ss generalizing t with
  | nil =>
    obtain rfl : t = u := Except.ok.inj h
    simp [enter]
  | cons s ss ih =>
    cases hm : t.merge s.measurements s.tree s.ids with
    | error e =>
      rw [mergeAll, List.foldlM_cons, hm] at h
      exact nomatch h
    | ok v =>
      rw [mergeAll, List.foldlM_cons, hm] at h
      obtain ⟨rfl, hss⟩ := ih h
      obtain ⟨-, labels, hl, rfl⟩ := merge_eq_ok.mp hm
      have hlabels : s.labels = labels := by rw [Survey.labels, hl]
      constructor
      · rw [attachAll_eq]
        simp only [enter, List.flatMap_cons, List.foldl_append, Survey.findings, List.foldl_map,
          Region.record, hlabels]
        simp
      · intro s' hs'
        rcases List.mem_cons.mp hs' with rfl | hs'
        · rw [hl, hlabels]
        · exact hss s' hs'

/-- A table that is not retired takes all surveys whose functions can be read. -/
theorem exists_mergeAll (ht : t.retired = false)
    (hss : ∀ s ∈ ss, ∃ labels, functionIndex s.tree s.ids = .ok labels) :
    ∃ u, t.mergeAll ss = .ok u := by
  induction ss generalizing t with
  | nil => exact ⟨t, rfl⟩
  | cons s ss ih =>
    obtain ⟨labels, hl⟩ := hss s List.mem_cons_self
    have hr : (t.attachAll labels s.measurements).retired = false := by
      rw [attachAll_eq]
      exact ht
    obtain ⟨u, hu⟩ := ih hr fun s' hs' => hss s' (List.mem_cons_of_mem _ hs')
    refine ⟨u, ?_⟩
    rw [mergeAll, List.foldlM_cons, merge_eq_ok.mpr ⟨ht, labels, hl, rfl⟩]
    exact hu

/-- A survey that was merged can be merged again, and changes nothing. -/
theorem merge_again {ms : Measurements} {tree ids : Doc} (h : t.merge ms tree ids = .ok u) :
    u.merge ms tree ids = .ok u := by
  obtain ⟨hr, labels, hl, rfl⟩ := merge_eq_ok.mp h
  refine merge_eq_ok.mpr ⟨?_, labels, hl, (attachAll_attachAll t labels ms).symm⟩
  rw [attachAll_eq]
  exact hr

theorem mergeAll_twice (t : RegionTable) (s : Survey) : t.mergeAll [s, s] = t.mergeAll [s] := by
  simp only [mergeAll, List.foldlM_cons, List.foldlM_nil, bind_pure]
  cases h : t.merge s.measurements s.tree s.ids with
  | error e => rfl
  | ok u => exact merge_again h

/--
**The last measurement of a region counts, and a merge touches nothing else.** After any run of
merges, a region whose key was measured shows the last measurement under it, in the order of the
merges and in each merge creation before runtime; its name and selector are those that the functions
of that last merge have for it, if the measurement is one of a function, and there are none
otherwise. All other regions are as they were, and so is everything of the table but its
measurements. Merging a survey twice is merging it once.
-/
theorem last_measurement_counts (h : t.mergeAll ss = .ok u) :
    (∀ older k s g newer r, ss.flatMap Survey.findings = older ++ (k, s, g) :: newer →
      k ∉ newer.map Prod.fst → t.find? k = some r →
      ∃ labels r', functionIndex s.tree s.ids = .ok labels ∧ u.find? k = some r' ∧
        r'.gas = some g ∧
        (∀ label, g.functionGas.isSome = true → labels.find? k = some label →
          r'.functionName = label.name ∧ r'.functionSelector = label.selector) ∧
        (g.functionGas = none ∨ labels.find? k = none →
          r'.functionName = .null ∧ r'.functionSelector = none)) ∧
    (∀ k, k ∉ (ss.flatMap Survey.findings).map Prod.fst → u.find? k = t.find? k) ∧
    u.unmeasured = t.unmeasured ∧
    u.measured = (t.measured || !ss.isEmpty) ∧
    ∀ s, t.mergeAll (ss ++ [s, s]) = t.mergeAll (ss ++ [s]) := by
  obtain ⟨hu, hlabels⟩ := mergeAll_eq h
  have hfind : ∀ k, u.find? k = (t.find? k).map fun r =>
      ((Ledger.search k (ss.flatMap Survey.findings).reverse).map (r.record k)).getD r := by
    intro k
    rw [hu]
    exact find?_enter t _ k
  refine ⟨?_, ?_, ?_, ?_, ?_⟩
  · intro older k s g newer r hsplit hlast hr
    have hs : s ∈ ss := by
      have hmem : (k, s, g) ∈ ss.flatMap Survey.findings := by simp [hsplit]
      obtain ⟨s', hs', hf⟩ := List.mem_flatMap.mp hmem
      obtain ⟨m, -, hm⟩ := List.mem_map.mp hf
      obtain ⟨-, hm⟩ := Prod.mk.inj hm
      obtain rfl := (Prod.mk.inj hm).1
      exact hs'
    refine ⟨s.labels, r.record k (s, g), hlabels s hs, ?_, rfl, ?_, ?_⟩
    · rw [hfind, hr, hsplit, Ledger.search_reverse hlast]
      rfl
    · intro label hg hl
      simp [Region.record, Region.attach, hg, hl]
    · rintro (hg | hl)
      · simp [Region.record, Region.attach, hg]
      · simp [Region.record, Region.attach, hl]
  · intro k hk
    have hk' : k ∉ (ss.flatMap Survey.findings).reverse.map Prod.fst := by
      simpa using hk
    rw [hfind, Ledger.search_eq_none hk']
    simp
  · rw [hu, ← unmeasured_enter t]
    rfl
  · rw [hu]
  · intro s
    rw [mergeAll_append, mergeAll_append]
    exact bind_congr fun v => mergeAll_twice v s

/-- A table with two regions. -/
def smallTable : RegionTable :=
  ((RegionTable.new "C" 1).ensure ⟨0, 3⟩ ⟨⟨1, 1⟩, ⟨1, 4⟩, 3⟩).ensure ⟨4, 9⟩ ⟨⟨1, 5⟩, ⟨1, 10⟩, 5⟩

/-- A measurement without samples, of a function if there is gas for one. -/
def smallRecord (functionGas : Option Number) : GasRecord :=
  ⟨.none, 0, .int 0, .int 0, .int 0, .int 0, .int 0, none, none, functionGas, ∅, []⟩

/-- A tree with one function, over the first three bytes. -/
def smallTree : Doc :=
  .object [("nodeType", .text "FunctionDefinition"), ("name", .text "f"), ("src", .text "0:3:0"),
    ("visibility", .text "public")]

/-- A range measured in both phases, at last as a function. -/
def functionSurvey : Survey where
  measurements := ⟨[("0:3", smallRecord none)], [("0:3", smallRecord (some (.int 7)))]⟩
  tree := smallTree
  ids := .object [("f()", .text "26121FF0")]

/-- The same range measured by itself. -/
def plainSurvey : Survey := ⟨⟨[("0:3", smallRecord none)], []⟩, .null, .null⟩

theorem readFunction_small : Syntax.readFunction smallTree =
    .ok ⟨.text "f", .text "function", .text "public", ⟨0, 3⟩, []⟩ := by
  have hplace : Syntax.DeclaredAt smallTree 0 3 0 :=
    ⟨"0:3:0", "0", "3", "0", rfl, SourceRange.parts_intercalate rfl (by simp) (by simp), rfl, rfl, rfl⟩
  unfold Syntax.readFunction
  rw [Syntax.rangeOf_eq hplace]
  rfl

theorem functionIndex_small : ∃ labels, functionIndex smallTree functionSurvey.ids = .ok labels ∧
    labels.find? "0:3" = some ⟨.text "f", some "0x26121ff0"⟩ := by
  have hwalk : Syntax.walk smallTree = [smallTree] := by with_unfolding_all rfl
  have hfunctions : Syntax.functions smallTree =
      .ok [⟨.text "f", .text "function", .text "public", ⟨0, 3⟩, []⟩] := by
    have hfilter : [smallTree].filter (Syntax.hasType · "FunctionDefinition") = [smallTree] := rfl
    rw [Syntax.functions, hwalk, hfilter, List.mapM_cons, readFunction_small]
    rfl
  have hselectors : readSelectors functionSurvey.ids = .ok [("f()", "0x26121ff0")] := by
    with_unfolding_all rfl
  have hentry : labelEntry [("f()", "0x26121ff0")]
      ⟨.text "f", .text "function", .text "public", ⟨0, 3⟩, []⟩ =
      .ok ("0:3", ⟨.text "f", some "0x26121ff0"⟩) := by with_unfolding_all rfl
  have hentries : ([⟨.text "f", .text "function", .text "public", ⟨0, 3⟩, []⟩] :
      List Syntax.Function).mapM (labelEntry [("f()", "0x26121ff0")]) =
      .ok [("0:3", ⟨.text "f", some "0x26121ff0"⟩)] := by
    rw [List.mapM_cons, hentry]
    rfl
  have hblank : smallTree.isBlank = false := rfl
  unfold functionIndex
  rw [hblank, hfunctions, hselectors]
  simp only [liftM, monadLift, MonadLift.monadLift, bind, Except.bind, hentries]
  exact ⟨_, rfl, by with_unfolding_all rfl⟩

theorem exists_mergeAll_small (ss : List Survey)
    (h : ∀ s ∈ ss, s = functionSurvey ∨ s = plainSurvey) : ∃ u, smallTable.mergeAll ss = .ok u := by
  refine exists_mergeAll (by with_unfolding_all rfl) fun s hs => ?_
  rcases h s hs with rfl | rfl
  · obtain ⟨labels, hl, -⟩ := functionIndex_small
    exact ⟨labels, hl⟩
  · exact ⟨∅, rfl⟩

/-- A region gets the name of its function, and loses it with a measurement that has none. -/
theorem last_measurement_counts_renamed :
    ∃ u v, smallTable.mergeAll [plainSurvey, functionSurvey] = .ok u ∧
      smallTable.mergeAll [plainSurvey, functionSurvey, plainSurvey] = .ok v ∧
      (∃ r, u.find? "0:3" = some r ∧ r.functionName = .text "f" ∧
        r.functionSelector = some "0x26121ff0") ∧
      ∃ r, v.find? "0:3" = some r ∧ r.functionName = .null ∧ r.functionSelector = none := by
  obtain ⟨u, hu⟩ := exists_mergeAll_small [plainSurvey, functionSurvey] (by simp)
  obtain ⟨v, hv⟩ := exists_mergeAll_small [plainSurvey, functionSurvey, plainSurvey] (by simp)
  refine ⟨u, v, hu, hv, ?_, ?_⟩
  · obtain ⟨labels, r, hl, hr, -, hname, -⟩ := (last_measurement_counts hu).1
      [("0:3", plainSurvey, smallRecord none), ("0:3", functionSurvey, smallRecord none)]
      "0:3" functionSurvey (smallRecord (some (.int 7))) [] (Region.new ⟨0, 3⟩ ⟨⟨1, 1⟩, ⟨1, 4⟩, 3⟩)
      rfl (by simp) (by with_unfolding_all rfl)
    obtain ⟨labels', hl', hf⟩ := functionIndex_small
    obtain rfl := Except.ok.inj (hl'.symm.trans hl)
    exact ⟨r, hr, hname _ rfl hf⟩
  · obtain ⟨labels, r, -, hr, -, -, hname⟩ := (last_measurement_counts hv).1
      [("0:3", plainSurvey, smallRecord none), ("0:3", functionSurvey, smallRecord none),
        ("0:3", functionSurvey, smallRecord (some (.int 7)))]
      "0:3" plainSurvey (smallRecord none) [] (Region.new ⟨0, 3⟩ ⟨⟨1, 1⟩, ⟨1, 4⟩, 3⟩)
      rfl (by simp) (by with_unfolding_all rfl)
    exact ⟨r, hr, hname (.inl rfl)⟩

end RegionTable

end AsmLens
