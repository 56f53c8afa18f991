import AsmLens.Assembly.Listing
import AsmLens.Proofs.Region.Span
import AsmLens.Proofs.Source.Key
import AsmLens.Proofs.Source.LineIndex

/-!
# What a builder writes

A *transcript* says of each listing line where it comes from. The transcript of a run follows
from its calls alone; the table of the run follows from the transcript.

* `Builder.Call` — a section or a single instruction handed to a builder; a call may fail, and
  calls may follow it
* `transcribe` — the lines that instructions take
* `Builder.Written` — a builder whose table is that of a transcript
* `Builder.Written.callAll` — so it is after any calls
-/

namespace AsmLens

/-- Where a listing line comes from. -/
inductive Origin
  | header (s : Section)
  | code (i : Instruction)
deriving DecidableEq

namespace Origin

/-- The text of a line. -/
def text : Origin → String
  | header s => s.header
  | code i => i.render

/-- The range of a line: that of its instruction, if it lies in a text of `n` bytes. -/
def range? (n : Nat) : Origin → Option SourceRange
  | header _ => none
  | code i => i.range?.filter fun r => r.last ≤ n

theorem le_of_range? {n : Nat} {x : Origin} {r : SourceRange} (h : x.range? n = some r) :
    0 ≤ r.first ∧ r.first ≤ r.last ∧ r.last ≤ n := by
  cases x with
  | header s => simp [range?] at h
  | code i =>
    obtain ⟨hr, hn⟩ := Option.filter_eq_some_iff.mp h
    obtain ⟨h₀, hle⟩ := Instruction.le_of_range? hr
    exact ⟨h₀, hle, of_decide_eq_true hn⟩

end Origin

/-! ## Transcripts -/

/-- The origins of listing lines, first to last. -/
abbrev Transcript := List Origin

/--
The lines that instructions take in a text of `n` bytes: each takes one, apart from those that
are left out, up to the first whose range runs out of the text.
-/
def transcribe (n : Nat) (excluded : Option SourceRange) : List Instruction → Transcript
  | [] => []
  | i :: is =>
    match i.range? with
    | none => .code i :: transcribe n excluded is
    | some r =>
      if excluded = some r then transcribe n excluded is
      else if r.last ≤ n then .code i :: transcribe n excluded is
      else [.code i]

/-- What a caller hands to a builder. -/
inductive Builder.Call
  | whole (s : Section) (is : List Instruction)
  | single (i : Instruction)

/-- The lines that a call takes. -/
def Builder.Call.transcript (n : Nat) (excluded : Option SourceRange) : Builder.Call → Transcript
  | whole s is => .header s :: transcribe n excluded is
  | single i => transcribe n excluded [i]

/-- The ranges of the mapped lines, in order. -/
def rangesIn (n : Nat) (o : Transcript) : List SourceRange := o.filterMap (Origin.range? n)

/-- The numbers of the lines that are mapped to a range. -/
def linesOf (n : Nat) (r : SourceRange) (o : Transcript) : List Int :=
  (o.zipIdx 1).filterMap fun p => if p.1.range? n = some r then some (p.2 : Int) else none

/-- The region of a range, as a transcript has it. -/
def regionIn (ix : LineIndex) (o : Transcript) (r : SourceRange) : Region :=
  { Region.new r (ix.place r) with spans := Region.spansOf (linesOf ix.length r o) }

/-- The regions of a transcript with their keys: one for each range, in order of first mention. -/
def regionsIn (ix : LineIndex) (o : Transcript) : List (String × Region) :=
  (rangesIn ix.length o).eraseDups.map fun r => (r.key, regionIn ix o r)

/-! ## One more line -/

section

variable {n : Nat} {ix : LineIndex} {o : Transcript} {x : Origin} {r : SourceRange}

theorem linesOf_append_one : linesOf n r (o ++ [x]) =
    linesOf n r o ++ if x.range? n = some r then [(o.length : Int) + 1] else [] := by
  rw [linesOf, List.zipIdx_append, List.filterMap_append]
  congr 1
  by_cases h : x.range? n = some r <;> simp [h, Nat.add_comm]

theorem linesOf_eq_nil (h : r ∉ rangesIn n o) : linesOf n r o = [] := by
  rw [linesOf, List.filterMap_eq_nil_iff]
  intro p hp
  exact if_neg fun hr => h (List.mem_filterMap.mpr ⟨p.1, List.fst_mem_of_mem_zipIdx hp, hr⟩)

/-- A line that is not mapped changes no region. -/
theorem regionsIn_append_unmapped (h : x.range? ix.length = none) :
    regionsIn ix (o ++ [x]) = regionsIn ix o := by
  simp [regionsIn, regionIn, rangesIn, linesOf_append_one, h]

/-- A mapped line belongs to the region of its range and to no other. -/
theorem regionIn_append_mapped (h : x.range? ix.length = some r) (s : SourceRange) :
    regionIn ix (o ++ [x]) s =
      if s = r then (regionIn ix o s).addLine (o.length + 1) else regionIn ix o s := by
  by_cases hs : s = r
  · subst hs
    rw [regionIn, linesOf_append_one, if_pos h, Region.spansOf_append_one, if_pos rfl]
    rfl
  · have hne : x.range? ix.length ≠ some s := by
      rw [h]
      exact fun he => hs (Option.some.inj he).symm
    rw [regionIn, linesOf_append_one, if_neg hne, List.append_nil, if_neg hs]
    rfl

/-- The ranges of a transcript with one more mapped line. -/
theorem eraseDups_rangesIn_append (h : x.range? n = some r) :
    (rangesIn n (o ++ [x])).eraseDups =
      if r ∈ rangesIn n o then (rangesIn n o).eraseDups
      else (rangesIn n o).eraseDups ++ [r] := by
  rw [rangesIn, List.filterMap_append, List.filterMap_cons_some h, List.filterMap_nil,
    List.eraseDups_append, List.cons_removeAll]
  change _ = if r ∈ List.filterMap (Origin.range? n) o then _ else _
  by_cases hr : r ∈ List.filterMap (Origin.range? n) o
  · rw [if_pos hr, if_neg (by simpa using hr), List.nil_removeAll, List.eraseDups_nil,
      List.append_nil]
    rfl
  · rw [if_neg hr, if_pos (by simpa using hr), List.nil_removeAll]
    rfl

theorem keys_regionsIn : (regionsIn ix o).map Prod.fst =
    (rangesIn ix.length o).eraseDups.map SourceRange.key := by
  simp [regionsIn, Function.comp_def]

theorem key_mem_regionsIn_iff :
    r.key ∈ (regionsIn ix o).map Prod.fst ↔ r ∈ rangesIn ix.length o := by
  rw [keys_regionsIn, List.mem_map]
  constructor
  · rintro ⟨s, hs, he⟩
    rw [← SourceRange.key_injective he]
    exact List.mem_eraseDups.mp hs
  · intro hr
    exact ⟨r, List.mem_eraseDups.mpr hr, rfl⟩

/-- A mapped line in a table: its region is there, or is put at the end, and takes the line. -/
theorem regions_addLine_ensure {t : RegionTable} (ht : t.regions.toList = regionsIn ix o)
    (hx : x.range? ix.length = some r) :
    ((t.ensure r (ix.place r)).addLine r.key (o.length + 1)).regions.toList =
      regionsIn ix (o ++ [x]) := by
  have keys : t.regions.keys = (regionsIn ix o).map Prod.fst := by rw [Ledger.keys, ht]
  -- keys are those of ranges, so the line goes to the region of `r` alone
  have grown : ∀ l : List SourceRange,
      (l.map fun s => (s.key, regionIn ix o s)).map (fun p : String × Region =>
          (p.1, if p.1 = r.key then p.2.addLine (o.length + 1) else p.2)) =
        l.map fun s => (s.key, regionIn ix (o ++ [x]) s) := by
    intro l
    rw [List.map_map]
    refine List.map_congr_left fun s _ => ?_
    rw [regionIn_append_mapped hx, Function.comp_apply]
    simp only [SourceRange.key_inj]
  rw [RegionTable.addLine, Ledger.toList_update, RegionTable.ensure]
  by_cases hr : r ∈ rangesIn ix.length o
  · have hc : t.regions.contains r.key = true := by
      rw [Ledger.contains_iff, keys, key_mem_regionsIn_iff]
      exact hr
    rw [if_pos hc, ht, regionsIn, grown, regionsIn, eraseDups_rangesIn_append hx, if_pos hr]
  · have hk : r.key ∉ t.regions.keys := by
      rw [keys, key_mem_regionsIn_iff]
      exact hr
    have hnew : Region.new r (ix.place r) = regionIn ix o r := by
      rw [regionIn, linesOf_eq_nil hr]
      rfl
    rw [if_neg (by rw [Ledger.contains_iff]; exact hk)]
    show List.map _ (t.regions.insert r.key (Region.new r (ix.place r))).toList = _
    rw [Ledger.toList_insert_of_notMem _ hk, ht, hnew, regionsIn, regionsIn,
      eraseDups_rangesIn_append hx, if_neg hr, ← grown, List.map_append, List.map_append,
      List.map_append]
    rfl

end

/-! ## One more call -/

/-- The builder holds what a transcript says, and no gas. -/
structure Builder.Written (ix : LineIndex) (excluded : Option SourceRange) (o : Transcript)
    (b : Builder) : Prop where
  index : b.index = ix
  excluded : b.excluded = excluded
  lines : b.table.lines.toList = o.map Origin.text
  regions : b.table.regions.toList = regionsIn ix o

namespace Builder.Written

variable {ix : LineIndex} {excluded : Option SourceRange} {o : Transcript} {b c : Builder}

theorem new (ix : LineIndex) (contract : String) (excluded : Option SourceRange)
    (generation : Int) : Written ix excluded [] (Builder.new ix contract excluded generation) :=
  ⟨rfl, rfl, rfl, rfl⟩

theorem of_table (h : Written ix excluded o b) (hi : c.index = b.index)
    (he : c.excluded = b.excluded) (ht : c.table = b.table) : Written ix excluded o c :=
  ⟨hi.trans h.index, he.trans h.excluded, by rw [ht, h.lines], by rw [ht, h.regions]⟩

theorem line_eq (h : Written ix excluded o b) : b.line = o.length := by
  rw [line, ← Array.length_toList, h.lines, List.length_map]

/-- A line that is not mapped. -/
theorem emit (h : Written ix excluded o b) {x : Origin} (hx : x.range? ix.length = none) :
    Written ix excluded (o ++ [x]) (b.emit x.text) where
  index := h.index
  excluded := h.excluded
  lines := by simp [Builder.emit, h.lines]
  regions := by rw [regionsIn_append_unmapped hx]; exact h.regions

/-- An instruction that takes a line and belongs to no region. -/
theorem unmapped (h : Written ix excluded o b) {i : Instruction}
    (hf : b.fate i = .unmapped ∨ ∃ p, b.fate i = .failed p)
    (hx : (Origin.code i).range? ix.length = none) :
    Written ix excluded (o ++ [.code i]) (b.add i) := by
  rw [Builder.add]
  rcases hf with hf | ⟨p, hf⟩
  · rw [hf]
    exact (h.emit hx).of_table rfl rfl rfl
  · rw [hf]
    exact (h.emit hx).of_table rfl rfl rfl

/-- An instruction that takes a line of the region of its range. -/
theorem mapped (h : Written ix excluded o b) {i : Instruction} {r : SourceRange}
    (hf : b.fate i = .mapped r (ix.place r)) (hx : (Origin.code i).range? ix.length = some r) :
    Written ix excluded (o ++ [.code i]) (b.add i) := by
  have hadd : b.add i = { b.emit i.render with
      emitted := b.emitted + 1
      table := ((b.emit i.render).table.ensure r (ix.place r)).addLine r.key
        (b.emit i.render).line } := by
    rw [Builder.add, hf]
  have hl : ((b.emit i.render).line : Int) = o.length + 1 := by
    simp [← h.line_eq, line, Builder.emit]
  rw [hadd]
  refine ⟨h.index, h.excluded, ?_, ?_⟩
  · have he : ∀ t : RegionTable, (t.ensure r (ix.place r)).lines = t.lines := by
      intro t
      rw [RegionTable.ensure]
      split <;> rfl
    show ((b.emit i.render).table.ensure r (ix.place r)).lines.toList = _
    rw [he]
    simp [Builder.emit, h.lines, Origin.text]
  · rw [hl]
    exact regions_addLine_ensure h.regions hx

/--
One instruction: it is left out, or it takes a line and the next one follows, or it takes a line
and fails.
-/
theorem add (h : Written ix excluded o b) (i : Instruction) :
    ((b.fate i).problem? = none ∧ Written ix excluded o (b.add i) ∧
        ∀ is, transcribe ix.length excluded (i :: is) = transcribe ix.length excluded is) ∨
      ((b.fate i).problem? = none ∧ Written ix excluded (o ++ [.code i]) (b.add i) ∧
        ∀ is, transcribe ix.length excluded (i :: is) =
          .code i :: transcribe ix.length excluded is) ∨
      (∃ p, (b.fate i).problem? = some p ∧ Written ix excluded (o ++ [.code i]) (b.add i) ∧
        ∀ is, transcribe ix.length excluded (i :: is) = [.code i]) := by
  cases hr : i.range? with
  | none =>
    have hf : b.fate i = .unmapped := by simp only [fate, hr]
    have hx : (Origin.code i).range? ix.length = none := by simp [Origin.range?, hr]
    refine .inr (.inl ⟨by rw [hf]; rfl, h.unmapped (.inl hf) hx, fun is => ?_⟩)
    simp only [transcribe, hr]
  | some r =>
    by_cases hd : excluded = some r
    · have hf : b.fate i = .dropped := by simp only [fate, hr, h.excluded, if_pos hd]
      refine .inl ⟨by rw [hf]; rfl, ?_, fun is => by simp only [transcribe, hr, if_pos hd]⟩
      rw [Builder.add, hf]
      exact h.of_table rfl rfl rfl
    · by_cases hn : r.last ≤ ix.length
      · obtain ⟨h₀, hle⟩ := Instruction.le_of_range? hr
        have hf : b.fate i = .mapped r (ix.place r) := by
          simp only [fate, hr, h.excluded, if_neg hd, h.index, LineIndex.position_eq_ok h₀ hle hn]
        have hx : (Origin.code i).range? ix.length = some r := by simp [Origin.range?, hr, hn]
        refine .inr (.inl ⟨by rw [hf]; rfl, h.mapped hf hx, fun is => ?_⟩)
        simp only [transcribe, hr, if_neg hd, if_pos hn]
      · have hlt : (ix.length : Int) < r.last := by omega
        obtain ⟨e, he⟩ := LineIndex.position_eq_error hlt
        have hf : b.fate i = .failed (.outOfRange e ix.length) := by
          simp only [fate, hr, h.excluded, if_neg hd, h.index, he]
        have hx : (Origin.code i).range? ix.length = none := by simp [Origin.range?, hr]; omega
        refine .inr (.inr ⟨_, by rw [hf]; rfl, h.unmapped (.inr ⟨_, hf⟩) hx, fun is => ?_⟩)
        simp only [transcribe, hr, if_neg hd, if_neg hn]

/-! ## Runs -/

/-- Instructions, up to the first that fails. -/
theorem addAll (h : Written ix excluded o b) (is : List Instruction) :
    Written ix excluded (o ++ transcribe ix.length excluded is) (b.addAll is).1 := by
  induction is generalizing o b with
  | nil => rw [transcribe, List.append_nil]; exact h
  | cons i is ih =>
    rcases h.add i with ⟨hf, hw, ht⟩ | ⟨hf, hw, ht⟩ | ⟨p, hf, hw, ht⟩
    · rw [ht, Builder.addAll, hf]
      exact ih hw
    · rw [ht, Builder.addAll, hf, List.append_cons]
      exact ih hw
    · rw [ht, Builder.addAll, hf]
      exact hw

end Builder.Written

/-- The builder after a call, and the problem of a call that failed. -/
def Builder.call (b : Builder) : Builder.Call → Builder × Option Problem
  | .whole s is => b.addSection s is
  | .single i => b.addAll [i]

/-- The builder after calls, whether or not some of them failed. -/
def Builder.callAll (b : Builder) (cs : List Builder.Call) : Builder :=
  cs.foldl (fun b c => (b.call c).1) b

namespace Builder.Written

variable {ix : LineIndex} {excluded : Option SourceRange} {o : Transcript} {b : Builder}

theorem call (h : Written ix excluded o b) (c : Call) :
    Written ix excluded (o ++ c.transcript ix.length excluded) (b.call c).1 := by
  cases c with
  | whole s is =>
    have hs := (h.emit (x := .header s) rfl).addAll is
    rw [List.append_assoc] at hs
    exact hs
  | single i => exact h.addAll [i]

/-- **A builder holds after any calls what their transcript says.** -/
theorem callAll (h : Written ix excluded o b) (cs : List Call) :
    Written ix excluded (o ++ cs.flatMap (Call.transcript ix.length excluded)) (b.callAll cs) := by
  induction cs generalizing o b with
  | nil => rw [List.flatMap_nil, List.append_nil]; exact h
  | cons c cs ih =>
    rw [List.flatMap_cons, ← List.append_assoc]
    exact ih (h.call c)

end Builder.Written

end AsmLens
