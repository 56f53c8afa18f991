import AsmLens.Proofs.Source.LineIndex
import Mathlib.Data.List.Induction

/-!
# Cursors as coordinates

An offset lies between two newlines, and its cursor says between which and how far behind the
first of them. So the table of newlines and a walk over the bytes give the same cursor, each
offset comes back from its cursor, and a cursor comes back from its offset as long as its column
stays on its line.

* `LineIndex.linesBefore_eq_iff` — the offsets with a number of newlines before them are those of a line
* `LineIndex.offset_spot` — an offset comes back from its cursor
* `LineIndex.cursor_eq_scanCursor` — the table and the walk agree
* `LineIndex.exact_coordinates` — all of it, for every text and every offset
-/

namespace AsmLens

/-! ## The newlines of a part of a text -/

theorem newlinesFrom_append (i : Nat) (as bs : List UInt8) :
    newlinesFrom i (as ++ bs) = newlinesFrom i as ++ newlinesFrom (i + as.length) bs := by
  induction as generalizing i with
  | nil => rfl
  | cons a as ih =>
    have hi : i + 1 + as.length = i + (a :: as).length := by
      rw [List.length_cons]
      omega
    rw [List.cons_append, newlinesFrom, newlinesFrom, ih, hi]
    split
    · rw [List.cons_append]
    · rfl

theorem lt_of_mem_newlinesFrom {bs : List UInt8} {i j : Nat} (h : j ∈ newlinesFrom i bs) :
    j < i + bs.length := by
  induction bs generalizing i with
  | nil => exact absurd h List.not_mem_nil
  | cons b bs ih =>
    have later : j ∈ newlinesFrom (i + 1) bs → j < i + (b :: bs).length := by
      intro hj
      have := ih hj
      rw [List.length_cons]
      omega
    rw [newlinesFrom] at h
    split at h
    · rcases List.mem_cons.mp h with rfl | h
      · rw [List.length_cons]
        omega
      · exact later h
    · exact later h

theorem length_newlinesFrom (i : Nat) (bs : List UInt8) :
    (newlinesFrom i bs).length = bs.count newline := by
  induction bs generalizing i with
  | nil => rfl
  | cons b bs ih =>
    rw [newlinesFrom, List.count_cons]
    by_cases hb : b = newline <;> simp [hb, ih]

/-- The offset of the last newline of a text, or -1. -/
def lastNewlineOf (bs : List UInt8) : Int := (newlinesFrom 0 bs).getLast?.elim (-1) fun j => j

/-- The last newline of a text and the bytes behind it fill the text. -/
theorem length_sub_lastNewlineOf (as : List UInt8) :
    (as.length : Int) - lastNewlineOf as = (as.reverse.takeWhile (· ≠ newline)).length + 1 := by
  unfold lastNewlineOf
  induction as using List.reverseRecOn with
  | nil => rfl
  | append_singleton as b ih =>
    rw [newlinesFrom_append, List.reverse_append, List.length_append, List.length_singleton,
      List.reverse_singleton, List.singleton_append, Nat.zero_add]
    by_cases hb : b = newline
    · rw [List.takeWhile_cons_of_neg (by simpa using hb)]
      simp only [newlinesFrom, hb, if_true, List.getLast?_append, List.getLast?_singleton,
        Option.some_or, Option.elim_some, List.length_nil]
      omega
    · rw [List.takeWhile_cons_of_pos (by simpa using hb)]
      simp only [newlinesFrom, hb, if_false, List.append_nil, List.length_cons]
      omega

namespace LineIndex

variable {ix : LineIndex}

/-! ## Lines as intervals of offsets -/

/-- The offset of the end of the line that has `count` newlines before it. -/
def lineStop (ix : LineIndex) (count : Nat) : Nat := ix.newlines.getD count ix.length

/-- The newlines before an offset are `count` if the newlines split there. -/
theorem linesBefore_eq (h : ix.Ascending) {o count : Nat} (hcount : count ≤ ix.newlines.size)
    (hbelow : ∀ j (hj : j < ix.newlines.size), j < count → ix.newlines[j] < o)
    (habove : ∀ j (hj : j < ix.newlines.size), count ≤ j → o ≤ ix.newlines[j]) :
    ix.linesBefore o = count := by
  refine Nat.le_antisymm (Nat.le_of_not_lt fun hlt => ?_) (Nat.le_of_not_lt fun hlt => ?_)
  · have hsize : count < ix.newlines.size := Nat.lt_of_lt_of_le hlt (linesBefore_le h o)
    have hlow := (lt_linesBefore_iff h hsize).mpr hlt
    have hhigh := habove count hsize (Nat.le_refl _)
    omega
  · have hsize : ix.linesBefore o < ix.newlines.size := Nat.lt_of_lt_of_le hlt hcount
    have := (lt_linesBefore_iff h hsize).mp (hbelow _ hsize hlt)
    omega

/-- **The offsets with `count` newlines before them are those from the start to the end of a line.** -/
theorem linesBefore_eq_iff (h : ix.Ascending) {o count : Nat} (hcount : count ≤ ix.newlines.size)
    (ho : o ≤ ix.length) :
    ix.linesBefore o = count ↔ ix.lineStart (count + 1) ≤ o ∧ o ≤ ix.lineStop count := by
  constructor
  · rintro rfl
    constructor
    · unfold lineStart
      split
      · exact Nat.zero_le o
      · next hpos =>
        have hsize : ix.linesBefore o - 1 < ix.newlines.size := by omega
        have hlt : ix.newlines[ix.linesBefore o - 1] < o :=
          (lt_linesBefore_iff h hsize).mpr (by omega)
        rw [show ix.linesBefore o + 1 - 2 = ix.linesBefore o - 1 by omega, Array.getD, dif_pos hsize]
        exact hlt
    · unfold lineStop
      by_cases hsize : ix.linesBefore o < ix.newlines.size
      · have hnot := mt (lt_linesBefore_iff h hsize).mp (Nat.lt_irrefl _)
        simpa [Array.getD, hsize] using hnot
      · simpa [Array.getD, hsize] using ho
  · rintro ⟨hstart, hstop⟩
    refine linesBefore_eq h hcount (fun j hj hjc => ?_) fun j hj hcj => ?_
    · have hlast : count - 1 < ix.newlines.size := by omega
      have hle : ix.newlines[j] ≤ ix.newlines[count - 1] := h.le (by omega) hlast
      have hlt : ix.newlines[count - 1] < o := by
        rw [lineStart, if_neg (by omega), show count + 1 - 2 = count - 1 by omega, Array.getD,
          dif_pos hlast] at hstart
        exact hstart
      omega
    · have hsize : count < ix.newlines.size := by omega
      have hle : ix.newlines[count] ≤ ix.newlines[j] := h.le hcj hj
      have hge : o ≤ ix.newlines[count] := by simpa [lineStop, Array.getD, hsize] using hstop
      omega

theorem lineStart_linesBefore (ix : LineIndex) (o : Nat) :
    (ix.lineStart (ix.linesBefore o + 1) : Int) = ix.lastNewline o + 1 := by
  unfold lineStart lastNewline
  by_cases hzero : ix.linesBefore o = 0
  · simp [hzero]
  · rw [if_neg (by omega), if_neg hzero, show ix.linesBefore o + 1 - 2 = ix.linesBefore o - 1 by omega]
    push_cast
    rfl

/-! ## From offsets to cursors and back -/

/-- An offset is reached from the start of its line. -/
theorem offset_spot (h : ix.Ascending) {o : Nat} (ho : o ≤ ix.length) :
    ix.offset (ix.spot o) = .ok o := by
  have hle := linesBefore_le h o
  have hstart := lineStart_linesBefore ix o
  have hline : (ix.spot o).line = ix.linesBefore o + 1 := rfl
  have hcolumn : (ix.spot o).column = o - ix.lastNewline o := rfl
  have hresult : (ix.lineStart (ix.spot o).line.toNat : Int) + (ix.spot o).column - 1 = o := by
    rw [show (ix.spot o).line.toNat = ix.linesBefore o + 1 by omega]
    omega
  unfold offset
  dsimp only
  rw [hresult, if_neg (by omega), if_neg (by omega), Int.toNat_natCast]

/-- What is known of a cursor with an offset. -/
theorem of_offset {c : Cursor} {o : Nat} (h : ix.offset c = .ok o) :
    ∃ count ≤ ix.newlines.size, c.line = count + 1 ∧ o ≤ ix.length ∧
      (o : Int) = ix.lineStart (count + 1) + c.column - 1 := by
  unfold offset at h
  dsimp only at h
  split at h
  · exact nomatch h
  · next hline =>
    split at h
    · exact nomatch h
    · next hresult =>
      have hcount : c.line.toNat = c.line.toNat - 1 + 1 := by omega
      refine ⟨c.line.toNat - 1, by omega, by omega, ?_, ?_⟩
      · have := Except.ok.inj h
        omega
      · rw [← hcount]
        have := Except.ok.inj h
        omega

/-- A cursor comes back from its offset exactly if the offset lies on the cursor's line. -/
theorem cursor_eq_iff (h : ix.Ascending) {c : Cursor} {o : Nat} (hc : ix.offset c = .ok o) :
    ix.cursor o = .ok c ↔ ∃ count : Nat, c.line = count + 1 ∧ 1 ≤ c.column ∧
      c.column + ix.lineStart (count + 1) ≤ ix.lineStop count + 1 := by
  obtain ⟨count, hcount, hline, ho, hoff⟩ := of_offset hc
  have hspot : ix.cursor o = .ok (ix.spot o) := cursor_eq_ok (by omega) (by omega)
  have hback : ix.spot o = c ↔ ix.linesBefore o = count := by
    constructor
    · rintro rfl
      have : (ix.linesBefore o : Int) + 1 = count + 1 := hline
      omega
    · intro hb
      -- both columns count from the start of the same line
      have hstart := lineStart_linesBefore ix o
      obtain ⟨line, column⟩ := c
      simp only [spot, Cursor.mk.injEq]
      rw [hb] at hstart ⊢
      dsimp only at hline hoff
      exact ⟨hline.symm, by omega⟩
  rw [hspot, Except.ok.injEq, hback, linesBefore_eq_iff h hcount ho]
  constructor
  · rintro ⟨hstart, hstop⟩
    exact ⟨count, hline, by omega, by omega⟩
  · rintro ⟨count', hline', hlow, hhigh⟩
    obtain rfl : count' = count := by omega
    exact ⟨by omega, by omega⟩

/-! ## The table and the bytes -/

/-- The newlines before an offset are those of the bytes before it. -/
theorem newlines_take {bs : List UInt8} {o : Nat} (ho : o ≤ bs.length) :
    newlinesFrom 0 bs = newlinesFrom 0 (bs.take o) ++ newlinesFrom o (bs.drop o) := by
  have h := newlinesFrom_append 0 (bs.take o) (bs.drop o)
  rwa [List.take_append_drop, List.length_take, Nat.min_eq_left ho, Nat.zero_add] at h

theorem linesBefore_ofBytes {bs : List UInt8} {o : Nat} (ho : o ≤ bs.length) :
    (ofBytes bs).linesBefore o = (newlinesFrom 0 (bs.take o)).length := by
  have hsplit := newlines_take ho
  have hget : ∀ j (hj : j < (ofBytes bs).newlines.size),
      (newlinesFrom 0 (bs.take o) ++ newlinesFrom o (bs.drop o))[j]? =
        some (ofBytes bs).newlines[j] := by
    intro j hj
    rw [← hsplit]
    simp [ofBytes]
  refine linesBefore_eq (ascending_ofBytes bs) ?_ (fun j hj hlt => ?_) fun j hj hle => ?_
  · simp [ofBytes, hsplit]
  · have hmem := List.mem_of_getElem? ((List.getElem?_append_left hlt).symm.trans (hget j hj))
    have := lt_of_mem_newlinesFrom hmem
    rw [List.length_take] at this
    omega
  · exact le_of_mem_newlinesFrom
      (List.mem_of_getElem? ((List.getElem?_append_right hle).symm.trans (hget j hj)))

theorem lastNewline_ofBytes {bs : List UInt8} {o : Nat} (ho : o ≤ bs.length) :
    (ofBytes bs).lastNewline o = lastNewlineOf (bs.take o) := by
  unfold lastNewline lastNewlineOf
  rw [linesBefore_ofBytes ho]
  cases hlast : (newlinesFrom 0 (bs.take o)).getLast? with
  | none => simp [List.getLast?_eq_none_iff.mp hlast]
  | some last =>
    have hne : newlinesFrom 0 (bs.take o) ≠ [] := by
      intro hnil
      rw [hnil] at hlast
      exact nomatch hlast
    have hpos : 0 < (newlinesFrom 0 (bs.take o)).length := List.length_pos_iff.mpr hne
    rw [if_neg (by omega)]
    have hget : (newlinesFrom 0 bs)[(newlinesFrom 0 (bs.take o)).length - 1]? = some last := by
      rw [newlines_take ho, List.getElem?_append_left (by omega), ← List.getLast?_eq_getElem?, hlast]
    simp [ofBytes, Array.getD_eq_getD_getElem?, hget]

/-- **The table and the walk give the same cursor.** -/
theorem cursor_eq_scanCursor (bs : List UInt8) (o : Int) : (ofBytes bs).cursor o = scanCursor bs o := by
  by_cases h : 0 ≤ o ∧ o ≤ bs.length
  · have ho : o.toNat ≤ bs.length := by omega
    have hlen : (bs.take o.toNat).length = o.toNat := by rw [List.length_take, Nat.min_eq_left ho]
    have hcolumn := length_sub_lastNewlineOf (bs.take o.toNat)
    rw [hlen] at hcolumn
    rw [cursor_eq_ok h.1 h.2, scanCursor, if_neg (by omega)]
    simp only [spot, linesBefore_ofBytes ho, lastNewline_ofBytes ho, hcolumn, length_newlinesFrom]
  · rw [cursor_eq_error h, scanCursor, if_pos (by omega)]
    rfl

/-! ## Widths -/

/-- The number of bytes of a line, the newline behind it not counted. -/
def width (bs : List UInt8) (line : Nat) : Nat :=
  ((bs.splitOn newline).getD (line - 1) []).length

/-- A line reaches from behind the newline before it to the newline behind it. -/
theorem length_line (i : Nat) (bs : List UInt8) (count : Nat)
    (h : count ≤ (newlinesFrom i bs).length) :
    ((List.splitOn newline bs).getD count []).length +
        (if count = 0 then i else (newlinesFrom i bs).getD (count - 1) 0 + 1) =
      (newlinesFrom i bs).getD count (i + bs.length) := by
  induction bs generalizing i count with
  | nil =>
    obtain rfl : count = 0 := Nat.le_zero.mp h
    simp [newlinesFrom]
  | cons b bs ih =>
    have hend : i + 1 + bs.length = i + (b :: bs).length := by
      rw [List.length_cons]
      omega
    rw [List.splitOn_cons_eq_if_modifyHead]
    by_cases hb : b = newline
    · -- the first line is empty, the others are those of the rest
      simp only [newlinesFrom, hb, if_true, beq_self_eq_true] at h ⊢
      cases count with
      | zero => simp
      | succ count =>
        have hrest := ih (i + 1) count (by simpa using h)
        rw [hend] at hrest
        cases count with
        | zero => simpa using hrest
        | succ count => simpa using hrest
    · -- the first line has one byte more, the others are those of the rest
      simp only [newlinesFrom, hb, if_false, beq_iff_eq] at h ⊢
      have hrest := ih (i + 1) count h
      rw [hend] at hrest
      obtain ⟨line, lines, hlines⟩ := List.exists_cons_of_ne_nil (List.splitOn_ne_nil newline bs)
      rw [hlines] at hrest ⊢
      cases count with
      | zero =>
        simp only [List.modifyHead_cons, List.getD_cons_zero, List.length_cons, if_true] at hrest ⊢
        omega
      | succ count => simpa using hrest

theorem width_add_lineStart {bs : List UInt8} {count : Nat} (h : count ≤ (ofBytes bs).newlines.size) :
    width bs (count + 1) + (ofBytes bs).lineStart (count + 1) = (ofBytes bs).lineStop count := by
  have hline := length_line 0 bs count (by simpa [ofBytes] using h)
  rw [Nat.zero_add] at hline
  have hstart : (ofBytes bs).lineStart (count + 1) =
      if count = 0 then 0 else (newlinesFrom 0 bs).getD (count - 1) 0 + 1 := by
    unfold lineStart
    by_cases hzero : count = 0
    · simp [hzero]
    · rw [if_neg (by omega), if_neg hzero, show count + 1 - 2 = count - 1 by omega]
      simp [ofBytes, Array.getD_eq_getD_getElem?, List.getD_eq_getElem?_getD]
  have hstop : (ofBytes bs).lineStop count = (newlinesFrom 0 bs).getD count bs.length := by
    simp [lineStop, ofBytes, Array.getD_eq_getD_getElem?, List.getD_eq_getElem?_getD]
  rw [hstart, hstop, ← hline, width, Nat.add_sub_cancel]

/-- A cursor comes back from its offset exactly if its column stays on its line. -/
theorem cursor_offset_iff {bs : List UInt8} {c : Cursor} {o : Nat}
    (h : (ofBytes bs).offset c = .ok o) :
    (ofBytes bs).cursor o = .ok c ↔ 1 ≤ c.column ∧ c.column ≤ width bs c.line.toNat + 1 := by
  obtain ⟨count, hcount, hline, -, -⟩ := of_offset h
  have hwidth := width_add_lineStart hcount
  rw [cursor_eq_iff (ascending_ofBytes bs) h, show c.line.toNat = count + 1 by omega]
  constructor
  · rintro ⟨count', hline', hlow, hhigh⟩
    obtain rfl : count' = count := by omega
    exact ⟨hlow, by omega⟩
  · rintro ⟨hlow, hhigh⟩
    exact ⟨count, hline, hlow, by omega⟩

/-! ## Coordinates -/

/--
**Offsets and cursors are exact coordinates of each other.** The table of newlines and the walk
over the bytes give the same, a cursor for the offsets of the text and the same problem for all
others; a later offset has a later cursor; an offset comes back from its cursor; and of the cursors
that have an offset, those come back whose column is at most one behind the end of their line.
-/
theorem exact_coordinates (bs : List UInt8) :
    (∀ o, (ofBytes bs).cursor o = scanCursor bs o) ∧
    (∀ o p, (ofBytes bs).cursor o = .error p ↔
      ¬(0 ≤ o ∧ o ≤ bs.length) ∧ p = .outOfRange o bs.length) ∧
    (∀ a b : Int, 0 ≤ a → a < b → b ≤ bs.length →
      ∃ c d, (ofBytes bs).cursor a = .ok c ∧ (ofBytes bs).cursor b = .ok d ∧ c.LT d) ∧
    (∀ o : Nat, o ≤ bs.length →
      ∃ c, (ofBytes bs).cursor o = .ok c ∧ (ofBytes bs).offset c = .ok o) ∧
    (∀ c o, (ofBytes bs).offset c = .ok o →
      ((ofBytes bs).cursor o = .ok c ↔ 1 ≤ c.column ∧ c.column ≤ width bs c.line.toNat + 1)) := by
  have hasc := ascending_ofBytes bs
  have inside : ∀ o : Int, 0 ≤ o → o ≤ bs.length →
      (ofBytes bs).cursor o = .ok ((ofBytes bs).spot o.toNat) := fun o h₀ h => cursor_eq_ok h₀ h
  refine ⟨cursor_eq_scanCursor bs, fun o p => ?_, fun a b ha hab hb => ?_, fun o ho => ?_,
    fun c o => cursor_offset_iff⟩
  · by_cases h : 0 ≤ o ∧ o ≤ bs.length
    · rw [inside o h.1 h.2]
      exact ⟨fun he => (nomatch he), fun he => absurd h he.1⟩
    · have herr : (ofBytes bs).cursor o = .error (.outOfRange o bs.length) := cursor_eq_error h
      rw [herr]
      exact ⟨fun he => ⟨h, (Except.error.inj he).symm⟩, fun he => congrArg Except.error he.2.symm⟩
  · exact ⟨_, _, inside a ha (by omega), inside b (by omega) hb, spot_lt hasc (by omega)⟩
  · exact ⟨_, inside o (by omega) (by omega), offset_spot hasc ho⟩

/-- A column that runs over the end of its line, and over an empty line, into the third line. -/
theorem exact_coordinates_overrun :
    (ofBytes [97, 98, 10, 10, 99]).offset ⟨1, 5⟩ = .ok 4 ∧
      (ofBytes [97, 98, 10, 10, 99]).cursor 4 ≠ .ok ⟨1, 5⟩ := by
  have hoffset : (ofBytes [97, 98, 10, 10, 99]).offset ⟨1, 5⟩ = .ok 4 := by rfl
  refine ⟨hoffset, fun hback => ?_⟩
  have hcolumn := ((exact_coordinates [97, 98, 10, 10, 99]).2.2.2.2 _ _ hoffset).mp hback
  exact absurd hcolumn.2 (by decide)

end LineIndex

end AsmLens
