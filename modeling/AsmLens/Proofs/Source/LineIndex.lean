import AsmLens.Source.LineIndex

/-!
# Cursors keep the order of offsets

The bisection finds the newlines before an offset, and so the cursor of an offset is one
more than their number, with the distance from the last of them. From this follows that
cursors compare, lines first, as the offsets do.

* `LineIndex.lt_linesBefore_iff` — what the bisection finds
* `LineIndex.spot_le_iff` — cursors of offsets compare as the offsets
* `LineIndex.position_eq_ok` — a range in the text has a position, and any other has none
-/

namespace AsmLens

/-! ## The newlines of a text -/

theorem le_of_mem_newlinesFrom {bs : List UInt8} {i j : Nat} (h : j ∈ newlinesFrom i bs) :
    i ≤ j := by
  induction bs generalizing i with
  | nil => simp [newlinesFrom] at h
  | cons b bs ih =>
    rw [newlinesFrom] at h
    split at h
    · rcases List.mem_cons.mp h with rfl | h
      · exact Nat.le_refl _
      · exact Nat.le_of_succ_le (ih h)
    · exact Nat.le_of_succ_le (ih h)

/-- The newlines of a text ascend. -/
theorem pairwise_newlinesFrom (i : Nat) (bs : List UInt8) :
    (newlinesFrom i bs).Pairwise (· < ·) := by
  induction bs generalizing i with
  | nil => exact List.Pairwise.nil
  | cons b bs ih =>
    rw [newlinesFrom]
    split
    · exact List.pairwise_cons.mpr ⟨fun j hj => le_of_mem_newlinesFrom hj, ih (i + 1)⟩
    · exact ih (i + 1)

theorem length_toList_loop (bs : ByteArray) (i : Nat) (r : List UInt8) :
    (ByteArray.toList.loop bs i r).length = r.length + (bs.size - i) := by
  induction i, r using ByteArray.toList.loop.induct bs with
  | case1 i r hi ih =>
    rw [ByteArray.toList.loop, if_pos hi, ih, List.length_cons]
    omega
  | case2 i r hi =>
    rw [ByteArray.toList.loop, if_neg hi, List.length_reverse]
    omega

namespace LineIndex

/-- The newlines of an index ascend. -/
def Ascending (ix : LineIndex) : Prop := ix.newlines.toList.Pairwise (· < ·)

theorem ascending_ofBytes (bs : List UInt8) : (ofBytes bs).Ascending :=
  pairwise_newlinesFrom 0 bs

theorem ascending_ofText (s : String) : (ofText s).Ascending := ascending_ofBytes _

theorem length_ofText (s : String) : (ofText s).length = s.utf8ByteSize := by
  simp [ofText, ofBytes, ByteArray.toList, length_toList_loop]

variable {ix : LineIndex}

theorem Ascending.lt (h : ix.Ascending) {i j : Nat} (hij : i < j) (hj : j < ix.newlines.size) :
    ix.newlines[i] < ix.newlines[j] := by
  have := List.pairwise_iff_getElem.mp h i j (by simp; omega) (by simpa using hj) hij
  simpa using this

theorem Ascending.le (h : ix.Ascending) {i j : Nat} (hij : i ≤ j) (hj : j < ix.newlines.size) :
    ix.newlines[i] ≤ ix.newlines[j] := by
  rcases Nat.lt_or_eq_of_le hij with hlt | rfl
  · exact Nat.le_of_lt (h.lt hlt hj)
  · exact Nat.le_refl _

/-! ## The bisection -/

/-- The bisection ends between its bounds, where the numbers below `x` end. -/
theorem bisect_spec (h : ix.Ascending) (x low high : Nat) (hle : low ≤ high)
    (hsize : high ≤ ix.newlines.size)
    (hbelow : ∀ j (hj : j < ix.newlines.size), j < low → ix.newlines[j] < x)
    (habove : ∀ j (hj : j < ix.newlines.size), high ≤ j → x ≤ ix.newlines[j]) :
    bisect ix.newlines x low high ≤ high ∧
      ∀ j (hj : j < ix.newlines.size),
        ix.newlines[j] < x ↔ j < bisect ix.newlines x low high := by
  induction low, high using bisect.induct ix.newlines x with
  | case1 low high hlt mid v hmid hv ih =>
    obtain ⟨hsz, rfl⟩ := Array.getElem?_eq_some_iff.mp hmid
    have hb : bisect ix.newlines x low high = bisect ix.newlines x (mid + 1) high := by
      rw [bisect, if_pos hlt]
      simp only [show (low + high) / 2 = mid from rfl, hmid, if_pos hv]
    rw [hb]
    -- the middle is below `x`, and so is all before it
    refine ih (by omega) hsize (fun j hj hjm => ?_) habove
    exact Nat.lt_of_le_of_lt (h.le (Nat.le_of_lt_succ hjm) hsz) hv
  | case2 low high hlt mid v hmid hv ih =>
    obtain ⟨hsz, rfl⟩ := Array.getElem?_eq_some_iff.mp hmid
    have hb : bisect ix.newlines x low high = bisect ix.newlines x low mid := by
      rw [bisect, if_pos hlt]
      simp only [show (low + high) / 2 = mid from rfl, hmid, if_neg hv]
    rw [hb]
    -- the middle is not below `x`, nor is anything behind it
    obtain ⟨hr, hiff⟩ := ih (by omega) (by omega) hbelow
      (fun j hj hmj => Nat.le_trans (Nat.le_of_not_lt hv) (h.le hmj hj))
    exact ⟨by omega, hiff⟩
  | case3 low high hlt mid hmid _ =>
    -- the middle of two bounds in the array lies in the array
    have : mid < ix.newlines.size := by omega
    simp [this] at hmid
  | case4 low high hlt =>
    have he : low = high := by omega
    rw [bisect, if_neg hlt]
    refine ⟨hle, fun j hj => ⟨fun hx => ?_, hbelow j hj⟩⟩
    have := habove j hj
    omega

theorem linesBefore_le (h : ix.Ascending) (o : Nat) : ix.linesBefore o ≤ ix.newlines.size :=
  (bisect_spec h o 0 _ (Nat.zero_le _) (Nat.le_refl _) (by omega) (by omega)).1

/-- The newlines before an offset are the first ones, as many as the bisection finds. -/
theorem lt_linesBefore_iff (h : ix.Ascending) {o j : Nat} (hj : j < ix.newlines.size) :
    ix.newlines[j] < o ↔ j < ix.linesBefore o :=
  (bisect_spec h o 0 _ (Nat.zero_le _) (Nat.le_refl _) (by omega) (by omega)).2 j hj

theorem linesBefore_mono (h : ix.Ascending) {a b : Nat} (hab : a ≤ b) :
    ix.linesBefore a ≤ ix.linesBefore b := by
  refine Nat.le_of_not_lt fun hlt => ?_
  have hs : ix.linesBefore b < ix.newlines.size := Nat.lt_of_lt_of_le hlt (linesBefore_le h a)
  have hx : ix.newlines[ix.linesBefore b] < a := (lt_linesBefore_iff h hs).mpr hlt
  have := (lt_linesBefore_iff h hs).mp (Nat.lt_of_lt_of_le hx hab)
  omega

/-! ## Cursors -/

/-- The offset of the last newline before an offset, or -1. -/
def lastNewline (ix : LineIndex) (o : Nat) : Int :=
  if ix.linesBefore o = 0 then -1 else ix.newlines.getD (ix.linesBefore o - 1) 0

/-- The cursor of an offset that lies in the text. -/
def spot (ix : LineIndex) (o : Nat) : Cursor := ⟨ix.linesBefore o + 1, o - ix.lastNewline o⟩

theorem cursor_eq_ok {o : Int} (h₀ : 0 ≤ o) (h : o ≤ ix.length) :
    ix.cursor o = .ok (ix.spot o.toNat) := by
  rw [cursor, if_neg (by omega)]
  simp only [spot, lastNewline, Int.toNat_of_nonneg h₀]

theorem cursor_eq_error {o : Int} (h : ¬(0 ≤ o ∧ o ≤ ix.length)) :
    ix.cursor o = .error (.outOfRange o ix.length) := by
  rw [cursor, if_pos (by omega)]

/-- A later offset has a later cursor. -/
theorem spot_lt (h : ix.Ascending) {a b : Nat} (hab : a < b) : (ix.spot a).LT (ix.spot b) := by
  rcases Nat.lt_or_eq_of_le (linesBefore_mono h (Nat.le_of_lt hab)) with hlt | heq
  · exact .inl (by simp only [spot]; omega)
  · -- on one line the columns count from the same newline
    have hl : ix.lastNewline a = ix.lastNewline b := by simp only [lastNewline, heq]
    exact .inr ⟨by simp only [spot, heq], by simp only [spot, hl]; omega⟩

end LineIndex

theorem Cursor.LE.refl (c : Cursor) : c.LE c := .inr ⟨rfl, Int.le_refl _⟩

theorem Cursor.LT.le {a b : Cursor} (h : a.LT b) : a.LE b := by
  rcases h with h | ⟨h, hc⟩
  · exact .inl h
  · exact .inr ⟨h, Int.le_of_lt hc⟩

theorem Cursor.LT.not_ge {a b : Cursor} (h : a.LT b) : ¬b.LE a := by
  simp only [Cursor.LT, Cursor.LE] at *
  omega

namespace LineIndex

variable {ix : LineIndex}

/-- **Cursors compare as the offsets do.** -/
theorem spot_le_iff (h : ix.Ascending) {a b : Nat} : (ix.spot a).LE (ix.spot b) ↔ a ≤ b := by
  constructor
  · intro hle
    exact Nat.le_of_not_lt fun hlt => (spot_lt h hlt).not_ge hle
  · intro hle
    rcases Nat.lt_or_eq_of_le hle with hlt | rfl
    · exact (spot_lt h hlt).le
    · exact .refl _

/-! ## Positions -/

/-- The position of a range that lies in the text. -/
def place (ix : LineIndex) (r : SourceRange) : Position :=
  ⟨ix.spot r.first.toNat, ix.spot r.last.toNat, r.length⟩

/-- A range that lies in the text has a position. -/
theorem position_eq_ok {r : SourceRange} (h₀ : 0 ≤ r.first) (hle : r.first ≤ r.last)
    (h : r.last ≤ ix.length) : ix.position r = .ok (ix.place r) := by
  rw [position, cursor_eq_ok h₀ (by omega), cursor_eq_ok (by omega) h]
  rfl

/-- A range that runs out of the text has none. -/
theorem position_eq_error {r : SourceRange} (h : (ix.length : Int) < r.last) :
    ∃ o, ix.position r = .error (.outOfRange o ix.length) := by
  rw [position, cursor_eq_error (o := r.last) (by omega)]
  by_cases hf : 0 ≤ r.first ∧ r.first ≤ ix.length
  · rw [cursor_eq_ok hf.1 hf.2]
    exact ⟨r.last, rfl⟩
  · rw [cursor_eq_error hf]
    exact ⟨r.first, rfl⟩

end LineIndex

end AsmLens
