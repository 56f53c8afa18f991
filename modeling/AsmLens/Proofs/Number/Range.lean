import AsmLens.Number.Basic

/-!
# Which numbers fit

Integers have any size, floating-point numbers do not. A quotient that is no greater than the greatest
finite number is rounded to a finite number, so the arithmetic of numbers whose integers are far enough
below that gives a value.

* `Binary64.stepOf_spec` — the step of a quotient, between its bounds
* `Binary64.exists_round` — a quotient that is not too large is rounded to a finite number
* `Binary64.Fits` — an integer that is not too large; what a finite number is truncated to is one
* `Number.Within` — a number that, if it is an integer, is below a power of two
* `Number.exists_add`, `Number.exists_div`, `Number.exists_pretty` — what such numbers come to
-/

namespace AsmLens

theorem pow2_add (a b : Nat) : pow2 (a + b) = pow2 a * pow2 b := Nat.pow_add 2 a b

theorem pow2_le_pow2 {a b : Nat} (h : a ≤ b) : pow2 a ≤ pow2 b :=
  Nat.pow_le_pow_right (by decide) h

theorem lt_of_pow2_lt {a b : Nat} (h : pow2 a < pow2 b) : a < b :=
  (Nat.pow_lt_pow_iff_right (by decide)).mp h

namespace Binary64

/-! ## Rounding -/

theorem roundHalfEven_le {a d n : Nat} (hd : 0 < d) (h : a ≤ d * n) : roundHalfEven a d ≤ n := by
  have hq : a / d ≤ n := Nat.div_le_of_le_mul h
  rcases roundHalfEven_cases a d with ⟨he, -⟩ | ⟨he, hhalf⟩
  · omega
  · -- a quotient that is rounded up is not whole
    have hne : a / d ≠ n := by
      rintro rfl
      have := Nat.div_add_mod a d
      omega
    omega

theorem le_roundHalfEven {a d n : Nat} (hd : 0 < d) (h : d * n ≤ a) : n ≤ roundHalfEven a d := by
  have hq : n ≤ a / d := (Nat.le_div_iff_mul_le hd).mpr (Nat.mul_comm d n ▸ h)
  rcases roundHalfEven_cases a d with ⟨he, -⟩ | ⟨he, -⟩ <;> omega

/-- At its step a quotient has at most 53 bits, and no fewer unless the step is 0. -/
theorem stepOf_spec {a d : Nat} (hd : 0 < d) :
    a < d * pow2 (stepOf a d + 53) ∧ (stepOf a d = 0 ∨ d * pow2 (stepOf a d + 52) ≤ a) := by
  have hdlow : pow2 d.log2 ≤ d := Nat.log2_self_le (Nat.pos_iff_ne_zero.mp hd)
  have hdhigh : d < pow2 (d.log2 + 1) := Nat.lt_log2_self
  have hahigh : a < pow2 (a.log2 + 1) := Nat.lt_log2_self
  have halow : a.log2 ≠ 0 → pow2 a.log2 ≤ a := fun h => Nat.log2_self_le (by rintro rfl; exact h rfl)
  have hupper : ∀ s, a.log2 ≤ d.log2 + 52 + s → a < d * pow2 (s + 53) := by
    intro s hs
    calc a < pow2 (a.log2 + 1) := hahigh
      _ ≤ pow2 (d.log2 + (s + 53)) := pow2_le_pow2 (by omega)
      _ = pow2 d.log2 * pow2 (s + 53) := pow2_add _ _
      _ ≤ d * pow2 (s + 53) := Nat.mul_le_mul_right _ hdlow
  unfold stepOf
  dsimp only
  split
  · next h =>
    -- the estimate from the lengths is one too many
    obtain ⟨hpos, hlt⟩ := h
    have hs : a.log2 - (d.log2 + 52) - 1 + 53 = a.log2 - (d.log2 + 52) + 52 := by omega
    refine ⟨hs ▸ hlt, .inr ?_⟩
    calc d * pow2 (a.log2 - (d.log2 + 52) - 1 + 52)
        ≤ pow2 (d.log2 + 1) * pow2 (a.log2 - (d.log2 + 52) - 1 + 52) :=
          Nat.mul_le_mul_right _ (Nat.le_of_lt hdhigh)
      _ = pow2 (d.log2 + 1 + (a.log2 - (d.log2 + 52) - 1 + 52)) := (pow2_add _ _).symm
      _ ≤ pow2 a.log2 := pow2_le_pow2 (by omega)
      _ ≤ a := halow (by omega)
  · next h =>
    refine ⟨hupper _ (by omega), ?_⟩
    rcases Nat.eq_zero_or_pos (a.log2 - (d.log2 + 52)) with h0 | h0
    · exact .inl h0
    · exact .inr (Nat.le_of_not_lt fun hlt => h ⟨h0, hlt⟩)

/-- The magnitude of the greatest finite number. -/
def greatest : Nat := magnitude (pow2 53 - 1) 2045

theorem pow2_le_greatest : pow2 2097 ≤ greatest := by
  rw [show 2097 = 52 + 2045 from rfl, pow2_add]
  exact Nat.mul_le_mul_right _ (by decide)

theorem greatest_lt_pow2 : greatest < pow2 2098 := by
  rw [show 2098 = 53 + 2045 from rfl, pow2_add]
  exact Nat.mul_lt_mul_of_pos_right (by decide) (pow2_pos _)

theorem Valid.magnitude_le {sig step : Nat} (h : Valid sig step) : magnitude sig step ≤ greatest :=
  Nat.mul_le_mul (Nat.le_sub_one_of_lt h.sig_lt) (pow2_le_pow2 h.step_le)

/-- **A quotient that is no greater than the greatest finite number is rounded to a finite number.** -/
theorem exists_round (negative : Bool) {a d : Nat} (hd : 0 < d) (h : a ≤ d * greatest) :
    ∃ sig step valid, round negative a d = .finite negative sig step valid := by
  obtain ⟨hupper, hlower⟩ := stepOf_spec (a := a) hd
  have hstep : 0 < d * pow2 (stepOf a d) := Nat.mul_pos hd (pow2_pos _)
  have hle : roundHalfEven a (d * pow2 (stepOf a d)) ≤ pow2 53 := by
    refine roundHalfEven_le hstep ?_
    rw [Nat.mul_assoc, ← pow2_add]
    exact Nat.le_of_lt hupper
  have hfull : pow2 52 ≤ roundHalfEven a (d * pow2 (stepOf a d)) ∨ stepOf a d = 0 := by
    rcases hlower with h0 | hlow
    · exact .inr h0
    · refine .inl (le_roundHalfEven hstep ?_)
      rw [Nat.mul_assoc, ← pow2_add]
      exact hlow
  have hbound : stepOf a d ≤ 2045 := by
    rcases hlower with h0 | hlow
    · omega
    · have hpow : pow2 (stepOf a d + 52) < pow2 2098 :=
        Nat.lt_of_le_of_lt (Nat.le_of_mul_le_mul_left (Nat.le_trans hlow h) hd) greatest_lt_pow2
      have := lt_of_pow2_lt hpow
      omega
  unfold round
  dsimp only
  by_cases hm : roundHalfEven a (d * pow2 (stepOf a d)) = pow2 53
  · -- at the last step there is no room for one more bit
    have hlast : stepOf a d ≠ 2045 := by
      intro hs
      rw [hs] at hm hstep
      have ha : a ≤ d * pow2 2045 * (pow2 53 - 1) := by
        rw [Nat.mul_assoc, Nat.mul_comm (pow2 2045)]
        exact h
      have := roundHalfEven_le hstep ha
      have := pow2_pos 53
      omega
    have hvalid : Valid (pow2 52) (stepOf a d + 1) :=
      ⟨by decide, .inl (Nat.le_refl _), by omega⟩
    rw [if_pos hm]
    dsimp only
    rw [dif_pos hvalid]
    exact ⟨_, _, _, rfl⟩
  · have hvalid : Valid (roundHalfEven a (d * pow2 (stepOf a d))) (stepOf a d) :=
      ⟨Nat.lt_of_le_of_ne hle hm, hfull, hbound⟩
    rw [if_neg hm]
    dsimp only
    rw [dif_pos hvalid]
    exact ⟨_, _, _, rfl⟩

/-- An integer that is no greater than the greatest finite number. -/
def Fits (n : Int) : Prop := n.natAbs * pow2 unitBits ≤ greatest

theorem fits_of_lt {n : Int} (h : n.natAbs < pow2 1023) : Fits n := by
  have hle : n.natAbs * pow2 unitBits ≤ pow2 1023 * pow2 unitBits :=
    Nat.mul_le_mul_right _ (Nat.le_of_lt h)
  rw [← pow2_add, show 1023 + unitBits = 2097 from rfl] at hle
  exact Nat.le_trans hle pow2_le_greatest

/-- What a number is truncated to is no greater than the number. -/
theorem fits_of_truncate? {x : Binary64} {n : Int} (h : x.truncate? = some n) : Fits n := by
  cases x with
  | finite s sig step valid =>
    have habs : n.natAbs = magnitude sig step / pow2 unitBits := by
      rw [← Option.some.inj h]
      split
      · exact Int.natAbs_neg _
      · rfl
    calc n.natAbs * pow2 unitBits
        = magnitude sig step / pow2 unitBits * pow2 unitBits := by rw [habs]
      _ ≤ magnitude sig step := Nat.div_mul_le_self _ _
      _ ≤ greatest := valid.magnitude_le
  | _ => exact nomatch h

/-- An integer that is not too large has a finite number next to it. -/
theorem exists_ofInt? {n : Int} (h : Fits n) : ∃ x, ofInt? n = some x := by
  have hscaled : (n * (pow2 unitBits : Int)).natAbs ≤ 1 * greatest := by
    rw [Int.natAbs_mul, Int.natAbs_natCast, Nat.one_mul]
    exact h
  obtain ⟨sig, step, valid, hr⟩ :=
    exists_round (decide (n * (pow2 unitBits : Int) < 0)) Nat.one_pos hscaled
  have hn : ofInt n = .finite (decide (n * (pow2 unitBits : Int) < 0)) sig step valid := hr
  refine ⟨.finite (decide (n * (pow2 unitBits : Int) < 0)) sig step valid, ?_⟩
  unfold ofInt?
  rw [hn]

end Binary64

/-! ## Arithmetic -/

namespace Number

/-- A floating-point number, or an integer whose magnitude is below `2 ^ k`. -/
def Within (k : Nat) : Number → Prop
  | .int n => n.natAbs < pow2 k
  | .float _ => True

variable {a b : Number} {j k : Nat}

theorem Within.mono (h : a.Within j) (hk : j ≤ k) : a.Within k := by
  cases a with
  | int n => exact Nat.lt_of_lt_of_le h (pow2_le_pow2 hk)
  | float x => trivial

theorem exists_toFloat_int {n : Int} (h : Binary64.Fits n) : ∃ x, (Number.int n).toFloat = .ok x := by
  obtain ⟨x, hx⟩ := Binary64.exists_ofInt? h
  refine ⟨x, ?_⟩
  unfold toFloat
  simp only [hx]

theorem exists_toFloat (h : a.Within 1023) : ∃ x, a.toFloat = .ok x := by
  cases a with
  | int n => exact exists_toFloat_int (Binary64.fits_of_lt h)
  | float x => exact ⟨x, rfl⟩

/-- Two numbers have a sum, which needs one bit more. -/
theorem exists_add (ha : a.Within k) (hb : b.Within k) (hk : k < 1023) :
    ∃ c, a.add b = .ok c ∧ c.Within (k + 1) := by
  obtain ⟨x, hx⟩ := exists_toFloat (ha.mono (Nat.le_of_lt hk))
  obtain ⟨y, hy⟩ := exists_toFloat (hb.mono (Nat.le_of_lt hk))
  have hfloat : (do return Number.float ((← a.toFloat).add (← b.toFloat)) : Except Fault Number) =
      .ok (.float (x.add y)) := by
    rw [hx, hy]
    rfl
  cases a with
  | float u => exact ⟨_, hfloat, trivial⟩
  | int m =>
    cases b with
    | float v => exact ⟨_, hfloat, trivial⟩
    | int n =>
      refine ⟨_, rfl, ?_⟩
      have hm : m.natAbs < pow2 k := ha
      have hn : n.natAbs < pow2 k := hb
      show (m + n).natAbs < pow2 (k + 1)
      rw [pow2_succ]
      omega

theorem exists_divInt {m n : Int} (hm : Binary64.Fits m) (hn : n ≠ 0) : ∃ x, divInt m n = .ok x := by
  have hpos : 0 < n.natAbs := Int.natAbs_pos.mpr hn
  have hle : m.natAbs * pow2 Binary64.unitBits ≤ n.natAbs * Binary64.greatest :=
    Nat.le_trans hm (Nat.le_mul_of_pos_left _ hpos)
  obtain ⟨sig, step, valid, hr⟩ :=
    Binary64.exists_round (decide (m < 0) != decide (n < 0)) hpos hle
  refine ⟨.finite (decide (m < 0) != decide (n < 0)) sig step valid, ?_⟩
  rw [divInt, hr]
  rfl

/-- A number has a quotient by an integer that is not zero. -/
theorem exists_div {n : Int} (ha : a.Within 1023) (hn : n ≠ 0) (hfits : Binary64.Fits n) :
    ∃ x, a.div (.int n) = .ok x := by
  cases a with
  | int m => exact exists_divInt (Binary64.fits_of_lt ha) hn
  | float x =>
    obtain ⟨y, hy⟩ := exists_toFloat_int hfits
    refine ⟨x.div y, ?_⟩
    show (do return (← (Number.float x).toFloat).div (← (Number.int n).toFloat)) = _
    rw [hy]
    rfl

theorem exists_pretty (h : a.Within 1023) : ∃ s, a.pretty = .ok s := by
  cases a with
  | int n =>
    obtain ⟨x, hx⟩ := Binary64.exists_ofInt? (Binary64.fits_of_lt h)
    refine ⟨String.ofList (Text.groupedInt n), ?_⟩
    unfold pretty
    simp only [hx]
  | float x =>
    unfold pretty
    dsimp only
    split
    · exact ⟨_, rfl⟩
    · exact ⟨_, rfl⟩

end Number

end AsmLens
