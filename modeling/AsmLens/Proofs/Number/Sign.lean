import AsmLens.Proofs.Failure
import AsmLens.Proofs.Number.Doubling

/-!
# Signs

Rounding looks at the sign of a quotient only to put it in front of the result. So a quotient by a
negated integer is the negated quotient, and sums of numbers that are not negative are not negative,
nor are their quotients by positive integers: no integer but zero is rounded to zero.

* `Binary64.round_not`, `Number.div_neg` — a sign goes through rounding and through division
* `Binary64.Nonneg` — the floating-point numbers that are zero or greater
* `Number.Nonneg.add`, `Number.Nonneg.div` — sums and quotients that are not negative
* `Number.failsOnly_add`, `Number.failsOnly_div` — arithmetic fails only for numbers that are too large
-/

namespace AsmLens

/-- Of an integer other than zero and its negation, one is negative. -/
theorem decide_neg_lt_zero {n : Int} (h : n ≠ 0) : decide (-n < 0) = !decide (n < 0) := by
  rw [← decide_not]
  exact decide_eq_decide.mpr (by omega)

namespace Binary64

variable {x y : Binary64} {a d : Nat} {n : Int}

/-! ## Negation -/

/-- What a quotient is rounded to is decided without its sign. -/
theorem exists_round_eq (a d : Nat) : ∃ sig step,
    (sig = roundHalfEven a (d * pow2 (stepOf a d)) ∨ sig = pow2 52) ∧
    ∀ negative, round negative a d =
      if h : Valid sig step then .finite negative sig step h else .infinity negative := by
  -- a significand that is rounded up to the next power is the least one of the next step
  by_cases hcarry : roundHalfEven a (d * pow2 (stepOf a d)) = pow2 53
  · refine ⟨pow2 52, stepOf a d + 1, .inr rfl, fun negative => ?_⟩
    unfold round
    dsimp only
    rw [if_pos hcarry]
  · refine ⟨_, stepOf a d, .inl rfl, fun negative => ?_⟩
    unfold round
    dsimp only
    rw [if_neg hcarry]

/-- A sign goes through rounding. -/
theorem round_not (negative : Bool) (a d : Nat) : round (!negative) a d = (round negative a d).neg := by
  obtain ⟨sig, step, -, hround⟩ := exists_round_eq a d
  rw [hround, hround]
  by_cases h : Valid sig step
  · rw [dif_pos h, dif_pos h, neg]
  · rw [dif_neg h, dif_neg h, neg]

/-- A quotient by a negated number is the negated quotient. -/
theorem div_neg (x y : Binary64) : x.div y.neg = (x.div y).neg := by
  have hsign : ∀ s t : Bool, (s != !t) = !(s != t) := by decide
  cases x with
  | nan => cases y <;> rfl
  | infinity s =>
    cases y with
    | finite t n f valid => simp only [neg, div, hsign]
    | _ => rfl
  | finite s m e valid =>
    cases y with
    | nan => rfl
    | infinity t => simp only [neg, div, hsign, zero]
    | finite t n f valid' =>
      -- for either sign, so that it opens both sides
      have hdiv : ∀ t, (finite s m e valid).div (finite t n f valid') =
          if n = 0 then (if m = 0 then .nan else .infinity (s != t))
          else round (s != t) (magnitude m e * pow2 unitBits) (magnitude n f) := fun _ => rfl
      rw [neg, hdiv, hdiv, hsign, round_not]
      by_cases hn : n = 0
      · rw [if_pos hn, if_pos hn]
        by_cases hm : m = 0
        · rw [if_pos hm, if_pos hm, neg]
        · rw [if_neg hm, if_neg hm, neg]
      · rw [if_neg hn, if_neg hn]

theorem ofInt_neg (h : n ≠ 0) : ofInt (-n) = (ofInt n).neg := by
  have hunit : (0 : Int) < pow2 unitBits := Int.natCast_pos.mpr (pow2_pos _)
  have hne : n * (pow2 unitBits : Int) ≠ 0 := Int.mul_ne_zero h (Int.ne_of_gt hunit)
  rw [ofInt, ofInt, Int.neg_mul, roundInt, roundInt, decide_neg_lt_zero hne, Int.natAbs_neg,
    round_not]

theorem ofInt?_neg (h : n ≠ 0) : ofInt? (-n) = (ofInt? n).map neg := by
  unfold ofInt?
  rw [ofInt_neg h]
  cases ofInt n <;> rfl

/-! ## Zero -/

theorem round_zero (negative : Bool) (hd : 0 < d) : round negative 0 d = zero negative := by
  have hzero : round negative (d * magnitude 0 0) d = _ :=
    round_mul negative hd (pow2_pos 53) (.inr rfl)
  rw [magnitude, Nat.zero_mul, Nat.mul_zero] at hzero
  rw [hzero, dif_pos ⟨pow2_pos 53, .inr rfl, by decide⟩]
  rfl

/-- A quotient of one or more is not rounded to zero. -/
theorem isZero_round (negative : Bool) (hd : 0 < d) (h : d ≤ a) :
    (round negative a d).isZero = false := by
  have hstep : d * pow2 (stepOf a d) ≤ a := by
    rcases (stepOf_spec (a := a) hd).2 with hzero | hlower
    · rw [hzero, pow2_zero, Nat.mul_one]
      exact h
    · refine Nat.le_trans (Nat.mul_le_mul_left d (pow2_le_pow2 ?_)) hlower
      exact Nat.le_add_right _ 52
  have hsig : 1 ≤ roundHalfEven a (d * pow2 (stepOf a d)) := by
    refine le_roundHalfEven (Nat.mul_pos hd (pow2_pos _)) ?_
    rwa [Nat.mul_one]
  obtain ⟨sig, step, hcases, hround⟩ := exists_round_eq a d
  have hpos : sig ≠ 0 := by
    rcases hcases with hsig' | hsig'
    · rw [hsig']
      exact Nat.pos_iff_ne_zero.mp hsig
    · rw [hsig']
      exact Nat.pos_iff_ne_zero.mp (pow2_pos 52)
  rw [hround]
  by_cases h : Valid sig step
  · rw [dif_pos h]
    exact decide_eq_false hpos
  · rw [dif_neg h]
    rfl

theorem isZero_ofInt (h : n ≠ 0) : (ofInt n).isZero = false := by
  have hpos : 0 < (n * (pow2 unitBits : Int)).natAbs := by
    rw [Int.natAbs_mul, Int.natAbs_natCast]
    exact Nat.mul_pos (Int.natAbs_pos.mpr h) (pow2_pos _)
  rw [ofInt, roundInt]
  exact isZero_round _ Nat.one_pos (Nat.succ_le_of_lt hpos)

/-! ## Numbers that are not negative -/

/-- That a floating-point number is zero, with any sign, or greater. -/
inductive Nonneg : Binary64 → Prop
  | infinity : Nonneg (.infinity false)
  | finite {sig step valid} : Nonneg (.finite false sig step valid)
  | zero {s step valid} : Nonneg (.finite s 0 step valid)

theorem not_nonneg_nan : ¬Binary64.nan.Nonneg := by
  intro h
  cases h

theorem not_nonneg_infinity : ¬(Binary64.infinity true).Nonneg := by
  intro h
  cases h

theorem nonneg_finite {s : Bool} {sig step : Nat} {valid : Valid sig step} :
    (Binary64.finite s sig step valid).Nonneg ↔ s = false ∨ sig = 0 := by
  constructor
  · intro h
    cases h with
    | finite => exact .inl rfl
    | zero => exact .inr rfl
  · rintro (rfl | rfl)
    · exact .finite
    · exact .zero

theorem nonneg_round (a d : Nat) : (round false a d).Nonneg := by
  obtain ⟨sig, step, -, hround⟩ := exists_round_eq a d
  rw [hround]
  split
  · exact .finite
  · exact .infinity

theorem nonneg_ofInt (h : 0 ≤ n) : (ofInt n).Nonneg := by
  have hunits : ¬n * (pow2 unitBits : Int) < 0 :=
    Int.not_lt.mpr (Int.mul_nonneg h (Int.natCast_nonneg _))
  rw [ofInt, roundInt, decide_eq_false hunits]
  exact nonneg_round _ _

theorem Nonneg.scaled {s : Bool} {sig step : Nat} {valid : Valid sig step}
    (h : (Binary64.finite s sig step valid).Nonneg) : 0 ≤ scaled s sig step := by
  cases h with
  | finite => exact Int.natCast_nonneg _
  | zero => simp [Binary64.scaled, magnitude]

theorem Nonneg.add (hx : x.Nonneg) (hy : y.Nonneg) : (x.add y).Nonneg := by
  cases x with
  | nan => cases hx
  | infinity s =>
    cases hx
    cases hy <;> exact .infinity
  | finite s m e valid =>
    cases y with
    | nan => cases hy
    | infinity t => exact hy
    | finite t n f valid' =>
      have hsum : ¬Binary64.scaled s m e + Binary64.scaled t n f < 0 :=
        Int.not_lt.mpr (Int.add_nonneg hx.scaled hy.scaled)
      unfold Binary64.add
      dsimp only
      split
      · exact .zero
      · rw [roundInt, decide_eq_false hsum]
        exact nonneg_round _ _

/-- A quotient by a finite number other than zero. -/
theorem Nonneg.div {t : Bool} {sig step : Nat} {valid : Valid sig step} (hx : x.Nonneg)
    (hy : (Binary64.finite t sig step valid).Nonneg) (hsig : sig ≠ 0) :
    (x.div (.finite t sig step valid)).Nonneg := by
  obtain rfl : t = false := (nonneg_finite.mp hy).resolve_right hsig
  have hmagnitude : 0 < magnitude sig step := Nat.mul_pos (Nat.pos_of_ne_zero hsig) (pow2_pos step)
  cases hx with
  | infinity => exact .infinity
  | finite =>
    rw [Binary64.div, if_neg hsig]
    exact nonneg_round _ _
  | zero =>
    rw [Binary64.div, if_neg hsig, magnitude, Nat.zero_mul, Nat.zero_mul, round_zero _ hmagnitude]
    exact .zero

end Binary64

/-! ## Arithmetic -/

/-- A fault of a number that no floating-point number is next to. -/
def Fault.TooLarge (f : Fault) : Prop := f = .integerTooLarge ∨ f = .quotientTooLarge

namespace Number

variable {a b c : Number} {x : Binary64} {m n : Int}

/-- The negated number. -/
def neg : Number → Number
  | .int n => .int (-n)
  | .float x => .float x.neg

theorem toFloat_neg (h : n ≠ 0) :
    (Number.int (-n)).toFloat = (Number.int n).toFloat.map Binary64.neg := by
  unfold toFloat
  simp only [Binary64.ofInt?_neg h]
  cases Binary64.ofInt? n <;> rfl

theorem divInt_neg (m : Int) (h : n ≠ 0) : divInt m (-n) = (divInt m n).map Binary64.neg := by
  have hsign : (decide (m < 0) != decide (-n < 0)) = !(decide (m < 0) != decide (n < 0)) := by
    rw [decide_neg_lt_zero h]
    cases decide (m < 0) <;> cases decide (n < 0) <;> rfl
  rw [divInt, divInt, hsign, Int.natAbs_neg, Binary64.round_not]
  generalize Binary64.round (decide (m < 0) != decide (n < 0)) (m.natAbs * pow2 Binary64.unitBits)
    n.natAbs = x
  cases x <;> rfl

/-- **A quotient by a negated integer is the negated quotient.** -/
theorem div_neg (a : Number) (h : n ≠ 0) :
    a.div (.int (-n)) = (a.div (.int n)).map Binary64.neg := by
  cases a with
  | int m =>
    have hdiv : ∀ k, (Number.int m).div (.int k) = divInt m k := fun _ => rfl
    rw [hdiv, hdiv, divInt_neg m h]
  | float x =>
    have hdiv : ∀ k, (Number.float x).div (.int k) =
        (do return (← (Number.float x).toFloat).div (← (Number.int k).toFloat)) := fun _ => rfl
    rw [hdiv, hdiv, toFloat_neg h]
    cases (Number.int n).toFloat with
    | error f => rfl
    | ok y => exact congrArg Except.ok (Binary64.div_neg x y)

/-! ## Signs of sums and quotients -/

theorem nonneg_int : (Number.int n).Nonneg ↔ 0 ≤ n := by
  have hunit : (0 : Int) < pow2 Binary64.unitBits := Int.natCast_pos.mpr (pow2_pos _)
  simp only [nonneg_iff, place?, Option.some.injEq, exists_eq_left', Place.le, decide_eq_true_eq]
  exact ⟨fun h => Int.nonneg_of_mul_nonneg_left h hunit, fun h => Int.mul_nonneg h (Int.le_of_lt hunit)⟩

theorem nonneg_float : (Number.float x).Nonneg ↔ x.Nonneg := by
  rw [nonneg_iff]
  cases x with
  | nan => exact iff_of_false (by simp [place?]) Binary64.not_nonneg_nan
  | infinity s =>
    cases s with
    | false => exact iff_of_true ⟨.top, rfl, rfl⟩ .infinity
    | true => exact iff_of_false (by simp [place?, Place.le]) Binary64.not_nonneg_infinity
  | finite s sig step valid =>
    simp only [place?, Option.some.injEq, exists_eq_left', Place.le, decide_eq_true_eq]
    refine ⟨fun h => Binary64.nonneg_finite.mpr ?_, fun h => h.scaled⟩
    cases s with
    | false => exact .inl rfl
    | true =>
      have hpow := pow2_pos step
      have hle : 0 ≤ -(Binary64.magnitude sig step : Int) := h
      have hzero : sig * pow2 step = 0 := by
        unfold Binary64.magnitude at hle
        omega
      exact .inr ((Nat.mul_eq_zero.mp hzero).resolve_right (Nat.pos_iff_ne_zero.mp hpow))

theorem toFloat_int_eq_ok (h : (Number.int n).toFloat = .ok x) :
    x = Binary64.ofInt n ∧ ∃ s sig step valid, x = .finite s sig step valid := by
  unfold toFloat Binary64.ofInt? at h
  dsimp only at h
  cases hn : Binary64.ofInt n with
  | finite s sig step valid =>
    rw [hn] at h
    obtain rfl := Except.ok.inj h
    exact ⟨rfl, s, sig, step, valid, rfl⟩
  | _ =>
    rw [hn] at h
    exact nomatch h

/-- No integer but zero becomes zero. -/
theorem isZero_of_toFloat (hn : n ≠ 0) (h : (Number.int n).toFloat = .ok x) : x.isZero = false := by
  rw [(toFloat_int_eq_ok h).1]
  exact Binary64.isZero_ofInt hn

theorem Nonneg.toFloat (ha : a.Nonneg) (h : a.toFloat = .ok x) : x.Nonneg := by
  cases a with
  | int n =>
    rw [(toFloat_int_eq_ok h).1]
    exact Binary64.nonneg_ofInt (nonneg_int.mp ha)
  | float y =>
    rw [← Except.ok.inj h]
    exact nonneg_float.mp ha

/-- **A sum of numbers that are not negative is not negative.** -/
theorem Nonneg.add (ha : a.Nonneg) (hb : b.Nonneg) (h : a.add b = .ok c) : c.Nonneg := by
  have hfloat : ∀ {e}, (do return Number.float ((← a.toFloat).add (← b.toFloat)) : Except Fault Number) =
      .ok e → e.Nonneg := by
    intro e he
    obtain ⟨x, hx, he⟩ := FailsOnly.bind_eq_ok.mp he
    obtain ⟨y, hy, he⟩ := FailsOnly.bind_eq_ok.mp he
    rw [← Except.ok.inj he]
    exact nonneg_float.mpr ((ha.toFloat hx).add (hb.toFloat hy))
  cases a with
  | float x => exact hfloat h
  | int m =>
    cases b with
    | float y => exact hfloat h
    | int n =>
      rw [← Except.ok.inj h]
      exact nonneg_int.mpr (Int.add_nonneg (nonneg_int.mp ha) (nonneg_int.mp hb))

theorem eq_of_finiteOr {f : Fault} {y : Binary64} (h : finiteOr f y = .ok x) : x = y := by
  cases y with
  | finite => exact (Except.ok.inj h).symm
  | _ => cases h

theorem nonneg_divInt (hm : 0 ≤ m) (hn : 0 < n) (h : divInt m n = .ok x) : x.Nonneg := by
  have hsign : (decide (m < 0) != decide (n < 0)) = false := by
    rw [decide_eq_false (Int.not_lt.mpr hm), decide_eq_false (Int.not_lt.mpr (Int.le_of_lt hn))]
    rfl
  rw [divInt, hsign] at h
  rw [eq_of_finiteOr h]
  exact Binary64.nonneg_round _ _

/-- **A quotient by a positive integer is not negative** if the number is not. -/
theorem Nonneg.div (ha : a.Nonneg) (hn : 0 < n) (h : a.div (.int n) = .ok x) :
    (Number.float x).Nonneg := by
  cases a with
  | int m => exact nonneg_float.mpr (nonneg_divInt (nonneg_int.mp ha) hn h)
  | float y =>
    obtain ⟨z, hz, h⟩ := FailsOnly.bind_eq_ok.mp h
    obtain ⟨w, hw, h⟩ := FailsOnly.bind_eq_ok.mp h
    obtain rfl := Except.ok.inj hz
    have hpositive : w.Nonneg := (nonneg_int.mpr (Int.le_of_lt hn)).toFloat hw
    have hzero : w.isZero = false := isZero_of_toFloat (Int.ne_of_gt hn) hw
    obtain ⟨-, s, sig, step, valid, rfl⟩ := toFloat_int_eq_ok hw
    rw [← Except.ok.inj h]
    exact nonneg_float.mpr ((nonneg_float.mp ha).div hpositive (of_decide_eq_false hzero))

/-- **The negation of a number that is not negative** is at most zero, and is not negative only if it is
zero. -/
theorem Nonneg.neg (ha : a.Nonneg) :
    a.neg.le (.int 0) = true ∧ (a.neg.Nonneg ↔ a.neg.isZero = true) := by
  cases a with
  | int n =>
    have hn := nonneg_int.mp ha
    have hle : -n * (pow2 Binary64.unitBits : Int) ≤ 0 := by
      rw [Int.neg_mul]
      exact Int.neg_nonpos_of_nonneg (Int.mul_nonneg hn (Int.natCast_nonneg _))
    constructor
    · simpa only [Number.neg, le, place?, Place.le, Int.zero_mul, decide_eq_true_eq] using hle
    · simp only [Number.neg, nonneg_int, isZero, decide_eq_true_eq]
      omega
  | float x =>
    have hx := nonneg_float.mp ha
    simp only [Number.neg, nonneg_float, isZero]
    cases x with
    | nan => cases hx
    | infinity s =>
      cases hx
      exact ⟨rfl, iff_of_false Binary64.not_nonneg_infinity Bool.false_ne_true⟩
    | finite s sig step valid =>
      have hscaled : Binary64.scaled (!s) sig step = -Binary64.scaled s sig step := by
        cases s <;> simp [Binary64.scaled]
      have hle : Binary64.scaled (!s) sig step ≤ 0 := by
        rw [hscaled]
        exact Int.neg_nonpos_of_nonneg hx.scaled
      constructor
      · simpa only [Binary64.neg, le, place?, Place.le, Int.zero_mul, decide_eq_true_eq] using hle
      · rw [Binary64.neg, Binary64.nonneg_finite, Binary64.isZero, decide_eq_true_eq]
        refine ⟨fun h => ?_, .inr⟩
        rcases h with h | h
        · exact (Binary64.nonneg_finite.mp hx).resolve_left (by simpa using h)
        · exact h

/-! ## Faults -/

theorem failsOnly_toFloat (a : Number) : FailsOnly Fault.TooLarge a.toFloat := by
  cases a with
  | float x => exact .ok x
  | int n =>
    unfold toFloat
    dsimp only
    split
    · exact .ok _
    · exact .error (.inl rfl)

/-- A sum fails only if an integer is too large. -/
theorem failsOnly_add (a b : Number) : FailsOnly Fault.TooLarge (a.add b) := by
  have hfloat : FailsOnly Fault.TooLarge
      (do return Number.float ((← a.toFloat).add (← b.toFloat)) : Except Fault Number) :=
    (failsOnly_toFloat a).bind fun _ _ => (failsOnly_toFloat b).bind fun _ _ => .ok _
  cases a with
  | float x => exact hfloat
  | int m =>
    cases b with
    | float y => exact hfloat
    | int n => exact .ok _

theorem failsOnly_finiteOr {f : Fault} (hf : f.TooLarge) (x : Binary64) :
    FailsOnly Fault.TooLarge (finiteOr f x) := by
  cases x with
  | finite => exact .ok _
  | _ => exact .error hf

theorem failsOnly_divInt (m n : Int) : FailsOnly Fault.TooLarge (divInt m n) :=
  failsOnly_finiteOr (.inr rfl) _

/-- A quotient fails only if it or an integer is too large. -/
theorem failsOnly_div (a b : Number) : FailsOnly Fault.TooLarge (a.div b) := by
  have hfloat : FailsOnly Fault.TooLarge
      (do return (← a.toFloat).div (← b.toFloat) : Except Fault Binary64) :=
    (failsOnly_toFloat a).bind fun _ _ => (failsOnly_toFloat b).bind fun _ _ => .ok _
  cases a with
  | float x => exact hfloat
  | int m =>
    cases b with
    | float y => exact hfloat
    | int n => exact failsOnly_divInt m n

end Number

end AsmLens
