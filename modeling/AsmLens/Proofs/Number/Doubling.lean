import AsmLens.Proofs.Number.Range

/-!
# Doubling

Twice a number is exact: a floating-point number has the same significand at the next step, or a
significand twice as great, and only what lies beyond the greatest finite number becomes infinite.

* `Binary64.round_mul` — a quotient that is a number already is rounded to itself
* `Binary64.mul_two` — twice a finite number
* `Number.place?_double`, `Number.place?_doubled` — where doubled numbers lie
* `Number.lt_double`, `Number.double_eq_self` — a number that is not negative does not shrink
-/

namespace AsmLens

namespace Binary64

variable {sig step d : Nat}

theorem pow2_le_magnitude (h : pow2 52 ≤ sig) : pow2 (52 + step) ≤ magnitude sig step := by
  rw [pow2_add]
  exact Nat.mul_le_mul_right _ h

/-- The step of a multiple is the step of the number. -/
theorem stepOf_mul (hd : 0 < d) (hlt : sig < pow2 53) (hfull : pow2 52 ≤ sig ∨ step = 0) :
    stepOf (d * magnitude sig step) d = step := by
  obtain ⟨hupper, hlower⟩ := stepOf_spec (a := d * magnitude sig step) hd
  have hhigh : magnitude sig step < pow2 (53 + step) := by
    rw [pow2_add]
    exact Nat.mul_lt_mul_of_pos_right hlt (pow2_pos step)
  have hupper : magnitude sig step < pow2 (stepOf (d * magnitude sig step) d + 53) :=
    Nat.lt_of_mul_lt_mul_left hupper
  have hle : stepOf (d * magnitude sig step) d ≤ step := by
    rcases hlower with h0 | hlow
    · omega
    · have := lt_of_pow2_lt (Nat.lt_of_le_of_lt (Nat.le_of_mul_le_mul_left hlow hd) hhigh)
      omega
  rcases hfull with hfull | h0
  · have := lt_of_pow2_lt (Nat.lt_of_le_of_lt (pow2_le_magnitude hfull) hupper)
    omega
  · omega

/-- **A quotient that is a number already is rounded to itself**, or to infinity if there is no step
for it. -/
theorem round_mul (negative : Bool) (hd : 0 < d) (hlt : sig < pow2 53)
    (hfull : pow2 52 ≤ sig ∨ step = 0) :
    round negative (d * magnitude sig step) d =
      if h : Valid sig step then .finite negative sig step h else .infinity negative := by
  have hstep : 0 < d * pow2 step := Nat.mul_pos hd (pow2_pos step)
  have hassoc : d * magnitude sig step = d * pow2 step * sig := by
    rw [magnitude, Nat.mul_comm sig, Nat.mul_assoc]
  have hsig : roundHalfEven (d * magnitude sig step) (d * pow2 step) = sig := by
    rw [hassoc]
    exact Nat.le_antisymm (roundHalfEven_le hstep (Nat.le_refl _))
      (le_roundHalfEven hstep (Nat.le_refl _))
  unfold round
  simp only [stepOf_mul hd hlt hfull, hsig, if_neg (Nat.ne_of_lt hlt)]

/-- There is a step for a number exactly if it is no greater than the greatest finite one. -/
theorem valid_iff_le_greatest (hlt : sig < pow2 53) (hfull : pow2 52 ≤ sig ∨ step = 0) :
    Valid sig step ↔ magnitude sig step ≤ greatest := by
  refine ⟨Valid.magnitude_le, fun hle => ⟨hlt, hfull, ?_⟩⟩
  rcases hfull with hfull | h0
  · have := lt_of_pow2_lt
      (Nat.lt_of_le_of_lt (Nat.le_trans (pow2_le_magnitude hfull) hle) greatest_lt_pow2)
    omega
  · omega

/-- Twice a magnitude has a full significand again, or is at the least step. -/
theorem exists_double (h : Valid sig step) : ∃ sig' step', sig' < pow2 53 ∧
    (pow2 52 ≤ sig' ∨ step' = 0) ∧ magnitude sig' step' = 2 * magnitude sig step := by
  have hpow : pow2 53 = pow2 52 * 2 := rfl
  by_cases hfull : pow2 52 ≤ sig
  · refine ⟨sig, step + 1, h.sig_lt, .inl hfull, ?_⟩
    rw [magnitude, magnitude, pow2_succ]
    ac_rfl
  · have h0 : step = 0 := h.full.resolve_left hfull
    refine ⟨2 * sig, 0, by omega, .inr rfl, ?_⟩
    rw [magnitude, magnitude, h0, Nat.mul_assoc]

theorem ofInt_two : ofInt 2 = .finite false (pow2 52) 1023 (by decide) := by
  decide +kernel

theorem zero_mul_two (negative : Bool) : (zero negative).mul (ofInt 2) = zero negative := by
  cases negative <;> decide +kernel

/-- **Twice a finite number** is a finite number with twice the magnitude, or infinite. -/
theorem mul_two (negative : Bool) (valid : Valid sig step) :
    (∃ sig' step' valid', (finite negative sig step valid).mul (ofInt 2) =
        .finite negative sig' step' valid' ∧ magnitude sig' step' = 2 * magnitude sig step) ∨
      (finite negative sig step valid).mul (ofInt 2) = .infinity negative ∧
        greatest < 2 * magnitude sig step := by
  obtain ⟨sig', step', hlt, hfull, hdouble⟩ := exists_double valid
  have htwo : magnitude (pow2 52) 1023 = pow2 unitBits * 2 := by
    rw [magnitude, ← pow2_add, ← pow2_succ]
    rfl
  have hscaled : magnitude sig step * magnitude (pow2 52) 1023 =
      pow2 unitBits * magnitude sig' step' := by
    rw [htwo, hdouble, Nat.mul_left_comm, Nat.mul_comm (magnitude sig step)]
  have hmul : (finite negative sig step valid).mul (ofInt 2) =
      if h : Valid sig' step' then .finite negative sig' step' h else .infinity negative := by
    rw [ofInt_two, mul, hscaled, Bool.bne_false]
    exact round_mul negative (pow2_pos _) hlt hfull
  rw [hmul]
  by_cases hv : Valid sig' step'
  · rw [dif_pos hv]
    exact .inl ⟨sig', step', hv, rfl, hdouble⟩
  · rw [dif_neg hv]
    rw [valid_iff_le_greatest hlt hfull, hdouble] at hv
    exact .inr ⟨rfl, Nat.lt_of_not_le hv⟩

end Binary64

namespace Number

open Binary64 (greatest)

variable {x l : Number} {k : Nat}

/-! ## Where doubled numbers lie -/

/-- A place `2 ^ k` times as far from zero. -/
def Place.scale (k : Nat) : Place → Place
  | .units n => .units (n * pow2 k)
  | p => p

/-- Where a floating-point number lies that should be at a place: what is beyond the greatest finite
numbers lies at an end of the line. -/
def Place.clamp : Place → Place
  | .units n =>
    if (greatest : Int) < n then .top else if n < -(greatest : Int) then .bottom else .units n
  | p => p

/-- Where `2 ^ k` times a number lies, exactly. -/
def timesPow2 (x : Number) (k : Nat) : Option Place :=
  match x with
  | .int _ => x.place?.map (Place.scale k)
  | .float _ => x.place?.map fun p => (p.scale k).clamp

/-- A number doubled `k` times. -/
def doubled (x : Number) : Nat → Number
  | 0 => x
  | k + 1 => (x.doubled k).double

theorem Place.clamp_units {n : Int} (h : n.natAbs ≤ greatest) :
    (Place.units n).clamp = .units n := by
  rw [clamp, if_neg (by omega), if_neg (by omega)]

theorem Place.scale_one (n : Int) : (Place.units n).scale 1 = .units (n * 2) := rfl

/-- What is lost on the way to a double is lost at the end. -/
theorem Place.clamp_scale_clamp (p : Place) : (p.clamp.scale 1).clamp = (p.scale 1).clamp := by
  cases p with
  | bottom => rfl
  | top => rfl
  | units n =>
    rw [scale_one]
    by_cases hhigh : (greatest : Int) < n
    · have hclamp : (Place.units n).clamp = .top := if_pos hhigh
      have hdouble : (Place.units (n * 2)).clamp = .top := if_pos (by omega)
      rw [hclamp, hdouble]
      rfl
    · by_cases hlow : n < -(greatest : Int)
      · have hclamp : (Place.units n).clamp = .bottom := (if_neg hhigh).trans (if_pos hlow)
        have hdouble : (Place.units (n * 2)).clamp = .bottom :=
          (if_neg (by omega)).trans (if_pos (by omega))
        rw [hclamp, hdouble]
        rfl
      · rw [clamp_units (by omega), scale_one]

theorem Place.scale_scale (p : Place) (k : Nat) : (p.scale k).scale 1 = p.scale (k + 1) := by
  cases p with
  | bottom => rfl
  | top => rfl
  | units n =>
    rw [scale, scale, scale, pow2_succ, Int.natCast_mul, Int.mul_assoc]
    rfl

/-- A floating-point number lies between the ends of the line or at one of them. -/
theorem clamp_of_place? {x : Binary64} {p : Place} (h : (Number.float x).place? = some p) :
    p.clamp = p := by
  cases x with
  | nan => exact nomatch h
  | infinity s =>
    rw [← Option.some.inj h]
    cases s <;> rfl
  | finite s sig step valid =>
    rw [← Option.some.inj h]
    refine Place.clamp_units ?_
    have hle := valid.magnitude_le
    unfold Binary64.scaled
    split <;> omega

theorem place?_double_float (x : Binary64) :
    (Number.float x).double.place? = (Number.float x).place?.map fun p => (p.scale 1).clamp := by
  cases x with
  | nan => rfl
  | infinity s =>
    have hmul : (Binary64.infinity s).mul (Binary64.ofInt 2) = .infinity s := by
      rw [Binary64.ofInt_two, Binary64.mul, if_neg (by decide), Bool.bne_false]
    rw [double, hmul]
    cases s <;> rfl
  | finite s sig step valid =>
    rw [double]
    rcases Binary64.mul_two s valid with ⟨sig', step', valid', hmul, hmag⟩ | ⟨hmul, hmag⟩
    · have hscaled : Binary64.scaled s sig' step' = Binary64.scaled s sig step * 2 := by
        unfold Binary64.scaled
        split <;> omega
      have hclamp := clamp_of_place? (x := .finite s sig' step' valid') rfl
      rw [hscaled] at hclamp
      rw [hmul, place?, place?, hscaled, Option.map_some, Place.scale_one, hclamp]
    · rw [hmul, place?, place?, Option.map_some, Place.scale_one, Place.clamp]
      unfold Binary64.scaled
      cases s
      · rw [if_neg Bool.false_ne_true, if_neg Bool.false_ne_true, if_pos (by omega)]
      · rw [if_pos rfl, if_pos rfl, if_neg (by omega), if_pos (by omega)]

/-- **Doubling is exact**, short of the ends of the line. -/
theorem place?_doubled (x : Number) (k : Nat) : (x.doubled k).place? = x.timesPow2 k := by
  cases x with
  | int n =>
    have hint : (Number.int n).doubled k = .int (n * pow2 k) := by
      induction k with
      | zero => rw [doubled, pow2_zero]; simp
      | succ k ih => rw [doubled, ih, double, pow2_succ, Int.natCast_mul, Int.mul_assoc]; rfl
    rw [hint, timesPow2, place?, place?, Option.map_some, Place.scale, Int.mul_right_comm]
  | float x =>
    have hfloat : ∃ y, (Number.float x).doubled k = .float y ∧
        (Number.float y).place? = (Number.float x).place?.map fun p => (p.scale k).clamp := by
      induction k with
      | zero =>
        refine ⟨x, rfl, ?_⟩
        cases hp : (Number.float x).place? with
        | none => rfl
        | some p =>
          have hzero : p.scale 0 = p := by cases p <;> simp [Place.scale]
          rw [Option.map_some, hzero, clamp_of_place? hp]
      | succ k ih =>
        obtain ⟨y, hy, hplace⟩ := ih
        refine ⟨y.mul (Binary64.ofInt 2), by rw [doubled, hy]; rfl, ?_⟩
        rw [show Number.float (y.mul (Binary64.ofInt 2)) = (Number.float y).double from rfl,
          place?_double_float, hplace, Option.map_map]
        refine congrArg (Option.map · _) (funext fun p => ?_)
        rw [Function.comp_apply, Place.clamp_scale_clamp, Place.scale_scale]
    obtain ⟨y, hy, hplace⟩ := hfloat
    rw [hy, hplace, timesPow2]

theorem place?_double (x : Number) : x.double.place? = x.timesPow2 1 := place?_doubled x 1

/-! ## Numbers that are not negative -/

/-- That a number is zero or greater. -/
def Nonneg (x : Number) : Prop := (Number.int 0).le x = true

instance (x : Number) : Decidable x.Nonneg := inferInstanceAs (Decidable (_ = true))

theorem nonneg_iff : x.Nonneg ↔ ∃ p, x.place? = some p ∧ (Place.units 0).le p = true := by
  unfold Nonneg le
  rw [place?, Int.zero_mul]
  cases x.place? <;> simp

/-- A number that is not negative has a place, and that of its double is no less. -/
theorem Nonneg.exists_places (h : x.Nonneg) : ∃ p q, x.place? = some p ∧ x.double.place? = some q ∧
    (Place.units 0).le p = true ∧ p.le q = true ∧
    (q.le p = true → p = .units 0 ∨ p = .top) := by
  obtain ⟨p, hp, hpos⟩ := nonneg_iff.mp h
  have hq : ∃ q, x.double.place? = some q ∧ (q = p.scale 1 ∨ q = (p.scale 1).clamp) := by
    rw [place?_double]
    cases x <;> simp [timesPow2, hp]
  obtain ⟨q, hq, hscale⟩ := hq
  refine ⟨p, q, hp, hq, hpos, ?_⟩
  cases p with
  | bottom => exact absurd hpos (by decide)
  | top =>
    obtain rfl : q = .top := by rcases hscale with rfl | rfl <;> rfl
    exact ⟨rfl, fun _ => .inr rfl⟩
  | units n =>
    have hn : 0 ≤ n := of_decide_eq_true hpos
    have hq : q = .units (n * 2) ∨ q = .top := by
      rw [Place.scale_one, Place.clamp, if_neg (show ¬n * 2 < -(greatest : Int) by omega)] at hscale
      grind
    rcases hq with rfl | rfl
    · refine ⟨decide_eq_true (by omega), fun hle => .inl ?_⟩
      have hle : n * 2 ≤ n := of_decide_eq_true hle
      rw [show n = 0 by omega]
    · exact ⟨rfl, fun hle => (nomatch hle)⟩

theorem Nonneg.double (h : x.Nonneg) : x.double.Nonneg := by
  obtain ⟨p, q, -, hq, hpos, hle, -⟩ := h.exists_places
  exact nonneg_iff.mpr ⟨q, hq, Place.le_trans hpos hle⟩

theorem Nonneg.doubled (h : x.Nonneg) (k : Nat) : (x.doubled k).Nonneg := by
  induction k with
  | zero => exact h
  | succ k ih => exact ih.double

/-- What is less than a number is less than its double. -/
theorem lt_double (h : x.Nonneg) (hlt : l.lt x = true) : l.lt x.double = true := by
  obtain ⟨p, q, hp, hq, -, hle, -⟩ := h.exists_places
  unfold lt at hlt ⊢
  rw [hp] at hlt
  rw [hq]
  cases hr : l.place? with
  | none => rw [hr] at hlt; exact nomatch hlt
  | some r =>
    rw [hr] at hlt
    simp only [Bool.and_eq_true, Bool.not_eq_true'] at hlt ⊢
    refine ⟨Place.le_trans hlt.1 hle, Bool.eq_false_iff.mpr fun hback => ?_⟩
    exact absurd (Place.le_trans hle hback) (by simp [hlt.2])

/-- A number that is not less than its double is the double: zero, or infinity. -/
theorem double_eq_self (h : x.Nonneg) (hlt : x.lt x.double = false) : x.double = x := by
  obtain ⟨p, q, hp, hq, -, hle, hback⟩ := h.exists_places
  have hzero : p = .units 0 ∨ p = .top := by
    refine hback ?_
    unfold lt at hlt
    rw [hp, hq] at hlt
    simpa [hle] using hlt
  cases x with
  | int n =>
    have hn : n * (pow2 Binary64.unitBits : Int) = 0 := by
      rcases hzero with rfl | rfl
      · exact Place.units.inj (Option.some.inj hp)
      · exact nomatch Option.some.inj hp
    have hn : n = 0 := by
      rcases Int.mul_eq_zero.mp hn with hn | hn
      · exact hn
      · have := pow2_pos Binary64.unitBits
        omega
    rw [hn]
    rfl
  | float x =>
    cases x with
    | nan => exact nomatch hp
    | infinity s =>
      rw [Number.double, Binary64.ofInt_two, Binary64.mul, if_neg (by decide), Bool.bne_false]
    | finite s sig step valid =>
      have hmag : Binary64.scaled s sig step = 0 := by
        rcases hzero with rfl | rfl
        · exact Place.units.inj (Option.some.inj hp)
        · exact nomatch Option.some.inj hp
      have hsig : sig = 0 := by
        have hpow := pow2_pos step
        unfold Binary64.scaled Binary64.magnitude at hmag
        rcases Nat.mul_eq_zero.mp (show sig * pow2 step = 0 by split at hmag <;> omega) with h0 | h0
        · exact h0
        · omega
      have hstep : step = 0 := valid.full.resolve_left (by rw [hsig]; decide)
      subst hsig hstep
      exact congrArg Number.float (Binary64.zero_mul_two s)

/-- Doubling up to a limit again and again is doubling, up to the limit. -/
theorem min_double_min (hx : x.Nonneg) (hl : l.Nonneg) :
    (x.min l).double.min l = x.double.min l := by
  by_cases hlt : l.lt x = true
  · rw [Number.min, Number.min, if_pos hlt, Number.min, if_pos (lt_double hx hlt)]
    by_cases hdouble : l.lt l.double = true
    · rw [if_pos hdouble]
    · rw [if_neg hdouble, double_eq_self hl (Bool.eq_false_iff.mpr hdouble)]
  · rw [Number.min.eq_def x l, if_neg hlt]

end Number

end AsmLens
