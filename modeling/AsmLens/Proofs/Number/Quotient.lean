import AsmLens.Proofs.Number.Doubling

/-!
# Quotients of whole numbers

A quotient is rounded by its value alone: it does not matter whether both parts have a common factor.
Whole numbers below `2 ^ 53` are floating-point numbers, and so are their products below that, so the
quotient of such numbers is their quotient rounded once.

* `Binary64.round_scale` — a common factor does not matter
* `Binary64.ofInt_eq_finite` — whole numbers below `2 ^ 53` are exact
* `Binary64.div_ofInt` — the quotient of such numbers is rounded once
* `Binary64.divInt_eq_div` — and so it is the one of the integers
-/

namespace AsmLens.Binary64

variable {a d c s m n : Nat}

/-! ## Common factors -/

/-- The step at which a significand is full is the only one. -/
theorem stepOf_unique (hd : 0 < d) (hupper : a < d * pow2 (s + 53))
    (hlower : s = 0 ∨ d * pow2 (s + 52) ≤ a) : stepOf a d = s := by
  have hle : ∀ {s s'}, a < d * pow2 (s + 53) → (s' = 0 ∨ d * pow2 (s' + 52) ≤ a) → s' ≤ s := by
    intro s s' hs hs'
    rcases hs' with rfl | hs'
    · exact Nat.zero_le s
    · have := lt_of_pow2_lt (Nat.lt_of_mul_lt_mul_left (Nat.lt_of_le_of_lt hs' hs))
      omega
  obtain ⟨hupper', hlower'⟩ := stepOf_spec (a := a) hd
  exact Nat.le_antisymm (hle hupper hlower') (hle hupper' hlower)

theorem stepOf_scale (hd : 0 < d) (hc : 0 < c) : stepOf (a * c) (d * c) = stepOf a d := by
  obtain ⟨hupper, hlower⟩ := stepOf_spec (a := a) hd
  have hassoc : ∀ p, d * c * p = d * p * c := fun p => Nat.mul_right_comm d c p
  refine stepOf_unique (Nat.mul_pos hd hc) ?_ (hlower.imp id fun h => ?_)
  · rw [hassoc]
    exact Nat.mul_lt_mul_of_pos_right hupper hc
  · rw [hassoc]
    exact Nat.mul_le_mul_right c h

theorem roundHalfEven_scale (hc : 0 < c) (a d : Nat) :
    roundHalfEven (a * c) (d * c) = roundHalfEven a d := by
  have hlt : ∀ {x y : Nat}, x * c < y * c ↔ x < y := Nat.mul_lt_mul_right hc
  unfold roundHalfEven
  dsimp only
  rw [Nat.mul_div_mul_right a d hc, Nat.mul_mod_mul_right, ← Nat.mul_assoc]
  simp only [hlt]

/-- A common factor does not matter to a quotient. -/
theorem round_scale (negative : Bool) (hd : 0 < d) (hc : 0 < c) :
    round negative (a * c) (d * c) = round negative a d := by
  have hassoc : d * c * pow2 (stepOf a d) = d * pow2 (stepOf a d) * c := Nat.mul_right_comm d c _
  unfold round
  dsimp only
  rw [stepOf_scale hd hc, hassoc, roundHalfEven_scale hc]

/-! ## Whole numbers -/

/-- A whole number below `2 ^ 53` is a significand at some step. -/
theorem exists_whole (h : n < pow2 53) :
    ∃ sig step, Valid sig step ∧ magnitude sig step = n * pow2 unitBits := by
  by_cases hn : n = 0
  · exact ⟨0, 0, ⟨by decide, .inr rfl, by decide⟩, by simp [hn, magnitude]⟩
  · -- the significand is filled up to 53 bits
    have hlog : n.log2 ≤ 52 := Nat.le_of_lt_succ ((Nat.log2_lt hn).mpr h)
    have hsig : n * pow2 (52 - n.log2) < pow2 53 := by
      have hupper : n < pow2 (n.log2 + 1) := Nat.lt_log2_self
      calc n * pow2 (52 - n.log2) < pow2 (n.log2 + 1) * pow2 (52 - n.log2) :=
            Nat.mul_lt_mul_of_pos_right hupper (pow2_pos _)
        _ = pow2 53 := by rw [← pow2_add]; congr 1; omega
    have hfull : pow2 52 ≤ n * pow2 (52 - n.log2) := by
      have hlower : pow2 n.log2 ≤ n := Nat.log2_self_le hn
      calc pow2 52 = pow2 n.log2 * pow2 (52 - n.log2) := by rw [← pow2_add]; congr 1; omega
        _ ≤ n * pow2 (52 - n.log2) := Nat.mul_le_mul_right _ hlower
    have hunit : 52 - n.log2 + (1022 + n.log2) = unitBits := by
      show _ = 1074
      omega
    refine ⟨n * pow2 (52 - n.log2), 1022 + n.log2, ⟨hsig, .inl hfull, by omega⟩, ?_⟩
    rw [magnitude, Nat.mul_assoc, ← pow2_add, hunit]

theorem ofInt_eq_finite (h : n < pow2 53) : ∃ sig step, ∃ valid : Valid sig step,
    ofInt n = .finite false sig step valid ∧ magnitude sig step = n * pow2 unitBits := by
  obtain ⟨sig, step, valid, hmag⟩ := exists_whole h
  refine ⟨sig, step, valid, ?_, hmag⟩
  have hround : ofInt n = round false (1 * magnitude sig step) 1 := by
    have hsign : ¬((n * pow2 unitBits : Nat) : Int) < 0 := Int.not_lt.mpr (Int.natCast_nonneg _)
    rw [ofInt, roundInt, ← Int.natCast_mul, decide_eq_false hsign, Int.natAbs_natCast, Nat.one_mul,
      hmag]
  rw [hround, round_mul false Nat.one_pos valid.sig_lt valid.full, dif_pos valid]

/-- The product of whole numbers is exact below `2 ^ 53`. -/
theorem mul_ofInt (hm : m < pow2 53) (hn : n < pow2 53) (h : m * n < pow2 53) :
    (ofInt m).mul (ofInt n) = ofInt (m * n : Nat) := by
  obtain ⟨sm, em, vm, hm, hmm⟩ := ofInt_eq_finite hm
  obtain ⟨sn, en, vn, hn, hmn⟩ := ofInt_eq_finite hn
  obtain ⟨s, e, v, hp, hmp⟩ := ofInt_eq_finite h
  have hmag : magnitude sm em * magnitude sn en = pow2 unitBits * magnitude s e := by
    rw [hmm, hmn, hmp, Nat.mul_mul_mul_comm, ← Nat.mul_assoc, Nat.mul_comm (pow2 _)]
  rw [hm, hn, hp]
  show round (false != false) (magnitude sm em * magnitude sn en) (pow2 unitBits) = _
  rw [hmag, round_mul _ (pow2_pos unitBits) v.sig_lt v.full, dif_pos v]
  rfl

/-- The quotient of whole numbers below `2 ^ 53` is rounded once. -/
theorem div_ofInt (hm : m < pow2 53) (hpos : 0 < n) (hn : n < pow2 53) :
    (ofInt m).div (ofInt n) = round false (m * pow2 unitBits) n := by
  obtain ⟨sm, em, vm, hm, hmm⟩ := ofInt_eq_finite hm
  obtain ⟨sn, en, vn, hn, hmn⟩ := ofInt_eq_finite hn
  have hsn : sn ≠ 0 := by
    rintro rfl
    have hzero : n * pow2 unitBits = 0 := by rw [← hmn, magnitude, Nat.zero_mul]
    exact absurd hzero (Nat.pos_iff_ne_zero.mp (Nat.mul_pos hpos (pow2_pos _)))
  rw [hm, hn]
  show (if sn = 0 then _ else round (false != false) (magnitude sm em * pow2 unitBits)
    (magnitude sn en)) = _
  rw [if_neg hsn, hmm, hmn, round_scale _ hpos (pow2_pos unitBits)]
  rfl

/-- The quotient of two integers is the one of the floating-point numbers, if these are exact. -/
theorem divInt_eq_div (hm : m < pow2 53) (hpos : 0 < n) (hn : n < pow2 53) :
    Number.divInt m n = .ok ((ofInt m).div (ofInt n)) := by
  have hsign : ∀ k : Nat, ¬(k : Int) < 0 := fun k => Int.not_lt.mpr (Int.natCast_nonneg k)
  have hle : m * pow2 unitBits ≤ n * greatest := by
    have hfits : Fits m := fits_of_lt (Nat.lt_of_lt_of_le hm (pow2_le_pow2 (by decide)))
    exact Nat.le_trans hfits (Nat.le_mul_of_pos_left greatest hpos)
  obtain ⟨sig, step, valid, hround⟩ := exists_round false hpos hle
  rw [div_ofInt hm hpos hn, Number.divInt, decide_eq_false (hsign m), decide_eq_false (hsign n)]
  show Number.finiteOr _ (round false (m * pow2 unitBits) n) = _
  rw [hround]
  rfl

end AsmLens.Binary64
