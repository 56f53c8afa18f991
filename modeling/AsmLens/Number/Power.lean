/-!
# Powers

The powers of two and of ten, which make up binary numbers and decimal text.
-/

namespace AsmLens

/-- A power of two. -/
def pow2 (k : Nat) : Nat := Nat.pow 2 k

/-- A power of ten. -/
def pow10 (k : Nat) : Nat := Nat.pow 10 k

@[simp] theorem pow2_zero : pow2 0 = 1 := rfl

@[simp] theorem pow10_zero : pow10 0 = 1 := rfl

theorem pow2_succ (k : Nat) : pow2 (k + 1) = pow2 k * 2 := rfl

theorem pow10_succ (k : Nat) : pow10 (k + 1) = pow10 k * 10 := rfl

theorem pow2_pos (k : Nat) : 0 < pow2 k := by
  induction k with
  | zero => decide
  | succ k ih => rw [pow2_succ]; omega

end AsmLens
