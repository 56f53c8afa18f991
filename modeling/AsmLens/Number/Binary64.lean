import AsmLens.Number.Power

/-!
# Binary floating-point numbers

The 64-bit binary floating-point numbers, as exact values. A finite number is a
significand below `2 ^ 53` times a power of two; every magnitude is held as a whole
number of the smallest step `2 ^ -1074`, so sums, products, quotients and
comparisons are arithmetic on `Nat` and `Int`, and one function, `round`, decides
what fits.

## Rounding

`round` brings a quotient to the nearest number, a half to the even significand,
and to infinity from half a step above the largest finite number on.
-/

namespace AsmLens

/-- The significand and step of a finite number: the significand is full unless the step is 0. -/
structure Binary64.Valid (sig step : Nat) : Prop where
  sig_lt : sig < pow2 53
  full : pow2 52 ≤ sig ∨ step = 0
  step_le : step ≤ 2045

instance (sig step : Nat) : Decidable (Binary64.Valid sig step) :=
  decidable_of_iff (sig < pow2 53 ∧ (pow2 52 ≤ sig ∨ step = 0) ∧ step ≤ 2045)
    ⟨fun ⟨a, b, c⟩ => ⟨a, b, c⟩, fun ⟨a, b, c⟩ => ⟨a, b, c⟩⟩

/-- A 64-bit binary floating-point number. -/
inductive Binary64
  | nan
  | infinity (negative : Bool)
  /-- The number `± sig · 2 ^ step` in units of `2 ^ -1074`. -/
  | finite (negative : Bool) (sig step : Nat) (valid : Binary64.Valid sig step)
deriving DecidableEq

namespace Binary64

/-- How many bits the unit lies below one. -/
def unitBits : Nat := 1074

/-- Zero, with a sign. -/
def zero (negative : Bool) : Binary64 := .finite negative 0 0 ⟨by decide, .inr rfl, by decide⟩

instance : Inhabited Binary64 := ⟨zero false⟩

/-- A finite magnitude in units of `2 ^ -1074`. -/
def magnitude (sig step : Nat) : Nat := sig * pow2 step

/-- A finite number in units of `2 ^ -1074`. -/
def scaled (negative : Bool) (sig step : Nat) : Int :=
  if negative then -(magnitude sig step : Int) else magnitude sig step

/-! ## Rounding -/

/-- The quotient `a / d` to the nearest whole number, a half to the even one. -/
def roundHalfEven (a d : Nat) : Nat :=
  let q := a / d
  let r := a % d
  if 2 * r < d then q
  else if d < 2 * r then q + 1
  else if q % 2 = 0 then q else q + 1

theorem roundHalfEven_cases (a d : Nat) :
    (roundHalfEven a d = a / d ∧ 2 * (a % d) ≤ d) ∨
      (roundHalfEven a d = a / d + 1 ∧ d ≤ 2 * (a % d)) := by
  unfold roundHalfEven
  dsimp only
  split
  · exact .inl ⟨rfl, by omega⟩
  · split
    · exact .inr ⟨rfl, by omega⟩
    · split
      · exact .inl ⟨rfl, by omega⟩
      · exact .inr ⟨rfl, by omega⟩

/-- The step at which the quotient `a / d` has a full significand, or 0 below that. -/
def stepOf (a d : Nat) : Nat :=
  let s := a.log2 - (d.log2 + 52)
  if 0 < s ∧ a < d * pow2 (s + 52) then s - 1 else s

/-- The number nearest to `± a / d` units, for a positive `d`. -/
def round (negative : Bool) (a d : Nat) : Binary64 :=
  let s := stepOf a d
  let m := roundHalfEven a (d * pow2 s)
  let (m, s) := if m = pow2 53 then (pow2 52, s + 1) else (m, s)
  if h : Valid m s then .finite negative m s h else .infinity negative

/-- The number nearest to an integer of units over a positive divisor. -/
def roundInt (n : Int) (d : Nat) : Binary64 := round (decide (n < 0)) n.natAbs d

/-- The number nearest to an integer. -/
def ofInt (n : Int) : Binary64 := roundInt (n * (pow2 unitBits : Int)) 1

/-- The number nearest to `± digits · 10 ^ exponent`. -/
def ofDecimal (negative : Bool) (digits : Nat) (exponent : Int) : Binary64 :=
  if digits = 0 then zero negative
  else if 400 < exponent then .infinity negative
  else if exponent + (digits.log2 : Int) < -1100 - (digits.log2 : Int) then zero negative
  else
    match exponent with
    | .ofNat e => round negative (digits * pow10 e * pow2 unitBits) 1
    | .negSucc e => round negative (digits * pow2 unitBits) (pow10 (e + 1))

/-! ## Arithmetic -/

/-- The negated number. -/
def neg : Binary64 → Binary64
  | .nan => .nan
  | .infinity s => .infinity (!s)
  | .finite s m e h => .finite (!s) m e h

/-- The sum, correctly rounded; two opposite infinities have none. -/
def add : Binary64 → Binary64 → Binary64
  | .nan, _ | _, .nan => .nan
  | .infinity s, .infinity t => if s = t then .infinity s else .nan
  | .infinity s, _ => .infinity s
  | _, .infinity t => .infinity t
  | .finite s m e _, .finite t n f _ =>
    let sum := scaled s m e + scaled t n f
    if sum = 0 then zero (s && t) else roundInt sum 1

/-- The product, correctly rounded; zero times infinity has none. -/
def mul : Binary64 → Binary64 → Binary64
  | .nan, _ | _, .nan => .nan
  | .infinity s, .infinity t => .infinity (s != t)
  | .infinity s, .finite t n _ _ => if n = 0 then .nan else .infinity (s != t)
  | .finite s m _ _, .infinity t => if m = 0 then .nan else .infinity (s != t)
  | .finite s m e _, .finite t n f _ =>
    round (s != t) (magnitude m e * magnitude n f) (pow2 unitBits)

/-- The quotient, correctly rounded; over zero it is infinite, and zero over zero has none. -/
def div : Binary64 → Binary64 → Binary64
  | .nan, _ | _, .nan => .nan
  | .infinity _, .infinity _ => .nan
  | .infinity s, .finite t _ _ _ => .infinity (s != t)
  | .finite s _ _ _, .infinity t => zero (s != t)
  | .finite s m e _, .finite t n f _ =>
    if n = 0 then (if m = 0 then .nan else .infinity (s != t))
    else round (s != t) (magnitude m e * pow2 unitBits) (magnitude n f)

/-! ## Whole numbers -/

/-- The whole number reached by dropping the fraction; infinities and NaN have none. -/
def truncate? : Binary64 → Option Int
  | .finite s m e _ =>
    let n := magnitude m e / pow2 unitBits
    some (if s then -(n : Int) else n)
  | _ => none

/-- Whether the number is finite and whole. -/
def isWhole : Binary64 → Bool
  | .finite _ m e _ => magnitude m e % pow2 unitBits = 0
  | _ => false

/-- Whether the number is zero, of either sign. -/
def isZero : Binary64 → Bool
  | .finite _ m _ _ => m = 0
  | _ => false

/-- The finite number nearest to an integer, if it is not too large. -/
def ofInt? (n : Int) : Option Binary64 :=
  match ofInt n with
  | .finite s m e h => some (.finite s m e h)
  | _ => none

/-- The number rounded to a count of decimal places, a half to the even digit. -/
def roundPlaces (places : Nat) : Binary64 → Binary64
  | .finite s m e _ =>
    round s (roundHalfEven (magnitude m e * pow10 places) (pow2 unitBits) * pow2 unitBits)
      (pow10 places)
  | x => x

end Binary64

end AsmLens
