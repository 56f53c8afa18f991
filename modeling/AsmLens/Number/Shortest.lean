import AsmLens.Number.Binary64
import AsmLens.Text.Integer

/-!
# Decimal text of floating-point numbers

Two forms. The *shortest* form has the fewest digits that read back to the same
number; of several such it is the one nearest to it. The *fixed* form has a
given number of decimal places and, if wanted, groups of three digits before the point.

## How the shortest form is found

The reals that round to a number form an interval, whose ends belong to it when the
significand is even. For one digit, two, up to seventeen, the two neighbours of the
number on that decimal grid are tried; the first grid with a neighbour inside the
interval gives the digits.
-/

namespace AsmLens.Binary64

open AsmLens.Text

/-! ## Digits -/

/-- `10 ^ e` as a fraction. -/
def powerOfTen : Int → Nat × Nat
  | .ofNat e => (pow10 e, 1)
  | .negSucc e => (1, pow10 (e + 1))

/-- The exponent of the leading decimal digit of `num / den`. -/
def leadingExponent (num den : Nat) : Int :=
  let guess := (((num.log2 : Int) - den.log2) * 30103).fdiv 100000
  let reaches (e : Int) : Bool :=
    let p := powerOfTen e
    p.1 * den ≤ num * p.2
  if reaches (guess + 1) then guess + 1 else if reaches guess then guess else guess - 1

/--
The interval of reals that round to a finite number, as quarters of a unit: lower
end, number, upper end. The lower neighbour of a power of two is nearer.
-/
def interval (sig step : Nat) : Nat × Nat × Nat :=
  let below := if sig = pow2 52 ∧ 0 < step then 1 else 2
  ((4 * sig - below) * pow2 step, 4 * sig * pow2 step, (4 * sig + 2) * pow2 step)

/-- The neighbour of a positive number on the grid of `10 ^ k` that reads back to it, if any. -/
def onGrid? (sig step : Nat) (k : Int) : Option Nat :=
  let (lo, v, hi) := interval sig step
  let (p, q) := powerOfTen k
  -- A grid point `g` is `g * p * unit / q` quarters.
  let unit := 4 * pow2 unitBits
  let inside (g : Nat) : Bool :=
    let x := g * p * unit
    if sig % 2 = 0 then lo * q ≤ x && x ≤ hi * q else lo * q < x && x < hi * q
  let low := v * q / (p * unit)
  let nearest := roundHalfEven (v * q) (p * unit)
  let other := if nearest = low then low + 1 else low
  if inside nearest then some nearest else if inside other then some other else none

/-- Digits and decimal exponent without trailing zeros among the digits. -/
def stripZeros (digits : Nat) (exponent : Int) : Nat × Int :=
  if h : 0 < digits ∧ digits % 10 = 0 then stripZeros (digits / 10) (exponent + 1)
  else (digits, exponent)
termination_by digits
decreasing_by omega

/-- The first grid that has a point, from `n` digits on, at most `tries` of them. -/
def firstGrid (sig step : Nat) (lead : Int) : (tries n : Nat) → Nat × Int
  | 0, n =>
    let k := lead - n + 1
    let (p, q) := powerOfTen k
    (roundHalfEven (magnitude sig step * q) (p * pow2 unitBits), k)
  | t + 1, n =>
    let k := lead - n + 1
    match onGrid? sig step k with
    | some g => stripZeros g k
    | none => firstGrid sig step lead t (n + 1)

/-- The fewest digits, with their decimal exponent, that read back to a positive number. -/
def shortest (sig step : Nat) : Nat × Int :=
  firstGrid sig step (leadingExponent (magnitude sig step) (pow2 unitBits)) 16 1

/-! ## The shortest form -/

/-- The format's decisions on the shortest form. -/
structure ShortestFormat where
  /-- Leading exponents below this are written in exponent form. -/
  positionalFrom : Int
  /-- Leading exponents from this on are written in exponent form. -/
  positionalBelow : Int
  /-- The fewest digits of an exponent. -/
  exponentDigits : Nat
  /-- The texts of the numbers that are not finite. -/
  nan : String
  infinity : String

/-- Exponents from -4 to 15 are positional, an exponent has two digits at least. -/
def plainFormat : ShortestFormat := ⟨-4, 16, 2, "nan", "inf"⟩

/-- As the plain format, with the names that documents use for what is not finite. -/
def documentFormat : ShortestFormat := ⟨-4, 16, 2, "NaN", "Infinity"⟩

/-- Digits with a point after the first `point` of them; a whole number keeps `.0`. -/
def positional (ds : List Char) (point : Int) : List Char :=
  if point ≤ 0 then
    '0' :: '.' :: List.replicate (-point).toNat '0' ++ ds
  else
    let whole := point.toNat
    if ds.length ≤ whole then ds ++ List.replicate (whole - ds.length) '0' ++ ['.', '0']
    else ds.take whole ++ '.' :: ds.drop whole

/-- Digits with a point after the first, and an exponent. -/
def scientific (fmt : ShortestFormat) (ds : List Char) (exponent : Int) : List Char :=
  let mantissa := match ds with
    | [] => []
    | [d] => [d]
    | d :: rest => d :: '.' :: rest
  let e := ofNat exponent.natAbs
  mantissa ++ 'e' :: (if exponent < 0 then '-' else '+') ::
    List.replicate (fmt.exponentDigits - e.length) '0' ++ e

/-- A sign in front of a text. -/
def signed (negative : Bool) (s : List Char) : List Char := if negative then '-' :: s else s

/-- The shortest form of a number. -/
def shortestText (fmt : ShortestFormat) : Binary64 → String
  | .nan => fmt.nan
  | .infinity s => if s then "-" ++ fmt.infinity else fmt.infinity
  | .finite s sig step _ =>
    if sig = 0 then String.ofList (signed s ['0', '.', '0'])
    else
      let (digits, k) := shortest sig step
      let ds := ofNat digits
      let exponent := k + ds.length - 1
      String.ofList <| signed s <|
        if fmt.positionalFrom ≤ exponent ∧ exponent < fmt.positionalBelow then
          positional ds (exponent + 1)
        else scientific fmt ds exponent

/-! ## The fixed form -/

/-- The last `places` decimal digits of a number. -/
def lastDigits : (places : Nat) → Nat → List Char
  | 0, _ => []
  | p + 1, n => lastDigits p (n / 10) ++ [digitChar (n % 10)]

/-- A number with decimal places; `group` says whether the whole part is grouped. -/
def fixedText (places : Nat) (group : Bool) : Binary64 → String
  | .nan => "nan"
  | .infinity s => if s then "-inf" else "inf"
  | .finite s sig step _ =>
    let parts := roundHalfEven (magnitude sig step * pow10 places) (pow2 unitBits)
    let whole := ofNat (parts / pow10 places)
    String.ofList <| signed s <|
      (if group then grouped whole else whole) ++ '.' :: lastDigits places parts

example : shortestText plainFormat (ofDecimal false 1 (-1)) = "0.1" := by decide +kernel
example : shortestText plainFormat (ofDecimal false 3 (-324)) = "5e-324" := by decide +kernel
example : shortestText plainFormat (ofInt (pow10 16)) = "1e+16" := by decide +kernel
example : fixedText 2 true (ofDecimal true 12345678125 (-3)) = "-12,345,678.12" := by decide +kernel

end AsmLens.Binary64
