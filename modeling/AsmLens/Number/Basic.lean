import AsmLens.Fault
import AsmLens.Number.Shortest

/-!
# Numbers

A number is an integer of any size or a floating-point number. Integers stay
integers under sums; a quotient is always a floating-point number. Comparison is
exact: both numbers are brought to the same unit first.
-/

namespace AsmLens

/-- An integer or a floating-point number. -/
inductive Number
  | int (n : Int)
  | float (x : Binary64)
deriving DecidableEq

instance : Inhabited Number := ⟨.int 0⟩

namespace Number

/-- The shape of a number. -/
def shape : Number → Shape
  | .int _ => .int
  | .float _ => .float

/-- The floating-point number nearest to a number; an integer may be too large for one. -/
def toFloat : Number → Except Fault Binary64
  | .float x => .ok x
  | .int n =>
    match Binary64.ofInt? n with
    | some x => .ok x
    | none => .error .integerTooLarge

/-! ## Arithmetic -/

/-- The sum of two numbers. -/
def add : Number → Number → Except Fault Number
  | .int m, .int n => .ok (.int (m + n))
  | a, b => do return .float ((← a.toFloat).add (← b.toFloat))

/-- A finite number; any other is a fault. -/
def finiteOr (f : Fault) : Binary64 → Except Fault Binary64
  | .finite s sig step h => .ok (.finite s sig step h)
  | _ => .error f

/-- The quotient of two integers, rounded once. -/
def divInt (m n : Int) : Except Fault Binary64 :=
  finiteOr .quotientTooLarge (Binary64.round (decide (m < 0) != decide (n < 0))
    (m.natAbs * pow2 Binary64.unitBits) n.natAbs)

/-- The quotient of two numbers, the second of them not zero. -/
def div : Number → Number → Except Fault Binary64
  | .int m, .int n => divInt m n
  | a, b => do return (← a.toFloat).div (← b.toFloat)

/-- Twice a number. -/
def double : Number → Number
  | .int n => .int (n * 2)
  | .float x => .float (x.mul (Binary64.ofInt 2))

/-- The whole number reached by dropping the fraction. -/
def truncate : Number → Except Fault Int
  | .int n => .ok n
  | .float .nan => .error .undefinedInteger
  | .float x =>
    match x.truncate? with
    | some n => .ok n
    | none => .error .infiniteInteger

/-! ## Order -/

/-- A place on the number line: an end of it, or an exact count of units of `2 ^ -1074`. -/
inductive Place
  | bottom
  | units (n : Int)
  | top
deriving DecidableEq

/-- Whether a place lies at or below another. -/
def Place.le : Place → Place → Bool
  | .bottom, _ | _, .top => true
  | .units m, .units n => m ≤ n
  | _, _ => false

theorem Place.le_refl (a : Place) : a.le a = true := by cases a <;> simp [Place.le]

theorem Place.le_trans {a b c : Place} (h : a.le b = true) (k : b.le c = true) :
    a.le c = true := by
  cases a <;> cases b <;> cases c <;> simp_all [Place.le]
  omega

/-- Where a number lies; NaN lies nowhere. -/
def place? : Number → Option Place
  | .int n => some (.units (n * (pow2 Binary64.unitBits : Int)))
  | .float .nan => none
  | .float (.infinity s) => some (if s then .bottom else .top)
  | .float (.finite s sig step _) => some (.units (Binary64.scaled s sig step))

/-- Whether a number is at most another; never so if one of them is NaN. -/
def le (a b : Number) : Bool :=
  match a.place?, b.place? with
  | some p, some q => p.le q
  | _, _ => false

/-- Whether a number is less than another. -/
def lt (a b : Number) : Bool :=
  match a.place?, b.place? with
  | some p, some q => p.le q && !q.le p
  | _, _ => false

/-- Whether two numbers have the same value. -/
def same (a b : Number) : Bool := a.le b && b.le a

/-- The smaller number, the first unless the second is less. -/
def min (a b : Number) : Number := if b.lt a then b else a

/-- Whether a number is zero. -/
def isZero : Number → Bool
  | .int n => n = 0
  | .float x => x.isZero

/-! ## Text -/

/-- The text of a number: digits, or the shortest form in a format. -/
def text (fmt : Binary64.ShortestFormat) : Number → String
  | .int n => Text.intText n
  | .float x => x.shortestText fmt

/-- The text of a number in messages. -/
def plain (n : Number) : String := n.text Binary64.plainFormat

/-- A number for display: whole numbers in groups of three, others with two places. -/
def pretty : Number → Except Fault String
  | .int n =>
    match Binary64.ofInt? n with
    | some _ => .ok (String.ofList (Text.groupedInt n))
    | none => .error .integerTooLarge
  | .float x =>
    match x.isWhole, x.truncate? with
    | true, some n => .ok (String.ofList (Text.groupedInt n))
    | _, _ => .ok (x.fixedText 2 true)

end Number

end AsmLens
