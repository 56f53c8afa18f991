import AsmLens.Number.Basic
import AsmLens.Text.Integer

/-!
# Reading numbers

The floating-point number that a text denotes: digits with a point and an exponent, or a
word for infinity or for no number. Blanks around it do not count, and single underscores
may stand between digits.
-/

namespace AsmLens.Binary64

open Text

/-- The digits of a part that may be empty. -/
def part? (s : List Char) : Option (List Nat) := if s.isEmpty then some [] else digits? s

/-- An exponent with its sign. -/
def exponent? (s : List Char) : Option Int :=
  let (negative, ds) := splitSign s
  (digits? ds).map fun ds => if negative then -(digitsValue ds : Int) else digitsValue ds

/-- Whether a character marks an exponent. -/
def isExponentMark (c : Char) : Bool := c = 'e' || c = 'E'

/-- Digits with a point in front of, between or after them. -/
def mantissa? (s : List Char) : Option (List Nat × List Nat) :=
  match s.span (· ≠ '.') with
  | (whole, []) => (digits? whole).map fun ds => (ds, [])
  | (whole, _ :: fraction) => do
    let ws ← part? whole
    let fs ← part? fraction
    if ws.isEmpty && fs.isEmpty then none else some (ws, fs)

/-- The number that an unsigned text denotes. -/
def unsigned? (negative : Bool) (s : List Char) : Option Binary64 :=
  match String.ofList (s.map Char.toLower) with
  | "inf" | "infinity" => some (.infinity negative)
  | "nan" => some .nan
  | _ => do
    let (front, e) ← match s.span fun c => !isExponentMark c with
      | (front, []) => some (front, 0)
      | (front, _ :: back) => (exponent? back).map fun e => (front, e)
    let (ws, fs) ← mantissa? front
    return ofDecimal negative (digitsValue (ws ++ fs)) (e - fs.length)

/-- The number that a text denotes. -/
def read? (s : String) : Option Binary64 :=
  let (negative, body) := splitSign (trim s.toList)
  unsigned? negative body

end AsmLens.Binary64
