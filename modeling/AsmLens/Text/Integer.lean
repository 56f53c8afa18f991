import AsmLens.Text.Blank
import AsmLens.Text.DecimalDigit

/-!
# Integers as text

Writing is canonical: decimal digits without leading zeros, a minus sign in front
of a negative number. Reading is generous: blanks around the number, a sign,
digits of any script, and single underscores between digits. A number of more than
`maxDigits` digits is not read, and where a text is made of numbers that were computed
it is not written either (`isWritable`).
-/

namespace AsmLens.Text

/-- The most digits an integer may be written with. -/
def maxDigits : Nat := 4300

/-! ## Writing -/

/-- The decimal digits of a natural number. -/
def ofNat (n : Nat) : List Char :=
  if n < 10 then [digitChar n] else ofNat (n / 10) ++ [digitChar (n % 10)]
termination_by n

/-- The decimal text of an integer. -/
def ofInt : Int → List Char
  | .ofNat n => ofNat n
  | .negSucc n => '-' :: ofNat (n + 1)

/-- The decimal text of an integer, as a string. -/
def intText (n : Int) : String := String.ofList (ofInt n)

/-- Whether an integer has no more digits than may be written. -/
def isWritable (n : Int) : Bool := (ofNat n.natAbs).length ≤ maxDigits

/-! ## Reading -/

/-- The digit values of a text in which single underscores may stand between digits. -/
def digits? : List Char → Option (List Nat)
  | [] => none
  | [c] => (digitValue? c).map ([·])
  | c :: '_' :: rest =>
    match digitValue? c, digits? rest with
    | some d, some ds => some (d :: ds)
    | _, _ => none
  | c :: rest =>
    match digitValue? c, digits? rest with
    | some d, some ds => some (d :: ds)
    | _, _ => none

/-- The number that a list of digit values denotes. -/
def digitsValue (ds : List Nat) : Nat := ds.foldl (fun n d => 10 * n + d) 0

/-- An unsigned integer. -/
def natural? (s : List Char) : Option Nat :=
  match digits? s with
  | some ds => if ds.length ≤ maxDigits then some (digitsValue ds) else none
  | none => none

/-- The sign in front of a text, as "is negative", and the text after it. -/
def splitSign : List Char → Bool × List Char
  | '-' :: rest => (true, rest)
  | '+' :: rest => (false, rest)
  | s => (false, s)

/-- The integer that a text denotes. -/
def integer? (s : List Char) : Option Int :=
  let (negative, body) := splitSign (trim s)
  (natural? body).map fun n => if negative then -(n : Int) else n

/-- The integer that a string denotes. -/
def readInt? (s : String) : Option Int := integer? s.toList

example : readInt? " +1_0 " = some 10 ∧ readInt? "- 1" = none ∧ readInt? "1__0" = none := by
  decide +kernel

/-! ## Layout -/

/-- Digits in groups of three, parted by commas. -/
def grouped (digits : List Char) : List Char :=
  if digits.length ≤ 3 then digits
  else grouped (digits.take (digits.length - 3)) ++ ',' :: digits.drop (digits.length - 3)
termination_by digits.length
decreasing_by simp; omega

/-- An integer with its digits in groups of three. -/
def groupedInt : Int → List Char
  | .ofNat n => grouped (ofNat n)
  | .negSucc n => '-' :: grouped (ofNat (n + 1))

/-- A text filled up with spaces on the right to a width. -/
def padRight (width : Nat) (s : String) : String :=
  s ++ String.ofList (List.replicate (width - s.length) ' ')

end AsmLens.Text
