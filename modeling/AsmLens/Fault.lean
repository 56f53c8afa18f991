import AsmLens.Document.Shape
import AsmLens.Text.Quoted

/-!
# Faults

A *fault* is what happens when a value reaches a place that never asked for its
shape or size: a list where members are looked up, an integer that no floating-point
number can hold. It is not a report to the user, who is told of a
`Problem` (`AsmLens.Problem`) instead, and it ends the operation that meets it. A
remote job whose result cannot be applied for such a reason reports the fault's
wording.
-/

namespace AsmLens

/-- The kind of a fault. -/
inductive FaultKind
  | type | value | attribute | overflow | key | index | decoding | encoding | runtime | system | absent
  | isFolder | notFolder
deriving DecidableEq, Repr

/-- The name of a kind of fault. -/
def FaultKind.name : FaultKind → String
  | .type => "TypeError"
  | .value => "ValueError"
  | .attribute => "AttributeError"
  | .overflow => "OverflowError"
  | .key => "KeyError"
  | .index => "IndexError"
  | .decoding => "UnicodeDecodeError"
  | .encoding => "UnicodeEncodeError"
  | .runtime => "RuntimeError"
  | .system => "OSError"
  | .absent => "FileNotFoundError"
  | .isFolder => "IsADirectoryError"
  | .notFolder => "NotADirectoryError"

/-- Why an operation was given up. -/
inductive Fault
  /-- An integer beyond the floating-point numbers met one of them. -/
  | integerTooLarge
  /-- The quotient of two integers lies beyond the floating-point numbers. -/
  | quotientTooLarge
  /-- A whole number was asked of an infinity. -/
  | infiniteInteger
  /-- A whole number was asked of NaN. -/
  | undefinedInteger
  /-- A value of this shape has no such member. -/
  | noAttribute (shape : Shape) (member : String)
  /-- A value of this shape has no elements to go through. -/
  | notIterable (shape : Shape)
  /-- Values of these shapes have no order. -/
  | notOrdered (relation : String) (left right : Shape)
  /-- A value of this shape is no number. -/
  | notANumber (shape : Shape)
  /-- A value of this shape cannot be laid out in columns. -/
  | notAligned (shape : Shape)
  /-- A text is no number that could be shown. -/
  | unreadableNumber (text : String)
  /-- An element of a list of pairs is no list. -/
  | notAPair (index : Nat)
  /-- An element of a list of pairs has another length than two. -/
  | pairLength (index length : Nat)
  /-- A value of this shape cannot be a key. -/
  | notAKey (shape : Shape)
  /-- An element of a list of names is no text. -/
  | nameNotText (index : Nat) (shape : Shape)
  /-- No such member of an enumeration. -/
  | notAMember (value enumeration : String)
  /-- No entry under a key. -/
  | noEntry (key : String)
  /-- No timer with a number. -/
  | noTimer
  /-- A call left out an argument or gave one too many. -/
  | badCall
  /-- An integer with more digits than are read. -/
  | tooManyDigits
  /-- Bytes that are no text. -/
  | notText
  /-- A text with half of a surrogate pair, which cannot be encoded. -/
  | tornText
  /-- A file that cannot be opened. -/
  | cannotOpen (kind : FaultKind) (reason : String)
  /-- Anything else, with its kind and wording. -/
  | other (kind : FaultKind) (message : String)
deriving DecidableEq, Repr

namespace Fault

/-- The kind of a fault. -/
def kind : Fault → FaultKind
  | integerTooLarge | quotientTooLarge | infiniteInteger => .overflow
  | undefinedInteger | unreadableNumber _ | pairLength _ _ | notAMember _ _ | tooManyDigits => .value
  | noAttribute _ _ => .attribute
  | notIterable _ | notOrdered _ _ _ | notANumber _ | notAligned _ | notAPair _ | notAKey _
  | nameNotText _ _ | badCall => .type
  | noEntry _ => .key
  | noTimer => .index
  | notText => .decoding
  | tornText => .encoding
  | cannotOpen k _ => k
  | other k _ => k

/-- The wording of a fault. -/
def message : Fault → String
  | integerTooLarge => "int too large to convert to float"
  | quotientTooLarge => "integer division result too large for a float"
  | infiniteInteger => "cannot convert float infinity to integer"
  | undefinedInteger => "cannot convert float NaN to integer"
  | noAttribute s m => "'" ++ s.name ++ "' object has no attribute '" ++ m ++ "'"
  | notIterable s => "'" ++ s.name ++ "' object is not iterable"
  | notOrdered r a b =>
    "'" ++ r ++ "' not supported between instances of '" ++ a.name ++ "' and '" ++ b.name ++ "'"
  | notANumber s => "float() argument must be a string or a real number, not '" ++ s.name ++ "'"
  | notAligned s => "unsupported format string passed to " ++ s.name ++ ".__format__"
  | unreadableNumber t => "could not convert string to float: " ++ Text.quoted t
  | notAPair i =>
    "cannot convert dictionary update sequence element #" ++ toString i ++ " to a sequence"
  | pairLength i n =>
    "dictionary update sequence element #" ++ toString i ++ " has length " ++ toString n ++
      "; 2 is required"
  | notAKey s => "unhashable type: '" ++ s.name ++ "'"
  | nameNotText i s =>
    "sequence item " ++ toString i ++ ": expected str instance, " ++ s.name ++ " found"
  | notAMember v e => v ++ " is not a valid " ++ e
  | noEntry k => Text.quoted k
  | noTimer => "list index out of range"
  | badCall => "missing or unexpected argument"
  | tooManyDigits => "Exceeds the limit (4300 digits) for integer string conversion"
  | notText => "invalid start byte"
  | tornText => "surrogates not allowed"
  | cannotOpen _ r => r
  | other _ m => m

/-- What it is to write an integer with more digits than may be written. -/
def unwritable : Fault :=
  .other .value ("Exceeds the limit (4300 digits) for integer string conversion; " ++
    "use sys.set_int_max_str_digits() to increase the limit")

/-- A fault in full: its kind around its quoted wording. -/
def display (f : Fault) : String := f.kind.name ++ "(" ++ Text.quoted f.message ++ ")"

end Fault

end AsmLens
