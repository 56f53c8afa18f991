import AsmLens.Problem

/-!
# Source ranges

A range is a half-open interval of byte offsets into the primary source file. Two
texts denote one: a *range key* `begin:end`, and the source attribute
`start:length:file` of a syntax node, of which the file is not looked at.
-/

namespace AsmLens

open AsmLens.Text

/-- The half-open interval of offsets from `first` up to `last`. -/
structure SourceRange where
  first : Int
  last : Int
deriving DecidableEq, Repr, Inhabited

namespace SourceRange

/-- The canonical key of a range. -/
def key (r : SourceRange) : String := intText r.first ++ ":" ++ intText r.last

/-- The number of bytes in a range; negative if its ends are reversed. -/
def length (r : SourceRange) : Int := r.last - r.first

/-! ## Order -/

/-- Whether one pair of offsets comes before another or equals it, first offsets first. -/
def positionLE (a b : SourceRange) : Bool :=
  a.first < b.first || a.first = b.first && a.last ≤ b.last

/-- Whether a range is at least as specific as another: shorter, or as long and not later. -/
def specificLE (a b : SourceRange) : Bool :=
  a.length < b.length || a.length = b.length && a.positionLE b

/-- Whether a range is painted no later than another: longer, or as long and not later. -/
def paintLE (a b : SourceRange) : Bool :=
  b.length < a.length || a.length = b.length && a.positionLE b

/-! ## Reading -/

/-- The parts of a text between its colons. -/
def parts (s : String) : List String := (s.split ':').toList.map (·.copy)

/-- The range that a key denotes. -/
def ofKey (key : String) : Except Problem SourceRange :=
  match parts key with
  | [a, b] =>
    match readInt? a, readInt? b with
    | some first, some last => .ok ⟨first, last⟩
    | _, _ => .error (.invalidRangeKey key)
  | _ => .error (.invalidRangeKey key)

/-- The range that a source attribute denotes. -/
def ofSrc (value : Doc) (path : String := "src") : Except Problem SourceRange :=
  match value with
  | .text s =>
    match parts s with
    | a :: b :: _ =>
      match readInt? a, readInt? b with
      | some start, some length => .ok ⟨start, start + length⟩
      | _, _ => .error (.invalidSrc value path)
    | _ => .error (.invalidSrc value path)
  | _ => .error (.invalidSrc value path)

end SourceRange

end AsmLens
