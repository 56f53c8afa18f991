import AsmLens.Source.Range

/-!
# Positions

Cursors are pairs of line and column, both counted from one. A position is the
extent of a range in lines and columns, together with the length of the range.
-/

namespace AsmLens

/-- A place in a view: line and column, counted from one. -/
structure Cursor where
  line : Int
  column : Int
deriving DecidableEq, Repr, Inhabited

namespace Cursor

/-- Whether a cursor comes before another or equals it, lines first. -/
def LE (a b : Cursor) : Prop := a.line < b.line ∨ a.line = b.line ∧ a.column ≤ b.column

instance (a b : Cursor) : Decidable (a.LE b) := inferInstanceAs (Decidable (_ ∨ _))

/-- Whether a cursor comes strictly before another, lines first. -/
def LT (a b : Cursor) : Prop := a.line < b.line ∨ a.line = b.line ∧ a.column < b.column

instance (a b : Cursor) : Decidable (a.LT b) := inferInstanceAs (Decidable (_ ∨ _))

end Cursor

/-- The extent of a source range. -/
structure Position where
  start : Cursor
  stop : Cursor
  /-- The length of the range in bytes. -/
  length : Int
deriving DecidableEq, Repr, Inhabited

namespace Position

/-- Whether a cursor lies in an extent, its end included. -/
def contains (p : Position) (c : Cursor) : Bool :=
  if p.start.line = p.stop.line then
    c.line = p.start.line && p.start.column ≤ c.column && c.column ≤ p.stop.column
  else if p.start.line < c.line && c.line < p.stop.line then true
  else if c.line = p.start.line then p.start.column ≤ c.column
  else if c.line = p.stop.line then c.column ≤ p.stop.column
  else false

/-- Whether an extent runs over several lines. -/
def isMultiline (p : Position) : Bool := p.start.line ≠ p.stop.line

end Position

/-- An inclusive range of listing lines. -/
structure Span where
  first : Int
  last : Int
deriving DecidableEq, Repr, Inhabited

namespace Span

/-- Whether a line lies in a span. -/
def contains (s : Span) (line : Int) : Bool := s.first ≤ line && line ≤ s.last

/-- The number of lines in a span. -/
def length (s : Span) : Int := s.last - s.first + 1

end Span

end AsmLens
