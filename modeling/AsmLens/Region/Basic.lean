import AsmLens.Gas.Record
import AsmLens.Source.LineIndex

/-!
# Regions

A region is a source range that instructions were compiled from, with its position
in the source, the listing lines of its instructions, and the gas measured for it.

The lines of a region form spans: maximal runs of consecutive lines. Code that the
compiler emitted twice has one span per copy.
-/

namespace AsmLens

/-- A source range and what belongs to it. -/
structure Region where
  range : SourceRange
  position : Position
  /-- The spans of listing lines, first to last. -/
  spans : List Span
  gas : Option GasRecord
  /-- The name of the function that spans the region; null if there is none. -/
  functionName : Doc
  functionSelector : Option String

namespace Region

/-- A range with its position, without lines and gas. -/
def new (range : SourceRange) (position : Position) : Region :=
  ⟨range, position, [], none, .null, none⟩

/-- The key of a region. -/
def key (r : Region) : String := r.range.key

/-- The length of a region in bytes. -/
def length (r : Region) : Int := r.position.length

/-- Spans with one more line: the last span grows if it ends just before the line. -/
def extend (line : Int) : List Span → List Span
  | [] => [⟨line, line⟩]
  | [s] => if s.last = line - 1 then [⟨s.first, line⟩] else [s, ⟨line, line⟩]
  | s :: rest => s :: extend line rest

/-- A region with one more listing line. -/
def addLine (r : Region) (line : Int) : Region := { r with spans := extend line r.spans }

/-- What sorts regions: length first, then the ends of the range. -/
def specificLE (a b : Region) : Bool :=
  a.length < b.length || a.length = b.length && a.range.positionLE b.range

/-- What sorts regions for painting: the longest first, then the ends of the range. -/
def paintLE (a b : Region) : Bool :=
  b.length < a.length || a.length = b.length && a.range.positionLE b.range

/-- What sorts regions by place. -/
def positionLE (a b : Region) : Bool := a.range.positionLE b.range

/-- The class of a region's gas. -/
def gasClass (r : Region) : GasClass :=
  match r.gas with
  | some g => g.gasClass
  | none => .none

end Region

end AsmLens
