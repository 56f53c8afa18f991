import AsmLens.Source.Position

/-!
# Line index

Byte offsets of a source text as lines and columns, and back. A line ends with a
newline byte; a column counts bytes from one. The offset just past the last byte is
a place too.

## Two ways to the same place

`LineIndex.cursor` looks the offset up in a table of newlines, by bisection, and is
what the builder uses. `scanCursor` walks over the bytes before the offset.
-/

namespace AsmLens

/-- The newline byte. -/
def newline : UInt8 := 0x0a

/-- The offsets of the newlines in a list of bytes, the first byte having offset `i`. -/
def newlinesFrom : (i : Nat) → List UInt8 → List Nat
  | _, [] => []
  | i, b :: bs => if b = newline then i :: newlinesFrom (i + 1) bs else newlinesFrom (i + 1) bs

/-- A source text as its length and the offsets of its newlines, ascending. -/
structure LineIndex where
  length : Nat
  newlines : Array Nat
deriving DecidableEq, Repr, Inhabited

namespace LineIndex

/-- The index of a list of bytes. -/
def ofBytes (bs : List UInt8) : LineIndex := ⟨bs.length, (newlinesFrom 0 bs).toArray⟩

/-- The index of a text in UTF-8. -/
def ofText (s : String) : LineIndex := ofBytes s.toUTF8.toList

/-! ## Offsets to cursors -/

/--
How many of the ascending numbers in `a` from `low` up to `high` lie below `x`, plus `low`: all
before `low` do, none from `high` on does.
-/
def bisect (a : Array Nat) (x : Nat) (low high : Nat) : Nat :=
  if low < high then
    let mid := (low + high) / 2
    match a[mid]? with
    | some v => if v < x then bisect a x (mid + 1) high else bisect a x low mid
    | none => bisect a x low mid
  else low
termination_by high - low
decreasing_by all_goals omega

/-- How many newlines lie strictly before an offset. -/
def linesBefore (ix : LineIndex) (offset : Nat) : Nat := bisect ix.newlines offset 0 ix.newlines.size

/-- The cursor of an offset. -/
def cursor (ix : LineIndex) (offset : Int) : Except Problem Cursor :=
  if offset < 0 ∨ (ix.length : Int) < offset then .error (.outOfRange offset ix.length)
  else
    let count := ix.linesBefore offset.toNat
    let last : Int := if count = 0 then -1 else ix.newlines.getD (count - 1) 0
    .ok ⟨count + 1, offset - last⟩

/-- The extent of a range. -/
def position (ix : LineIndex) (r : SourceRange) : Except Problem Position := do
  let start ← ix.cursor r.first
  let stop ← ix.cursor r.last
  return ⟨start, stop, r.length⟩

/-! ## Cursors to offsets -/

/-- The offset of the first byte of a line. -/
def lineStart (ix : LineIndex) (line : Nat) : Nat :=
  if line ≤ 1 then 0 else ix.newlines.getD (line - 2) 0 + 1

/-- The offset of a cursor; a column may run over the end of its line. -/
def offset (ix : LineIndex) (c : Cursor) : Except Problem Nat :=
  let lines := ix.newlines.size + 1
  if c.line < 1 ∨ (lines : Int) < c.line then .error (.outOfRange c.line lines)
  else
    let result := (ix.lineStart c.line.toNat : Int) + c.column - 1
    if result < 0 ∨ (ix.length : Int) < result then .error (.outOfRange result ix.length)
    else .ok result.toNat

end LineIndex

/-- The cursor of an offset into a list of bytes, by walking over the bytes before it. -/
def scanCursor (bs : List UInt8) (offset : Int) : Except Problem Cursor :=
  if offset < 0 ∨ (bs.length : Int) < offset then .error (.outOfRange offset bs.length)
  else
    let before := bs.take offset.toNat
    .ok ⟨before.count newline + 1, (before.reverse.takeWhile (· ≠ newline)).length + 1⟩

end AsmLens
