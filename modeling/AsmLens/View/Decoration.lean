import AsmLens.View.Highlight

/-!
# Decorations

What an editor paints for the regions of a table. The largest regions come first, so
that a region is painted over those that enclose it. A region with gas has the style
of its class; the others go through twelve colors in turn; the highlighted one has a
style of its own and a mark in the margin.
-/

namespace AsmLens

/-- One area that an editor paints. -/
structure Decoration where
  key : String
  start : Cursor
  stop : Cursor
  style : String
  /-- Whether full lines are painted. -/
  wholeLine : Bool
  /-- The style of the mark in the margin. -/
  margin : Option String
deriving DecidableEq, Repr

namespace Decoration

/-- The number of colors for regions without gas. -/
def colorCount : Nat := 12

def highlightStyle : String := "frag-highlighted"
def highlightMargin : String := "frag-highlighted-margin"

/-- A decoration as a document. -/
def toDoc (d : Decoration) : Doc :=
  let margin := match d.margin with
    | some m => [("linesDecorationsClassName", Doc.text m)]
    | none => []
  .object [
    ("key", .text d.key),
    ("range", .object [
      ("startLineNumber", .int d.start.line), ("startColumn", .int d.start.column),
      ("endLineNumber", .int d.stop.line), ("endColumn", .int d.stop.column)]),
    ("options", .object ([
      ("isWholeLine", .bool d.wholeLine),
      (if d.wholeLine then "className" else "inlineClassName", .text d.style)] ++ margin))]

end Decoration

namespace Region

/-- The style of a region that is painted at a place in the order. -/
def style (r : Region) (place : Nat) (highlighted : Bool) : String :=
  if highlighted then Decoration.highlightStyle
  else
    match r.gas with
    | some g => g.gasClass.style
    | none => "frag-color-" ++ toString (place % Decoration.colorCount)

/-- The decorations of a region in a view. -/
def decorations (r : Region) (view : View) (place : Nat) (highlighted : Bool) : List Decoration :=
  let style := r.style place highlighted
  let margin := if highlighted then some Decoration.highlightMargin else none
  match view with
  | .source => [⟨r.key, r.position.start, r.position.stop, style, r.position.isMultiline, margin⟩]
  | .compiled => r.spans.map fun s => ⟨r.key, ⟨s.first, 1⟩, ⟨s.last, 1⟩, style, true, margin⟩

end Region

/-- The decorations of a view, in the order in which they are painted. -/
def RegionTable.decorations (t : RegionTable) (view : View) (selection : Option Selection) :
    List Decoration :=
  t.byPainting.zipIdx.flatMap fun p =>
    p.1.decorations view p.2 (selection.any fun s => s.key = p.1.key)

end AsmLens
