import AsmLens.View.Resolve

/-!
# The highlighted region

The region that is highlighted in both views and the view whose cursor chose it.
While it is frozen, moving the cursor does not change it. A cursor over no region, or
over the region that is highlighted already, changes nothing either.
-/

namespace AsmLens

/-- A highlighted region and the view that it was chosen in. -/
structure Selection where
  key : String
  chosenIn : View
deriving DecidableEq, Repr

/-- What is highlighted. -/
structure Highlight where
  selection : Option Selection
  frozen : Bool
deriving DecidableEq, Repr

namespace Highlight

/-- Nothing is highlighted. -/
def none : Highlight := ⟨Option.none, false⟩

/-- The highlight after the cursor moved. -/
def hover (h : Highlight) (t : RegionTable) (view : View) (c : Cursor) : Highlight :=
  if h.frozen then h
  else
    match t.resolveKey view c with
    | Option.none => h
    | some key =>
      if h.selection.any fun s => s.key = key then h
      else { h with selection := some ⟨key, view⟩ }

/-- The highlight after a region was chosen. -/
def select (h : Highlight) (key : String) (view : View) : Highlight :=
  { h with selection := some ⟨key, view⟩ }

/-- The highlight frozen, or no longer. -/
def toggleFreeze (h : Highlight) : Highlight := { h with frozen := !h.frozen }

end Highlight

/--
The line that a view scrolls to, so that the highlighted region can be seen: the first
source line, or the first line of the first span. The view that the region was
chosen in stays where it is.
-/
def RegionTable.revealLine (t : RegionTable) (view : View) (selection : Option Selection) :
    Option Int := do
  let s ← selection
  if s.chosenIn = view then Option.none
  else
    let r ← t.find? s.key
    match view with
    | .source => some r.position.start.line
    | .compiled => r.spans.head?.map (·.first)

/-! ## Views by name

A name is looked at only where the view matters. -/

/-- The highlight after the cursor moved in a view that goes by its name. -/
def Highlight.hoverIn (h : Highlight) (t : RegionTable) (view : Doc) (c : Cursor) :
    Except Fault Highlight :=
  if h.frozen then .ok h else (View.read view).map fun v => h.hover t v c

/-- The line that a view scrolls to if the view goes by its name. -/
def RegionTable.revealLineIn (t : RegionTable) (view : Doc) (selection : Option Selection) :
    Except Fault (Option Int) :=
  if selection.isNone then .ok Option.none
  else (View.read view).map fun v => t.revealLine v selection

end AsmLens
