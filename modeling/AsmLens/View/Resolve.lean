import AsmLens.Region.Table

/-!
# Views and resolution

A table can be looked at from two sides: the source, and the compiled listing. A
cursor in a view resolves to the most specific region that contains it there; among
regions of one length the one that starts first, and then the one that ends first.
-/

namespace AsmLens

/-- A side from which a table is looked at. -/
inductive View
  | source | compiled
deriving DecidableEq, Repr

namespace View

/-- The name of a view. -/
def name : View → String
  | source => "source"
  | compiled => "compiled"

/-- The view with a name. -/
def ofName? (s : String) : Option View := [source, compiled].find? fun v => v.name = s

/-- The view that a value names. -/
def read (d : Doc) : Except Fault View :=
  match d with
  | .text s =>
    match ofName? s with
    | some v => .ok v
    | none => .error (.notAMember d.inspect "View")
  | _ => .error (.notAMember d.inspect "View")

end View

/-- Whether a region contains a cursor of a view; the listing has no columns. -/
def Region.shows (r : Region) (view : View) (c : Cursor) : Bool :=
  match view with
  | .source => r.position.contains c
  | .compiled => r.spans.any fun s => s.contains c.line

namespace RegionTable

/-- The most specific region that contains a cursor. -/
def resolve (t : RegionTable) (view : View) (c : Cursor) : Option Region :=
  t.bySpecificity.find? fun r => r.shows view c

/-- The key of the most specific region that contains a cursor. -/
def resolveKey (t : RegionTable) (view : View) (c : Cursor) : Option String :=
  (t.resolve view c).map Region.key

end RegionTable

end AsmLens
