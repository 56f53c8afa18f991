import AsmLens.Problem

/-!
# Required members

Ways into nested objects that report the full path of the first step that is missing
or null.
-/

namespace AsmLens.Doc

/-- The steps of a path as messages show it. -/
def joinPath (steps : List String) : String := ".".intercalate steps

/-- The value at the end of a path; `walked` are the steps before it. -/
def requireFrom (walked : List String) : Doc → List Doc → Except Problem Doc
  | d, [] => .ok d
  | d, step :: steps =>
    let walked := walked ++ [step.display]
    let found := match step with
      | .text name => d.field? name
      | _ => none
    match found with
    | some v => requireFrom walked v steps
    | none => .error (.missingField (joinPath walked))

/-- The value at the end of a path; messages put a prefix before the path. -/
def require (d : Doc) (path : List Doc) (base : String := "") : Except Problem Doc :=
  requireFrom (if base.isEmpty then [] else [base]) d path

/-- The value at the end of a path of names. -/
def requireAt (d : Doc) (names : List String) (base : String := "") : Except Problem Doc :=
  d.require (names.map .text) base

/-- A path of one name leads to the member of that name. -/
theorem requireAt_eq_ok {d v : Doc} {name base : String} :
    d.requireAt [name] base = .ok v ↔ d.field? name = some v := by
  cases h : d.field? name <;> simp [requireAt, require, requireFrom, h]

/-- A member's path as messages show it. -/
def pathOf (base name : String) : String := if base.isEmpty then name else base ++ "." ++ name

/-- A member that has to be a number. -/
def requireNumber (d : Doc) (name : String) (base : String := "") : Except Problem Number := do
  match ← d.requireAt [name] base with
  | .number n => return n
  | v => throw (.expectedNumber v (pathOf base name))

end AsmLens.Doc
