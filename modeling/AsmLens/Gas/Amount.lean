import AsmLens.Gas.Record

/-!
# Amounts of gas for display

Whole amounts are shown in groups of three digits, others with two decimal places;
a dash stands for an amount that is not known.
-/

namespace AsmLens.Gas

/-- An amount that may be missing. -/
def amount : Option Number → Except Fault String
  | some n => n.pretty
  | none => .ok "-"

/-- An amount given as a value: a truth value counts as 0 or 1, a text has to be an integer. -/
def amountOf : Doc → Except Fault String
  | .null => .ok "-"
  | .bool b => .ok (if b then "1" else "0")
  | .number n => n.pretty
  | .text s =>
    match Text.readInt? s with
    | some n =>
      match (Number.int n).pretty with
      | .ok shown => .ok shown
      | .error _ => .error (.unreadableNumber s)
    | none => .error (.unreadableNumber s)
  | d => .error (.notANumber d.shape)

end AsmLens.Gas
