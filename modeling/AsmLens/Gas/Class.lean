import AsmLens.Document.Basic

/-!
# Gas classes

The heat map has ten classes of gas and one for regions without a measurement. Each
class includes its upper bound: exactly 100 gas is class 2, a little more is class 3.
-/

namespace AsmLens

/-- A class of the heat map. -/
inductive GasClass
  /-- No measurement. -/
  | none
  /-- One of ten classes, cheapest first. -/
  | level (i : Fin 10)
deriving DecidableEq, Repr, Inhabited

namespace GasClass

/-- The number of a class; none without a measurement. -/
def index? : GasClass → Option Nat
  | none => Option.none
  | level i => some i.val

/-- The style name of a class. -/
def style : GasClass → String
  | none => "frag-heatmap-null"
  | level i => "frag-heatmap-" ++ Text.intText i.val

/-- What each class covers, as shown to the user. -/
def label : GasClass → String
  | none => "NO COVERAGE"
  | level 0 => "0 - 10 GAS"
  | level 1 => "10 - 50 GAS"
  | level 2 => "50 - 100 GAS"
  | level 3 => "100 - 200 GAS"
  | level 4 => "200 - 500 GAS"
  | level 5 => "500 - 1000 GAS"
  | level 6 => "1000 - 2000 GAS"
  | level 7 => "2000 - 5000 GAS"
  | level 8 => "5000 - 10000 GAS"
  | level 9 => "> 10000 GAS"

/-- All classes, the one without a measurement first. -/
def all : List GasClass := none :: (List.finRange 10).map level

/-- The class with a style name. -/
def ofStyle? (s : String) : Option GasClass := all.find? fun c => c.style = s

/-- The class with a number given as a value; null stands for no measurement. -/
def ofIndex (v : Doc) : Except Fault GasClass :=
  match v with
  | .null => .ok none
  | v =>
    let style := "frag-heatmap-" ++ v.display
    match ofStyle? style with
    | some c => .ok c
    | Option.none => .error (.notAMember (Text.quoted style) "GasClass")

/-- The inclusive upper bounds of the classes but the last, which has none. -/
def bounds : List Nat := [10, 50, 100, 200, 500, 1000, 2000, 5000, 10000]

/-- How many of the bounds come before the first that a number does not exceed. -/
def level? (bounds : List Nat) (gas : Number) : Nat :=
  match bounds with
  | [] => 0
  | b :: rest => if gas.le (.int b) then 0 else level? rest gas + 1

theorem level?_le (bounds : List Nat) (gas : Number) : level? bounds gas ≤ bounds.length := by
  induction bounds with
  | nil => simp [level?]
  | cons b bs ih => unfold level?; split <;> simp; omega

/-- The class of a measured gas value. -/
def ofGas (gas : Number) : GasClass :=
  .level ⟨level? bounds gas, Nat.lt_succ_of_le (level?_le bounds gas)⟩

/-- The class of a gas value that may be missing. -/
def ofMeasured : Option Number → GasClass
  | some gas => ofGas gas
  | Option.none => none

end GasClass

end AsmLens
