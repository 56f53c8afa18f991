import AsmLens.Log.Traced
import AsmLens.Yaml.Value

/-!
# Sections of settings

A section is a mapping from names to values; a list of pairs does as well. Names that a
section does not know are ignored with a warning.

* `entriesOf` — the entries of a value that stands for a mapping
* `knownEntries` — the entries of a section after the warning
-/

namespace AsmLens.Settings

open Yaml

/-! ## Mappings -/

/-- The elements of a value that can be gone through: those of a list, tuple or set, the characters of a
text, the numbers of bytes, the keys of a mapping. -/
def elements : Value → Except Fault (List Value)
  | .list vs | .tuple vs | .set vs => .ok vs
  | .bytes b => .ok (b.map fun n => .int n.toNat)
  | .text s => .ok (s.toList.map fun c => .text (String.singleton c))
  | .mapping es => .ok (es.map Prod.fst)
  | v => .error (.notIterable v.shape)

/-- The pair that the element of a list of pairs stands for. -/
def pairOf (index : Nat) (v : Value) : Except Fault (Value × Value) :=
  match elements v with
  | .error _ => .error (.notAPair index)
  | .ok [k, w] =>
    match k.keyFlaw? with
    | none => .ok (k, w)
    | some flaw => .error (.notAKey flaw)
  | .ok vs => .error (.pairLength index vs.length)

/-- The pairs that elements stand for, counted from a number. -/
def pairsOf (index : Nat) : List Value → Except Fault (List (Value × Value))
  | [] => .ok []
  | v :: vs => do return (← pairOf index v) :: (← pairsOf (index + 1) vs)

/-- The entries of a mapping, or of a list of pairs. -/
def entriesOf : Value → Except Fault (List (Value × Value))
  | .mapping es => .ok es
  | v => do return Value.collect (← pairsOf 0 (← elements v))

/-! ## Unknown names -/

/-- The part of the program that notes on settings come from. -/
def origin : String := "config"

/-- Whether a key is one of some names. -/
def isNamed (names : List String) : Value → Bool
  | .text s => names.contains s
  | _ => false

/-- The keys without repetitions. -/
def distinct : List Value → List Value
  | [] => []
  | k :: ks => k :: (distinct ks).filter fun j => !k.sameKey j

/-- The fault of moments of which only one has a place. -/
def mixedMoments : Fault := .other .type "can't compare offset-naive and offset-aware datetimes"

/-- The fault of a moment and a day. -/
def momentAndDay : Fault := .other .type "can't compare datetime.datetime to datetime.date"

/-- Whether a key that is no tuple comes before another one. -/
def atomPrecedes : Value → Value → Except Fault Bool
  | .text a, .text b => .ok (a < b)
  | .bytes a, .bytes b => .ok (a < b)
  | .date a b c, .date x y z =>
    .ok (a < x || a = x && (b < y || b = y && c < z))
  | .moment m, .moment n => if m.comparable n then .ok (m.instant < n.instant) else .error mixedMoments
  | .moment _, .date _ _ _ | .date _ _ _, .moment _ => .error momentAndDay
  | a, b =>
    match a.numeric?, b.numeric? with
    | some m, some n => .ok (m.lt n)
    | _, _ => .error (.notOrdered "<" b.shape a.shape)

mutual

/-- Whether a key comes before another one. -/
def precedes : Value → Value → Except Fault Bool
  | .tuple xs, .tuple ys => partsPrecede xs ys
  | a, b => atomPrecedes a b

/-- Whether the parts of a tuple come before those of another one: the first that differ decide. -/
def partsPrecede : List Value → List Value → Except Fault Bool
  | [], ys => .ok (!ys.isEmpty)
  | _ :: _, [] => .ok false
  | x :: xs, y :: ys => if x.sameKey y then partsPrecede xs ys else precedes x y

end

/-- The least of some keys, which have to be comparable. -/
def leastKey (first : Value) (rest : List Value) : Except Fault Value :=
  rest.foldlM (fun least k => return if ← precedes k least then k else least) first

/-- The texts among keys; none if there are other keys. -/
def names? (keys : List Value) : Option (List String) :=
  keys.mapM fun
    | .text s => some s
    | _ => none

/-- The keys as a warning lists them, in order. Only texts can be listed. -/
def listed : List Value → Except Fault String
  | [] => .ok ""
  | k :: ks =>
    match names? (k :: ks) with
    | some names => .ok (", ".intercalate (names.mergeSort fun a b => !(b < a)))
    | none => do throw (.nameNotText 0 (← leastKey k ks).shape)

/-- The warning about unknown keys of a section; nothing if there are none. -/
def warnings (label : String) (unknown : List Value) : Except Fault (List Note) := do
  if unknown.isEmpty then return []
  return [⟨.warning, origin, "Ignoring unknown " ++ label ++ " settings: " ++ (← listed unknown)⟩]

/-- The keys of a section, which has to be something with keys. -/
def sectionKeys (v : Value) : Except Fault (List Value) := do
  let keys ← elements v
  match keys.findSome? Value.keyFlaw? with
  | some flaw => throw (.notAKey flaw)
  | none => return keys

/-- The entries of a section, with a warning about names that it does not know. -/
def knownEntries (label : String) (names : List String) (v : Value) :
    Traced (List (Value × Value)) := do
  let keys ← sectionKeys v
  Traced.tell (← warnings label (distinct (keys.filter fun k => !isNamed names k)))
  match v with
  | .mapping es => return es
  | v => Traced.fault (.noAttribute v.shape "items")

/-- The entries that give each name its value. -/
def entriesFrom (members : List (String × Value)) : List (Value × Value) :=
  members.map fun m => (.text m.1, m.2)

/-- The value of a setting among the entries of its section. -/
def setting (es : List (Value × Value)) (name : String) (default : Value) : Value :=
  (Value.lookup name es).getD default

/-! ## Checks -/

/-- A value that a check refuses, with a problem whose wording shows it; it may be too long to be shown. -/
def refuse (v : Value) (problem : String → Problem) : Result Unit :=
  if v.isWritable then Failure.raise (problem v.inspect) else .error (.fault .unwritable)

end AsmLens.Settings
