import AsmLens.Document.Basic
import AsmLens.Yaml.Moment

/-!
# Values of settings files

What a settings file holds. Other than in a document, there are dates, moments, bytes,
sets and tuples, which are the entries of an ordered mapping, and the keys of a mapping
can be any values that are no collections, or tuples of such values. Two keys are the
same if they have the same value, so that `1`, `1.0` and `true` are one key.

Every document is such a value (`ofDoc`), and `toDoc_ofDoc` says that nothing is lost
on the way.
-/

namespace AsmLens.Yaml

/-- A value of a settings file. -/
inductive Value
  | null
  | bool (b : Bool)
  | number (n : Number)
  | text (s : String)
  | date (year month day : Nat)
  | moment (m : Moment)
  | bytes (b : List UInt8)
  | list (items : List Value)
  | tuple (items : List Value)
  /-- The elements of a set, in the order in which one goes through them. -/
  | set (items : List Value)
  | mapping (entries : List (Value × Value))

namespace Value

instance : Inhabited Value := ⟨.null⟩

/-- An integer value. -/
def int (n : Int) : Value := .number (.int n)

/-- The shape of a value. -/
def shape : Value → Shape
  | null => .null
  | bool _ => .bool
  | number n => n.shape
  | text _ => .text
  | date _ _ _ => .date
  | moment _ => .moment
  | bytes _ => .bytes
  | list _ => .list
  | tuple _ => .tuple
  | set _ => .set
  | mapping _ => .object

/-- Whether a value is null, false, zero or empty. -/
def isBlank : Value → Bool
  | null => true
  | bool b => !b
  | number n => n.isZero
  | text s => s.isEmpty
  | date _ _ _ | moment _ => false
  | bytes b => b.isEmpty
  | list xs | tuple xs | set xs => xs.isEmpty
  | mapping es => es.isEmpty

/-- The value, or another one in place of a blank. -/
def orElse (v other : Value) : Value := if v.isBlank then other else v

/-! ## Keys -/

/-- The number that a value counts as: a truth value is 1 or 0. -/
def numeric? : Value → Option Number
  | bool b => some (.int (if b then 1 else 0))
  | number n => some n
  | _ => none

mutual

/-- Whether two values are the same key. -/
def sameKey : Value → Value → Bool
  | null, null => true
  | text a, text b => a = b
  | date a b c, date x y z => a = x && b = y && c = z
  | moment m, moment n => m.same n
  | bytes a, bytes b => a = b
  | tuple xs, tuple ys => sameKeys xs ys
  | a, b =>
    match a.numeric?, b.numeric? with
    | some m, some n => m.same n
    | _, _ => false

/-- Whether some values are the same keys as others, one by one. -/
def sameKeys : List Value → List Value → Bool
  | [], [] => true
  | x :: xs, y :: ys => sameKey x y && sameKeys xs ys
  | _, _ => false

end

mutual

/-- The shape that keeps a value from being a key. -/
def keyFlaw? : Value → Option Shape
  | list _ => some .list
  | set _ => some .set
  | mapping _ => some .object
  | tuple xs => keysFlaw? xs
  | _ => none

/-- The shape that keeps the first of some values that cannot be a key from being one. -/
def keysFlaw? : List Value → Option Shape
  | [] => none
  | v :: vs => (keyFlaw? v).or (keysFlaw? vs)

end

/-- Whether a value can be a key. -/
def isKey (v : Value) : Bool := v.keyFlaw?.isNone

/-- The value under a name. -/
def lookup (name : String) : List (Value × Value) → Option Value
  | [] => none
  | (.text k, v) :: rest => if k = name then some v else lookup name rest
  | _ :: rest => lookup name rest

/-- The entries with a value put under a key: in place if the key is there, else at the end. -/
def put (key v : Value) : List (Value × Value) → List (Value × Value)
  | [] => [(key, v)]
  | (k, w) :: rest => if k.sameKey key then (k, v) :: rest else (k, w) :: put key v rest

/-- The entries of a list of pairs: the first place and the last value of each key. -/
def collect (pairs : List (Value × Value)) : List (Value × Value) :=
  pairs.foldl (fun es p => put p.1 p.2 es) []

/-! ## Display -/

/-- The form in which messages show a byte between quotes `q`. -/
def inspectByte (q : Char) (b : UInt8) : List Char :=
  if b < 0x7f then Text.quoteChar q (Char.ofNat b.toNat) else '\\' :: 'x' :: Text.hexDigits 2 b.toNat

/-- The form in which messages show bytes. -/
def inspectBytes (b : List UInt8) : String :=
  let q := Text.quoteMark (b.map fun n => Char.ofNat n.toNat)
  String.ofList ('b' :: q :: b.flatMap (inspectByte q) ++ [q])

mutual

/-- The form in which messages show a value, texts quoted. -/
def inspect : Value → String
  | null => "None"
  | bool b => Doc.boolWord b
  | number n => n.plain
  | text s => Text.quoted s
  | date y m d => "datetime.date(" ++ toString y ++ ", " ++ toString m ++ ", " ++ toString d ++ ")"
  | moment m => m.inspect
  | bytes b => inspectBytes b
  | list xs => "[" ++ ", ".intercalate (inspectItems xs) ++ "]"
  | tuple [x] => "(" ++ inspect x ++ ",)"
  | tuple xs => "(" ++ ", ".intercalate (inspectItems xs) ++ ")"
  | set [] => "set()"
  | set xs => "\x7b" ++ ", ".intercalate (inspectItems xs) ++ "\x7d"
  | mapping es => "\x7b" ++ ", ".intercalate (inspectEntries es) ++ "\x7d"

/-- The items of a list, each as messages show it. -/
def inspectItems : List Value → List String
  | [] => []
  | v :: vs => v.inspect :: inspectItems vs

/-- The entries of a mapping, each as messages show it. -/
def inspectEntries : List (Value × Value) → List String
  | [] => []
  | (k, v) :: es => (k.inspect ++ ": " ++ v.inspect) :: inspectEntries es

end

mutual

/-- Whether no integer in a value has more digits than may be written. -/
def isWritable : Value → Bool
  | number (.int n) => Text.isWritable n
  | list xs | tuple xs | set xs => areWritable xs
  | mapping es => entriesWritable es
  | _ => true

/-- Whether no integer in some items has more digits than may be written. -/
def areWritable : List Value → Bool
  | [] => true
  | v :: vs => v.isWritable && areWritable vs

/-- Whether no integer in some entries has more digits than may be written. -/
def entriesWritable : List (Value × Value) → Bool
  | [] => true
  | (k, v) :: es => k.isWritable && v.isWritable && entriesWritable es

end

/-- The text of a value: a text as it is, anything else as messages show it. -/
def display : Value → String
  | text s => s
  | date y m d => dateText y m d
  | moment m => m.text
  | v => v.inspect

/-! ## Documents -/

/-- The name that a key has as a member of a document. -/
def memberName : Value → String
  | text s => s
  | null => "null"
  | bool b => if b then "true" else "false"
  | number n => n.text Binary64.documentFormat
  | v => v.display

mutual

/-- The document that a value is, or that shows it; keys become names. -/
def toDoc : Value → Doc
  | null => .null
  | bool b => .bool b
  | number n => .number n
  | text s => .text s
  | date y m d => .text (dateText y m d)
  | moment m => .text m.text
  | bytes b => .text (inspectBytes b)
  | list xs | tuple xs | set xs => .list (itemDocs xs)
  | mapping es => .object (entryDocs es)

/-- The documents that some items are. -/
def itemDocs : List Value → List Doc
  | [] => []
  | v :: vs => v.toDoc :: itemDocs vs

/-- The members that some entries are. -/
def entryDocs : List (Value × Value) → List (String × Doc)
  | [] => []
  | (k, v) :: es => (k.memberName, v.toDoc) :: entryDocs es

end

mutual

/-- A document as a value. -/
def ofDoc : Doc → Value
  | .null => .null
  | .bool b => .bool b
  | .number n => .number n
  | .text s => .text s
  | .list ds => .list (ofDocs ds)
  | .object ms => .mapping (ofMembers ms)

/-- Documents as values. -/
def ofDocs : List Doc → List Value
  | [] => []
  | d :: ds => ofDoc d :: ofDocs ds

/-- The members of an object as entries. -/
def ofMembers : List (String × Doc) → List (Value × Value)
  | [] => []
  | (k, d) :: ms => (.text k, ofDoc d) :: ofMembers ms

end

mutual

/-- A document is what its value is. -/
theorem toDoc_ofDoc : (d : Doc) → (ofDoc d).toDoc = d
  | .null | .bool _ | .number _ | .text _ => rfl
  | .list ds => by simp [ofDoc, toDoc, itemDocs_ofDocs ds]
  | .object ms => by simp [ofDoc, toDoc, entryDocs_ofMembers ms]

theorem itemDocs_ofDocs : (ds : List Doc) → itemDocs (ofDocs ds) = ds
  | [] => rfl
  | d :: ds => by simp [ofDocs, itemDocs, toDoc_ofDoc d, itemDocs_ofDocs ds]

theorem entryDocs_ofMembers : (ms : List (String × Doc)) → entryDocs (ofMembers ms) = ms
  | [] => rfl
  | (k, d) :: ms => by
    simp [ofMembers, entryDocs, memberName, toDoc_ofDoc d, entryDocs_ofMembers ms]

end

end Value

end AsmLens.Yaml
