import AsmLens.Yaml.Base64
import AsmLens.Yaml.Node

/-!
# Reading settings files

The value that the text of a settings file denotes. A plain scalar without a tag has
the meaning that its text gives it; a quoted one is its text. In a mapping a later
entry takes the place of an earlier one with the same key, and the entries of merged
mappings come first. A set is a mapping of which only the keys count, and an ordered
mapping a list of its entries, each a tuple. A text has no half of a surrogate pair: a
file that asks for one is refused with a fault.
-/

namespace AsmLens.Yaml

/-- Why a settings file has no value: it is ill-formed, or a scalar has a value that cannot be. -/
inductive Refusal
  | complaint (c : Complaint)
  | fault (f : Fault)

/-- What is wrong with a settings file, and where if the place is known; counted from zero. -/
structure Error where
  complaint : Complaint
  place : Option Place

/-- The wording of an error. -/
def Error.message (e : Error) : String :=
  e.complaint.message ++
    match e.place with
    | some p => ", line " ++ toString (p.line + 1) ++ ", column " ++ toString (p.column + 1)
    | none => ""

namespace Node

/-! ## Scalars -/

/-- An integer with a sign. -/
def integerValue (negative : Bool) (form : IntForm) : Except Refusal Value :=
  match form.value? with
  | some n => .ok (.int (if negative then -(n : Int) else n))
  | none => .error (.fault .tooManyDigits)

/-- The value of a scalar that means something. -/
def meantValue (text : String) : Meaning → Except Refusal Value
  | .null => .ok .null
  | .bool b => .ok (.bool b)
  | .int negative form => integerValue negative form
  | .float negative form => .ok (.number (.float (form.value negative)))
  | .stamp s => s.value.mapError .fault
  | .text => .ok (.text text)
  | .merge | .default => .error (.complaint .unknownTag)

/-- The value of a scalar with a tag. -/
def taggedValue (text tag : String) : Except Refusal Value :=
  let meaning := Meaning.ofPlain text
  match tag with
  | "!!str" => .ok (.text text)
  | "!!null" => .ok .null
  | "!!bool" =>
    match meaning with
    | .bool b => .ok (.bool b)
    | _ => .error (.fault (.noEntry text))
  | "!!int" =>
    match meaning with
    | .int negative form => integerValue negative form
    | _ => .error (.fault (.unreadableNumber text))
  | "!!float" =>
    match meaning with
    | .float negative form => .ok (.number (.float (form.value negative)))
    | .int negative (.run 10 ds) => .ok (.number (.float (decimalValue negative ds [] 0)))
    | _ => .error (.fault (.unreadableNumber text))
  | "!!timestamp" =>
    match Stamp.read? text.toList with
    | some s => s.value.mapError .fault
    | none => .error (.fault (.noAttribute .null "groupdict"))
  | "!!binary" =>
    match bytes? text.toList with
    | some b => .ok (.bytes b)
    | none => .error (.complaint .notBase64)
  | _ => .error (.complaint .unknownTag)

/-- The value of a scalar. -/
def scalarValue (text : String) (plain : Bool) : Option String → Except Refusal Value
  | none => if plain then meantValue text (Meaning.ofPlain text) else .ok (.text text)
  | some "!" => meantValue text (Meaning.ofPlain text)
  | some tag => taggedValue text tag

/-! ## Mappings -/

/-- Whether a node is the key under which other mappings are merged. -/
def isMergeKey : Node → Bool
  | .scalar "<<" true none => true
  | _ => false

mutual

/-- The entries of a mapping: what its merges bring, then its own without the keys of merges. -/
def flatten (rounds : Nat) (es : List (Node × Node)) : Except Complaint (List (Node × Node)) :=
  match rounds with
  | 0 => .error .notMergeable
  | r + 1 => do
    let merged ← (es.filter fun e => e.1.isMergeKey).mapM fun e => mergedEntries r e.2
    return merged.flatten ++ es.filter fun e => !e.1.isMergeKey

/-- The entries that a merged node brings, the last mapping of a list first. -/
def mergedEntries (rounds : Nat) (n : Node) : Except Complaint (List (Node × Node)) :=
  match rounds with
  | 0 => .error .notMergeable
  | r + 1 =>
    match n with
    | .mapping es _ => flatten r es
    | .list ns _ => do return (← ns.mapM (mergedMapping r)).reverse.flatten
    | .scalar _ _ _ => .error .notMergeable

/-- The entries of one of several merged mappings. -/
def mergedMapping (rounds : Nat) (n : Node) : Except Complaint (List (Node × Node)) :=
  match rounds with
  | 0 => .error .notMergeable
  | r + 1 =>
    match n with
    | .mapping es _ => flatten r es
    | _ => .error .notMergeable

end

/-! ## Values -/

/-- Whether a collection may have a tag. -/
def allows (own : String) : Option String → Bool
  | none => true
  | some t => t = own || t = "!"

/-- Whether a list is tagged as an ordered mapping, or as pairs. -/
def isOrdered (tag : Option String) : Bool := tag = some "!!omap" || tag = some "!!pairs"

mutual

/-- The value of a node. -/
def value (rounds : Nat) (n : Node) : Except Refusal Value :=
  match rounds with
  | 0 => .error (.complaint .unexpectedToken)
  | r + 1 =>
    match n with
    | .scalar text plain tag => scalarValue text plain tag
    | .list ns tag => do
      if isOrdered tag then return .list (← pairValues r ns)
      if !allows "!!seq" tag then throw (.complaint .unknownTag)
      return .list (← itemValues r ns)
    | .mapping es tag => do
      if tag ≠ some "!!set" && !allows "!!map" tag then throw (.complaint .unknownTag)
      let es ← (flatten rounds es).mapError .complaint
      let es := Value.collect (← entryValues r es)
      return if tag = some "!!set" then .set (es.map Prod.fst) else .mapping es

/-- The values of some items. -/
def itemValues (rounds : Nat) (ns : List Node) : Except Refusal (List Value) :=
  match rounds with
  | 0 => .error (.complaint .unexpectedToken)
  | r + 1 =>
    match ns with
    | [] => .ok []
    | n :: ns => do return (← value r n) :: (← itemValues r ns)

/-- The entries of an ordered mapping as tuples. -/
def pairValues (rounds : Nat) (ns : List Node) : Except Refusal (List Value) :=
  match rounds with
  | 0 => .error (.complaint .unexpectedToken)
  | r + 1 =>
    match ns with
    | [] => .ok []
    | .mapping [(k, v)] _ :: ns => do
      return .tuple [← value r k, ← value r v] :: (← pairValues r ns)
    | _ => .error (.complaint .notAPair)

/-- The values of some entries. -/
def entryValues (rounds : Nat) (es : List (Node × Node)) : Except Refusal (List (Value × Value)) :=
  match rounds with
  | 0 => .error (.complaint .unexpectedToken)
  | r + 1 =>
    match es with
    | [] => .ok []
    | (k, v) :: es => do
      let k ← match k with
        | .scalar "=" true none => pure (.text "=")
        | k => value r k
      if !k.isKey then throw (.complaint .notAKey)
      let v ← value r v
      return (k, v) :: (← entryValues r es)

end

mutual

/-- How many rounds the value of a node takes. -/
def weight : Node → Nat
  | .scalar _ _ _ => 1
  | .list ns _ => 1 + itemWeight ns
  | .mapping es _ => 1 + entryWeight es

/-- How many rounds the values of some items take. -/
def itemWeight : List Node → Nat
  | [] => 1
  | n :: ns => 1 + n.weight + itemWeight ns

/-- How many rounds the values of some entries take. -/
def entryWeight : List (Node × Node) → Nat
  | [] => 1
  | (k, v) :: es => 1 + k.weight + v.weight + entryWeight es

end

end Node

/--
A reader of settings files: the value that a text denotes, or why it has none. Values are finite
trees. One that contains itself, which is what an alias inside its own anchor denotes, is not among
them.
-/
abbrev Parser := List Char → Except (Error ⊕ Fault) Value

/-- The value that a text denotes; a text without a document denotes null. An alias inside its own
anchor is refused. -/
def read : Parser := fun text =>
  let refuse (c : Complaint) (p : Option Place) : Error ⊕ Fault :=
    match c.fault? with
    | some f => .inr f
    | none => .inl ⟨c, p⟩
  match tokens text with
  | .error (c, p) => .error (refuse c (some p))
  | .ok ts =>
    match Node.ofTokens ts with
    | .error c => .error (refuse c none)
    | .ok none => .ok .null
    | .ok (some n) =>
      match n.value (3 * n.weight) with
      | .ok v => .ok v
      | .error (.complaint c) => .error (refuse c none)
      | .error (.fault f) => .error (.inr f)

example : (read "a: !!set \x7bb\x7d\nc: 2001-12-14 21:59:43 -5\n".toList).isOk = true := by decide +kernel

end AsmLens.Yaml
