import AsmLens.Number.Basic

/-!
# Documents

The values that compiler outputs, measurements, settings and service answers are
made of: null, truth values, numbers, texts, lists, and objects whose members keep
the order in which they were written.

A member that is null counts as absent wherever something is required; a value is
*blank* when it is null, false, zero or empty.
-/

namespace AsmLens

/-- A document value. -/
inductive Doc
  | null
  | bool (b : Bool)
  | number (n : Number)
  | text (s : String)
  | list (items : List Doc)
  | object (members : List (String × Doc))

namespace Doc

instance : Inhabited Doc := ⟨.null⟩

/-- An integer value. -/
def int (n : Int) : Doc := .number (.int n)

/-- A floating-point value. -/
def float (x : Binary64) : Doc := .number (.float x)

/-- A natural number as a value. -/
def nat (n : Nat) : Doc := .int n

/-- A value that may be missing; null if it is. -/
def ofOption {α : Type} (f : α → Doc) : Option α → Doc
  | some a => f a
  | none => .null

/-- The shape of a value. -/
def shape : Doc → Shape
  | null => .null
  | bool _ => .bool
  | number n => n.shape
  | text _ => .text
  | list _ => .list
  | object _ => .object

/-- Whether a value is null, false, zero or empty. -/
def isBlank : Doc → Bool
  | null => true
  | bool b => !b
  | number n => n.isZero
  | text s => s.isEmpty
  | list xs => xs.isEmpty
  | object ms => ms.isEmpty

/-- The value, or another one in place of a blank. -/
def orElse (d other : Doc) : Doc := if d.isBlank then other else d

/-- Whether a value is the given text. -/
def isText (t : String) : Doc → Bool
  | text s => s = t
  | _ => false

/-! ## Members -/

/-- The value under a name in a list of members. -/
def lookup (name : String) : List (String × Doc) → Option Doc
  | [] => none
  | (k, v) :: rest => if k = name then some v else lookup name rest

/-- A member of an object; absent in any other value. -/
def member? (name : String) : Doc → Option Doc
  | object ms => lookup name ms
  | _ => none

/-- A member that is neither absent nor null. -/
def field? (name : String) (d : Doc) : Option Doc :=
  match d.member? name with
  | some null | none => none
  | some v => some v

/-- A member, null if it is absent. -/
def get (name : String) (d : Doc) : Doc := (d.member? name).getD .null

/-- A member of a value that has to be an object for its members to be asked. -/
def getMember (name : String) : Doc → Except Fault Doc
  | object ms => .ok ((lookup name ms).getD .null)
  | d => .error (.noAttribute d.shape "get")

theorem get_eq_of_field? {d v : Doc} {name : String} (h : d.field? name = some v) :
    d.get name = v := by
  unfold field? at h
  split at h
  · exact nomatch h
  · exact nomatch h
  · next hv => simp [get, hv, Option.some.inj h]

theorem get_eq_null_of_field? {d : Doc} {name : String} (h : d.field? name = none) :
    d.get name = .null := by
  unfold field? at h
  split at h
  · next hv => simp [get, hv]
  · next hv => simp [get, hv]
  · exact nomatch h

theorem field?_ne_null {d : Doc} {name : String} : d.field? name ≠ some .null := by
  unfold field?
  split
  · nofun
  · nofun
  · next hv _ => exact fun h => hv (Option.some.inj h)

theorem get_eq_of_getMember {d v : Doc} {name : String} (h : d.getMember name = .ok v) :
    d.get name = v := by
  unfold getMember at h
  split at h
  · exact Except.ok.inj h
  · exact nomatch h

/-- The members of a value that has to be an object for them to be gone through. -/
def membersFor (operation : String) : Doc → Except Fault (List (String × Doc))
  | object ms => .ok ms
  | d => .error (.noAttribute d.shape operation)

/-- The members with a value put under a name: in place if the name is there, else at the end. -/
def put (name : String) (v : Doc) : List (String × Doc) → List (String × Doc)
  | [] => [(name, v)]
  | (k, w) :: rest => if k = name then (k, v) :: rest else (k, w) :: put name v rest

/-- A value put under a name is found there, and every other name keeps its value. -/
theorem lookup_put (name other : String) (v : Doc) (ms : List (String × Doc)) :
    lookup other (put name v ms) = if name = other then some v else lookup other ms := by
  induction ms with
  | nil => simp [put, lookup]
  | cons m ms ih =>
    by_cases h : m.1 = name <;> by_cases k : m.1 = other <;> grind [put, lookup]

/-- The members of a list of pairs: the first place and the last value of each name. -/
def collect (pairs : List (String × Doc)) : List (String × Doc) :=
  pairs.foldl (fun ms p => put p.1 p.2 ms) []

/-! ## Display -/

/-- The word for a truth value in messages. -/
def boolWord (b : Bool) : String := if b then "True" else "False"

mutual

/-- The form in which messages show a value, texts quoted. -/
def inspect : Doc → String
  | null => "None"
  | bool b => boolWord b
  | number n => n.plain
  | text s => Text.quoted s
  | list xs => "[" ++ ", ".intercalate (inspectItems xs) ++ "]"
  | object ms => "\x7b" ++ ", ".intercalate (inspectMembers ms) ++ "\x7d"

/-- The items of a list, each as messages show it. -/
def inspectItems : List Doc → List String
  | [] => []
  | d :: ds => d.inspect :: inspectItems ds

/-- The members of an object, each as messages show it. -/
def inspectMembers : List (String × Doc) → List String
  | [] => []
  | (k, d) :: ds => (Text.quoted k ++ ": " ++ d.inspect) :: inspectMembers ds

end

/-- The text of a value: a text as it is, anything else as messages show it. -/
def display : Doc → String
  | text s => s
  | d => d.inspect

/-- The text of a value filled up with spaces to a width; a number stands for a truth value. -/
def displayPadded (width : Nat) : Doc → Except Fault String
  | text s => .ok (Text.padRight width s)
  | number n => .ok (Text.padRight width n.plain)
  | bool b => .ok (Text.padRight width (if b then "1" else "0"))
  | d => .error (.notAligned d.shape)

example : (Doc.object [("k", .list [.null, .text "a", .bool true])]).inspect
    = "\x7b'k': [None, 'a', True]\x7d" := by decide +kernel

end Doc

end AsmLens
