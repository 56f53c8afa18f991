import AsmLens.Document.Basic

/-!
# Writing documents

Documents as JSON text in ASCII: every character outside the range from space to
tilde becomes an escape, with a pair of escapes beyond the sixteen-bit range. With
an indent each item and member stands on a line of its own; without one all is on
one line.
-/

namespace AsmLens.Doc

open AsmLens.Text

/-! ## Texts -/

/-- A sixteen-bit unit as an escape. -/
def unitEscape (n : Nat) : List Char := '\\' :: 'u' :: hexDigits 4 n

/-- One character between double quotes. -/
def escapeChar (c : Char) : List Char :=
  if c = '"' then ['\\', '"']
  else if c = '\\' then ['\\', '\\']
  else if c = '\n' then ['\\', 'n']
  else if c = '\r' then ['\\', 'r']
  else if c = '\t' then ['\\', 't']
  else if c.toNat = 0x0c then ['\\', 'f']
  else if c.toNat = 0x08 then ['\\', 'b']
  else if 0x20 ≤ c.toNat && c.toNat ≤ 0x7e then [c]
  else if c.toNat < 0x10000 then unitEscape c.toNat
  else
    let n := c.toNat - 0x10000
    unitEscape (0xd800 + n / 0x400) ++ unitEscape (0xdc00 + n % 0x400)

/-- A text between double quotes. -/
def writeText (s : String) : String :=
  String.ofList ('"' :: s.toList.flatMap escapeChar ++ ['"'])

/-! ## Layout -/

/-- What comes before an item at a depth: a line break and blanks, or nothing. -/
def lineBreak (indent : Option Nat) (depth : Nat) : String :=
  match indent with
  | some n => "\n" ++ String.ofList (List.replicate (n * depth) ' ')
  | none => ""

/-- What parts two items at a depth. -/
def separator (indent : Option Nat) (depth : Nat) : String :=
  match indent with
  | some _ => "," ++ lineBreak indent depth
  | none => ", "

/-- Written items between brackets; brackets without items stand together. -/
def enclose (indent : Option Nat) (depth : Nat) (left right : String) (items : List String) :
    String :=
  if items.isEmpty then left ++ right
  else
    left ++ lineBreak indent (depth + 1) ++ (separator indent (depth + 1)).intercalate items ++
      lineBreak indent depth ++ right

mutual

/-- The JSON text of a value at a depth. -/
def write (indent : Option Nat) (depth : Nat) : Doc → String
  | null => "null"
  | bool b => if b then "true" else "false"
  | number n => n.text Binary64.documentFormat
  | text s => writeText s
  | list xs => enclose indent depth "[" "]" (writeItems indent depth xs)
  | object ms => enclose indent depth "\x7b" "\x7d" (writeMembers indent depth ms)

/-- The items of a list at a depth. -/
def writeItems (indent : Option Nat) (depth : Nat) : List Doc → List String
  | [] => []
  | d :: ds => write indent (depth + 1) d :: writeItems indent depth ds

/-- The members of an object at a depth. -/
def writeMembers (indent : Option Nat) (depth : Nat) : List (String × Doc) → List String
  | [] => []
  | (k, d) :: ds =>
    (writeText k ++ ": " ++ write indent (depth + 1) d) :: writeMembers indent depth ds

end

/-- The JSON text of a document. -/
def toJson (indent : Option Nat) (d : Doc) : String := d.write indent 0

example : (Doc.object [("a", .list [.int 1, .text "é\n"]), ("b", .list [])]).toJson none
    = "\x7b\"a\": [1, \"\\u00e9\\n\"], \"b\": []\x7d" := by decide +kernel

end AsmLens.Doc
