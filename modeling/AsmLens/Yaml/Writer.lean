import AsmLens.Yaml.Base64
import AsmLens.Yaml.Style

/-!
# Writing settings files

Values in block style: each entry and item on a line of its own, nested by two
columns, lists inside mappings not indented; collections without parts in flow style.
Tuples are written as lists, and sets as mappings with a tag. Long scalars are broken at blanks once a line has more than eighty columns.

The writer is a pen that knows its column and whether it stands behind a blank or
behind the indentation of a line.
-/

namespace AsmLens.Yaml

/-- What has been written, and where the pen stands. -/
structure Pen where
  written : String
  column : Nat
  /-- Whether the pen stands behind a blank. -/
  afterBlank : Bool
  /-- Whether only indentation and indicators stand before the pen on its line. -/
  atIndent : Bool

namespace Pen

/-- The pen before the first line. -/
def start : Pen := ⟨"", 0, true, true⟩

/-- The widest line that is not broken. -/
def width : Nat := 80

/-- The pen after a text that has no line ends. -/
def put (p : Pen) (s : List Char) : Pen :=
  { p with written := p.written ++ String.ofList s, column := p.column + s.length }

/-- The pen after the end of a line. -/
def lineEnd (p : Pen) (c : Char := '\n') : Pen := ⟨p.written.push c, 0, true, true⟩

/-- The pen at a column of a line of its own. -/
def indent (p : Pen) (column : Nat) : Pen :=
  let p :=
    if !p.atIndent || column < p.column || p.column = column && !p.afterBlank then p.lineEnd else p
  if p.column < column then
    { p.put (List.replicate (column - p.column) ' ') with afterBlank := true }
  else p

/-- The pen after an indicator; `apart` asks for a blank in front of it. -/
def indicator (p : Pen) (mark : List Char) (apart : Bool) (keepsIndent : Bool := false) : Pen :=
  let p' := p.put (if p.afterBlank || !apart then mark else ' ' :: mark)
  { p' with afterBlank := false, atIndent := p.atIndent && keepsIndent }

/-! ## Scalars -/

/-- The words of a text and the runs of blanks between them. -/
def words : List Char → List (List Char)
  | [] => []
  | c :: cs =>
    match words cs with
    | (d :: w) :: rest =>
      if (c = ' ') = (d = ' ') && !isLineEnd c && !isLineEnd d || isLineEnd c && isLineEnd d then
        (c :: d :: w) :: rest
      else [c] :: (d :: w) :: rest
    | rest => [c] :: rest

/-- The pen after the words of a plain scalar; a single blank may become the end of a line. -/
def plainWords (split : Bool) (column : Nat) (p : Pen) : List (List Char) → Pen
  | [] => p
  | w :: ws =>
    if w = [' '] && split && width < p.column then
      plainWords split column { p.indent column with afterBlank := false, atIndent := false } ws
    else plainWords split column (p.put w) ws

/-- The pen after a plain scalar. -/
def plain (p : Pen) (split : Bool) (column : Nat) (s : List Char) : Pen :=
  let p := if p.afterBlank then p else p.put [' ']
  plainWords split column { p with afterBlank := false, atIndent := false } (words s)

/-- The pen after some line ends inside of single quotes. -/
def lineEnds (p : Pen) (ends : List Char) (column : Nat) : Pen :=
  let p := if ends.head? = some '\n' then p.lineEnd else p
  (ends.foldl (fun p c => p.lineEnd c) p).indent column

/-- The pen after the words between single quotes; `first` holds before the first word. -/
def singleWords (split : Bool) (column : Nat) (first : Bool) (p : Pen) : List (List Char) → Pen
  | [] => p
  | w :: ws =>
    let p :=
      if w.any isLineEnd then p.lineEnds w column
      else if w = [' '] && split && width < p.column && !first && !ws.isEmpty then p.indent column
      else p.put (w.flatMap fun c => if c = '\'' then ['\'', '\''] else [c])
    singleWords split column false p ws

/-- The pen after a scalar between single quotes. -/
def single (p : Pen) (split : Bool) (column : Nat) (s : List Char) : Pen :=
  (singleWords split column true (p.indicator ['\''] true) (words s)).indicator ['\''] false

/-- A hexadecimal digit in upper case. -/
def upperHex (d : Nat) : Char := if d < 10 then Char.ofNat (0x30 + d) else Char.ofNat (0x37 + d)

/-- The last hexadecimal digits of a number in upper case. -/
def upperHexDigits : (places : Nat) → Nat → List Char
  | 0, _ => []
  | w + 1, n => upperHexDigits w (n / 16) ++ [upperHex (n % 16)]

/-- The letters that stand for characters after a backslash. -/
def shortEscapes : List (Nat × Char) :=
  [(0x00, '0'), (0x07, 'a'), (0x08, 'b'), (0x09, 't'), (0x0a, 'n'), (0x0b, 'v'), (0x0c, 'f'),
    (0x0d, 'r'), (0x1b, 'e'), (0x22, '"'), (0x5c, '\\'), (0x85, 'N'), (0xa0, '_'), (0x2028, 'L'),
    (0x2029, 'P')]

/-- A character as an escape; none if it stands for itself between double quotes. -/
def escape? (c : Char) : Option (List Char) :=
  let n := c.toNat
  if 0x20 ≤ n && n ≤ 0x7e && c ≠ '"' && c ≠ '\\' then none
  else
    match shortEscapes.lookup n with
    | some l => some ['\\', l]
    | none =>
      some ('\\' ::
        if n < 0x100 then 'x' :: upperHexDigits 2 n
        else if n < 0x10000 then 'u' :: upperHexDigits 4 n
        else 'U' :: upperHexDigits 8 n)

/-- The pen after a line of a double-quoted scalar was broken before some characters. -/
def breakDouble (p : Pen) (column : Nat) (next : List Char) : Pen :=
  let p := { (p.put ['\\']).indent column with afterBlank := false, atIndent := false }
  if next.head? = some ' ' then p.put ['\\'] else p

/--
The pen after characters between double quotes. `pending` are characters that were passed but
are not written yet, and `first` holds before the first character. A line is broken before a
blank and behind an escape.
-/
def doubleChars (split : Bool) (column : Nat) (first : Bool) (p : Pen) (pending : List Char) :
    List Char → Pen
  | [] => p.put pending
  | c :: cs =>
    let wide (p : Pen) (pending : List Char) : Bool :=
      !first && !cs.isEmpty && split && width < p.column + pending.length
    match escape? c with
    | some e =>
      let p := (p.put pending).put e
      let p := if !first && cs.length ≥ 1 && split && width < p.column - 1 then
        p.breakDouble column cs else p
      doubleChars split column false p [] cs
    | none =>
      if (c = ' ' || pending.isEmpty) && wide p pending then
        doubleChars split column false ((p.put pending).breakDouble column (c :: cs)) [c] cs
      else doubleChars split column false p (pending ++ [c]) cs

/-- The pen after a scalar between double quotes. -/
def double (p : Pen) (split : Bool) (column : Nat) (s : List Char) : Pen :=
  (doubleChars split column true (p.indicator ['"'] true) [] s).indicator ['"'] false

/-- The pen after a text in its style. -/
def text (p : Pen) (key : Bool) (column : Nat) (s : String) : Pen :=
  match Style.ofText key s with
  | .plain => p.plain (!key) column s.toList
  | .single => p.single (!key) column s.toList
  | .double => p.double (!key) column s.toList

/-! ## Values -/

/-- The text of a floating-point number: an exponent needs a point before it. -/
def floatText (x : Binary64) : String :=
  match x with
  | .nan => ".nan"
  | .infinity negative => if negative then "-.inf" else ".inf"
  | x =>
    let s := x.shortestText Binary64.plainFormat
    if s.contains '.' then s else String.ofList (s.toList.flatMap fun c => if c = 'e' then ['.', '0', 'e'] else [c])

/-- The text of a value that is no text and no collection. -/
def wordOf : Value → String
  | .bool b => if b then "true" else "false"
  | .number (.int n) => Text.intText n
  | .number (.float x) => floatText x
  | .date y m d => dateText y m d
  | .moment m => m.text
  | _ => "null"

/-- The length of the tag that a value has without being written. -/
def tagLength : Value → Nat
  | .null | .bool _ => 6
  | .number (.float _) => 7
  | .date _ _ _ | .moment _ => 11
  | _ => 5

/-- Whether a value can be a key without a mark: short, on one line, and not empty. -/
def isSimpleKey (v : Value) : Bool :=
  match v with
  | .text s => !s.isEmpty && s.length + tagLength v < 128 && !isMultiline s.toList
  | .list xs | .tuple xs => xs.isEmpty
  | .mapping es => es.isEmpty
  | .bytes _ | .set _ => false
  | v => (wordOf v).length + tagLength v < 128

/-- The pen after a tag. -/
def tag (p : Pen) (name : String) : Pen := p.indicator ('!' :: '!' :: name.toList) true

/-- The pen after the lines of a text that keeps them. -/
def literal (p : Pen) (column : Nat) (lines : List (List Char)) : Pen :=
  lines.foldl (fun p l => ((p.indent column).put l).lineEnd) (p.indicator ['|'] true).lineEnd

/-- The pen after bytes. -/
def bytes (p : Pen) (column : Nat) (b : List UInt8) : Pen :=
  let p := p.tag "binary"
  if b.isEmpty then p.single false column [] else p.literal column (base64Lines b)

/-- The pen after the braces of a collection without parts. -/
def braces (p : Pen) : Pen := (p.indicator ['\x7b'] true).indicator ['\x7d'] false

/-- The pen after a value that is no collection with parts. -/
def scalar (p : Pen) (key : Bool) (column : Nat) : Value → Pen
  | .text s => p.text key column s
  | .bytes b => p.bytes column b
  | .list _ | .tuple _ => (p.indicator ['['] true).indicator [']'] false
  | .set _ => (p.tag "set").braces
  | .mapping _ => p.braces
  | v => p.plain (!key) column (wordOf v).toList

/-- The column of a list inside of the block at a column. -/
def listColumn (p : Pen) (column : Option Nat) (inMapping : Bool) : Nat :=
  match column with
  | none => 0
  | some c => if inMapping && !p.atIndent then c else c + 2

/-- The column of a mapping inside of the block at a column. -/
def mappingColumn (column : Option Nat) : Nat := (column.map (· + 2)).getD 0

/-- The pen after a key at a column; `long` writes one that needs a mark. -/
def key (p : Pen) (column : Nat) (k : Value) (long : Pen → Pen) : Pen :=
  let p := p.indent column
  if isSimpleKey k then (p.scalar true (column + 2) k).indicator [':'] false
  else ((long (p.indicator ['?'] true true)).indent column).indicator [':'] true true

mutual

/-- The pen after a value; `column` is that of the block around it, if there is one. -/
def value (p : Pen) (column : Option Nat) (inMapping : Bool) : Value → Pen
  | .list (x :: xs) => items p (p.listColumn column inMapping) (x :: xs)
  | .tuple (x :: xs) => items p (p.listColumn column inMapping) (x :: xs)
  | .set (x :: xs) => keys (p.tag "set") (mappingColumn column) (x :: xs)
  | .mapping (e :: es) => entries p (mappingColumn column) (e :: es)
  | v => p.scalar false ((column.map (· + 2)).getD 2) v

/-- The pen after the items of a list at a column. -/
def items (p : Pen) (column : Nat) : List Value → Pen
  | [] => p
  | v :: vs =>
    items (value ((p.indent column).indicator ['-'] true true) (some column) false v) column vs

/-- The pen after the elements of a set at a column. -/
def keys (p : Pen) (column : Nat) : List Value → Pen
  | [] => p
  | k :: ks =>
    let p := p.key column k fun p => value p (some column) true k
    keys (p.scalar false (column + 2) .null) column ks

/-- The pen after the entries of a mapping at a column. -/
def entries (p : Pen) (column : Nat) : List (Value × Value) → Pen
  | [] => p
  | (k, v) :: es =>
    let p := p.key column k fun p => value p (some column) true k
    entries (value p (some column) true v) column es

end

end Pen

/-- The text of a settings file with a value. -/
def write (v : Value) : String := ((Pen.start.value none false v).indent 0).written

example : write (.mapping [(.text "a", .mapping [(.text "b", .list [.int 1, .text "x: y"])]),
    (.text "c", .set [.text ""])]) = "a:\n  b:\n  - 1\n  - 'x: y'\nc: !!set\n  ? ''\n  : null\n" := by
  decide +kernel

end AsmLens.Yaml
