import AsmLens.Text.Printable

/-!
# Quoted text

The form in which messages show a text: between single quotes, or between double
quotes if that saves escaping a single one. Printable characters stand for
themselves; the others become escapes of two, four or eight hexadecimal digits,
the shortest that holds the code point.
-/

namespace AsmLens.Text

/-- The hexadecimal digit of a value below sixteen, in lower case. -/
def hexDigit (d : Nat) : Char :=
  if d < 10 then Char.ofNat (0x30 + d) else Char.ofNat (0x57 + d)

/-- The last `width` hexadecimal digits of a number. -/
def hexDigits : (width : Nat) → Nat → List Char
  | 0, _ => []
  | w + 1, n => hexDigits w (n / 16) ++ [hexDigit (n % 16)]

@[simp] theorem length_hexDigits (w n : Nat) : (hexDigits w n).length = w := by
  induction w generalizing n with
  | zero => rfl
  | succ w ih => simp [hexDigits, ih]

/-- The quote put around a text. -/
def quoteMark (s : List Char) : Char :=
  if s.contains '\'' && !s.contains '"' then '"' else '\''

/-- One character between quotes `q`. -/
def quoteChar (q c : Char) : List Char :=
  if c = q || c = '\\' then ['\\', c]
  else if c = '\n' then ['\\', 'n']
  else if c = '\r' then ['\\', 'r']
  else if c = '\t' then ['\\', 't']
  else if isPrintable c then [c]
  else if c.toNat < 0x100 then '\\' :: 'x' :: hexDigits 2 c.toNat
  else if c.toNat < 0x10000 then '\\' :: 'u' :: hexDigits 4 c.toNat
  else '\\' :: 'U' :: hexDigits 8 c.toNat

/-- The quoted form of a text. -/
def quote (s : List Char) : List Char :=
  quoteMark s :: s.flatMap (quoteChar (quoteMark s)) ++ [quoteMark s]

/-- The quoted form of a string. -/
def quoted (s : String) : String := String.ofList (quote s.toList)

example : quoted "it's" = "\"it's\"" := by decide +kernel
example : quoted "a\n\u200b'\"" = "'a\\n\\u200b\\'\"'" := by decide +kernel

end AsmLens.Text
