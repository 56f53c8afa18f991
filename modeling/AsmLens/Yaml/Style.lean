import AsmLens.Yaml.Token

/-!
# Styles of scalars

How a text is written in a settings file: plain if it can stand without quotes and
would be read back as itself, else between single quotes if nothing in it has to be
escaped, else between double quotes.
-/

namespace AsmLens.Yaml

/-- How a scalar is written. -/
inductive Style
  | plain | single | double
deriving DecidableEq, Repr

/-- Characters that may not begin a plain scalar. -/
def leadingIndicators : List Char := "#,[]\x7b\x7d&*!|>'\"%@`".toList

/-- Whether the first character of a text forbids the plain style; `next` is what follows it. -/
def forbidsAtStart (c : Char) (next : List Char) : Bool :=
  leadingIndicators.contains c || (c = '?' || c = ':' || c = '-') && atGap next

/-- Whether some character after the first forbids the plain style; `prev` is the one before. -/
def forbidsInside (prev : Char) : List Char → Bool
  | [] => false
  | c :: cs =>
    c = ':' && atGap cs || c = '#' && (isGap prev || isBreak prev) || forbidsInside c cs

/-- Whether a text holds what would be read as the structure of the file. -/
def hasIndicator : List Char → Bool
  | [] => false
  | c :: cs =>
    "---".toList.isPrefixOf (c :: cs) || "...".toList.isPrefixOf (c :: cs) ||
      forbidsAtStart c cs || forbidsInside c cs

/-- Whether a character ends a line of a scalar that is written; a carriage return is escaped. -/
def isLineEnd (c : Char) : Bool := c ≠ '\r' && isBreak c

/-- Whether a character has to be escaped. -/
def isSpecial (c : Char) : Bool := !(c = '\n' || 0x20 ≤ c.toNat && c.toNat ≤ 0x7e)

/-- Whether one kind of character is followed at once by another somewhere in a text. -/
def hasPair (p q : Char → Bool) : List Char → Bool
  | a :: b :: rest => p a && q b || hasPair p q (b :: rest)
  | _ => false

/-- Whether a text has blanks or line ends at an end. -/
def hasLooseEnd (s : List Char) : Bool :=
  let loose (c : Char) : Bool := c = ' ' || isLineEnd c
  s.head?.any loose || s.getLast?.any loose

/-- Whether a text can stand without quotes. -/
def allowsPlain (s : List Char) : Bool :=
  !(s.isEmpty || hasLooseEnd s || s.any isSpecial || s.any isLineEnd || hasIndicator s)

/-- Whether a text can stand between single quotes. -/
def allowsSingle (s : List Char) : Bool :=
  !(s.any isSpecial || hasPair isLineEnd (· = ' ') s || hasPair (· = ' ') isLineEnd s)

/-- Whether a text has several lines. -/
def isMultiline (s : List Char) : Bool := s.any isLineEnd

/-- The style of a text; a key has to be on one line. -/
def Style.ofText (key : Bool) (s : String) : Style :=
  let cs := s.toList
  if allowsPlain cs && isPlainText s then .plain
  else if allowsSingle cs && !(key && isMultiline cs) then .single
  else .double

example : Style.ofText false "v0.8.13+commit.abaa5c0e" = .plain ∧ Style.ofText false "a: b" = .single ∧
    Style.ofText false "yes" = .single ∧ Style.ofText false "é" = .double := by decide +kernel

end AsmLens.Yaml
