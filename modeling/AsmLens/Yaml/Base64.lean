import AsmLens.Text.Integer

/-!
# Bytes as text

Four characters stand for three bytes. Where bytes are read, characters that stand for nothing are
passed over, and the text ends with the padding of the last group.
-/

namespace AsmLens.Yaml

/-- The characters that stand for six bits, in order. -/
def base64Alphabet : List Char :=
  "ABCDEFGHIJKLMNOPQRSTUVWXYZabcdefghijklmnopqrstuvwxyz0123456789+/".toList

/-- The bits that characters stand for, the last first; none if the last group is not complete. -/
def base64Bits (bits : List Nat) (pads : Nat) : List Char → Option (List Nat)
  | [] => if bits.length % 4 = 0 then some bits else none
  | c :: cs =>
    if c = '=' then
      if bits.length % 4 < 2 then base64Bits bits pads cs
      else if 4 ≤ bits.length % 4 + (pads + 1) then some bits
      else base64Bits bits (pads + 1) cs
    else
      match base64Alphabet.idxOf? c with
      | some b => base64Bits (b :: bits) 0 cs
      | none => base64Bits bits pads cs

/-- The bytes that groups of six bits make. -/
def bytesOfBits : List Nat → List UInt8
  | a :: b :: c :: d :: rest =>
    .ofNat (a * 4 + b / 16) :: .ofNat (b % 16 * 16 + c / 4) :: .ofNat (c % 4 * 64 + d) :: bytesOfBits rest
  | [a, b, c] => [.ofNat (a * 4 + b / 16), .ofNat (b % 16 * 16 + c / 4)]
  | [a, b] => [.ofNat (a * 4 + b / 16)]
  | _ => []

/-- The bytes that a text stands for, which has to be of ASCII characters. -/
def bytes? (s : List Char) : Option (List UInt8) :=
  if s.all fun c => c.toNat < 0x80 then
    (base64Bits [] 0 s).map fun bits => bytesOfBits bits.reverse
  else none

/-- The character that stands for six bits. -/
def base64Char (b : Nat) : Char := base64Alphabet.getD b '='

/-- The characters that stand for bytes. -/
def base64Chars : List UInt8 → List Char
  | a :: b :: c :: rest =>
    let n := (a.toNat * 256 + b.toNat) * 256 + c.toNat
    base64Char (n / 262144) :: base64Char (n / 4096 % 64) :: base64Char (n / 64 % 64) ::
      base64Char (n % 64) :: base64Chars rest
  | [a, b] =>
    let n := a.toNat * 256 + b.toNat
    [base64Char (n / 1024), base64Char (n / 16 % 64), base64Char (n % 16 * 4), '=']
  | [a] => [base64Char (a.toNat / 4), base64Char (a.toNat % 4 * 16), '=', '=']
  | [] => []

/-- A text in lines of some width. -/
def linesOfWidth (width : Nat) (s : List Char) : List (List Char) :=
  (List.range ((s.length + width - 1) / width)).map fun i => (s.drop (i * width)).take width

/-- The lines in which bytes are written. -/
def base64Lines (b : List UInt8) : List (List Char) := linesOfWidth 76 (base64Chars b)

example : bytes? "YWJj\nZA==".toList = some [97, 98, 99, 100] ∧ bytes? "YWJ".toList = none ∧
    base64Lines [97, 98, 99, 100] = ["YWJjZA==".toList] := by decide +kernel

end AsmLens.Yaml
