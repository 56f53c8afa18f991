import AsmLens.Hash.Keccak
import AsmLens.Text.Quoted

/-!
# Digests

Hashes as hexadecimal text: of a whole source, and of a function signature.
-/

namespace AsmLens

/-- Bytes as hexadecimal text. -/
def hexText (bs : List UInt8) : String :=
  "0x" ++ String.ofList (bs.flatMap fun b => Text.hexDigits 2 b.toNat)

/-- The digest of a source text, by which an edit of it is noticed. -/
def sourceDigest (source : String) : String := hexText (Keccak.hash source.toUTF8.toList)

/-- The selector of a function signature; blanks in the signature do not count. -/
def selectorOf (signature : String) : String :=
  let text := String.ofList (signature.toList.filter (· ≠ ' '))
  hexText ((Keccak.hash text.toUTF8.toList).take 4)

end AsmLens
