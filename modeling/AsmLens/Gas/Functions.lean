import AsmLens.Hash.Digest
import AsmLens.Ledger
import AsmLens.Syntax.Declaration
import AsmLens.Text.LowerCase

/-!
# Function index

The functions of a contract by the key of their range, with the selectors of those
that can be called from outside. The compiler's own list of selectors counts first;
a selector that is not in it is computed from the signature.
-/

namespace AsmLens

/-- The name and selector of a function. -/
structure FunctionLabel where
  name : Doc
  selector : Option String

/-- A text without any occurrence of `0x`, searched from the left. -/
def dropHexMarks : List Char → List Char
  | '0' :: 'x' :: rest => dropHexMarks rest
  | c :: rest => c :: dropHexMarks rest
  | [] => []

/-- A selector in canonical form: lower case, with one mark in front. -/
def canonicalSelector (s : String) : String :=
  "0x" ++ String.ofList (dropHexMarks (Text.lower s.toList))

/-- The selectors that the compiler lists, by signature. -/
def readSelectors (ids : Doc) : Except Problem (List (String × String)) :=
  match ids with
  | .null => .ok []
  | .object ms =>
    ms.mapM fun m =>
      match m.2 with
      | .text s => .ok (m.1, canonicalSelector s)
      | _ => .error (.expectedSelector m.1)
  | _ => .error .expectedSelectors

/-- The label of a function, by the listed selectors. -/
def labelOf (selectors : List (String × String)) (f : Syntax.Function) : FunctionLabel :=
  { name := f.name
    selector :=
      if f.isExternal then
        some ((selectors.lookup f.signature).getD (selectorOf f.signature))
      else none }

/-- A function's label under the key of its range, whose ends may have too many digits for a key. -/
def labelEntry (selectors : List (String × String)) (f : Syntax.Function) :
    Except Fault (String × FunctionLabel) :=
  if Text.isWritable f.range.first && Text.isWritable f.range.last then
    .ok (f.range.key, labelOf selectors f)
  else
    .error .unwritable

/-- The labels of a tree's functions by the keys of their ranges; a tree that is blank has none. -/
def functionIndex (tree ids : Doc) : Result (Ledger String FunctionLabel) := do
  if tree.isBlank then return ∅
  let selectors ← readSelectors ids
  let functions ← Syntax.functions tree
  let entries ← (functions.mapM (labelEntry selectors) : Except Fault (List (String × FunctionLabel)))
  return Ledger.ofList entries

end AsmLens
