import AsmLens.Compilation

/-!
# Where a contract is declared

The source attribute `b:l:f` of a declaration gives the range from `b` to `b + l`; the file `f`
plays no part. Of the definitions with the name of a contract the first counts, level by level.

* `Syntax.DeclaredAt` — a node with a source attribute of three numbers
* `Compilation.declarationRange_eq` — the range of the contract that it declares
-/

namespace AsmLens

open Text

namespace SourceRange

/-- Texts without colons are the parts of the text with colons between them. -/
theorem parts_intercalate {s : String} {ps : List String} (hs : ":".intercalate ps = s)
    (hne : ps ≠ []) (h : ∀ p ∈ ps, ':' ∉ p.toList) : parts s = ps := by
  have hsplit := String.toList_split_intercalate h
  rw [if_neg hne] at hsplit
  rw [← hs]
  exact hsplit

/-- A text denotes a range if it has two parts and both are numbers. -/
theorem ofKey_eq_ok {key : String} {r : SourceRange} :
    ofKey key = .ok r ↔
      ∃ a b, parts key = [a, b] ∧ readInt? a = some r.first ∧ readInt? b = some r.last := by
  constructor
  · intro h
    unfold ofKey at h
    split at h
    · next a b hparts =>
      split at h
      · next first last ha hb =>
        obtain rfl := Except.ok.inj h
        exact ⟨a, b, hparts, ha, hb⟩
      · exact nomatch h
    · exact nomatch h
  · rintro ⟨a, b, hparts, ha, hb⟩
    simp [ofKey, hparts, ha, hb]

/-- An attribute that starts with two numbers is the range of that start and length. -/
theorem ofSrc_eq {s path x y : String} {rest : List String} {b l : Int}
    (hp : parts s = x :: y :: rest) (hx : readInt? x = some b) (hy : readInt? y = some l) :
    ofSrc (.text s) path = .ok ⟨b, b + l⟩ := by
  simp [ofSrc, hp, hx, hy]

end SourceRange

namespace Syntax

/-- That the source attribute of a node is `b:l:f`. -/
def DeclaredAt (node : Doc) (b l f : Int) : Prop :=
  ∃ s x y z, node.get "src" = .text s ∧ SourceRange.parts s = [x, y, z] ∧
    readInt? x = some b ∧ readInt? y = some l ∧ readInt? z = some f

theorem rangeOf_eq {node : Doc} {b l f : Int} (h : DeclaredAt node b l f) :
    rangeOf node = .ok ⟨b, b + l⟩ := by
  obtain ⟨s, x, y, z, hs, hp, hx, hy, -⟩ := h
  have hne : s.isEmpty = false := by
    cases he : s.isEmpty with
    | false => rfl
    | true =>
      have hempty : SourceRange.parts "" = [""] :=
        SourceRange.parts_intercalate rfl (by simp) (by simp)
      rw [String.isEmpty_iff.mp he, hempty] at hp
      exact nomatch hp
  simp [rangeOf, hs, Doc.isBlank, hne, SourceRange.ofSrc_eq hp hx hy]

theorem findContract_eq {tree node : Doc} {name : Option String} {b l f : Int}
    (hnode : (walk tree).find? (definesContract name) = some node) (h : DeclaredAt node b l f) :
    findContract tree name = .ok (some ⟨b, b + l⟩) := by
  rw [findContract, hnode]
  simp only [rangeOf_eq h]
  rfl

end Syntax

/-- The range of a contract is that of the first definition with its name. -/
theorem Compilation.declarationRange_eq {tree node : Doc} {name : String} {b l f : Int}
    (hnode : (Syntax.walk tree).find? (Syntax.definesContract (some name)) = some node)
    (h : Syntax.DeclaredAt node b l f) :
    declarationRange tree name = .ok (some ⟨b, b + l⟩) := by
  rw [declarationRange, Syntax.findContract_eq hnode h]
  rfl

end AsmLens
