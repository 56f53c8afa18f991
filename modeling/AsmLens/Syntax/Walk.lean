import AsmLens.Document.Basic

/-!
# Walking over syntax trees

The compiler's syntax tree is a document: an object with a node type is a node, and
the nodes directly inside its members, or in lists there, are its children. A walk
visits the nodes level by level: all nodes of one depth in order, then all their
children in order.

It ends because the children of a node are together smaller than the node.
-/

namespace AsmLens.Syntax

/-- Whether a value is a node. -/
def isNode (d : Doc) : Bool := (d.member? "nodeType").isSome

/-- The nodes directly inside a member. -/
def nodesIn (v : Doc) : List Doc :=
  match v with
  | .object _ => if isNode v then [v] else []
  | .list ds => ds.filter isNode
  | _ => []

/-- The children of a node, in the order in which they are written. -/
def children : Doc → List Doc
  | .object ms => ms.flatMap fun m => nodesIn m.2
  | _ => []

/-- The size of some nodes taken together. -/
noncomputable def totalSize : List Doc → Nat
  | [] => 0
  | d :: ds => sizeOf d + totalSize ds

@[simp] theorem totalSize_nil : totalSize [] = 0 := rfl

@[simp] theorem totalSize_cons (d : Doc) (ds : List Doc) :
    totalSize (d :: ds) = sizeOf d + totalSize ds := rfl

theorem totalSize_append (a b : List Doc) : totalSize (a ++ b) = totalSize a + totalSize b := by
  induction a with
  | nil => simp
  | cons d ds ih => simp [ih, Nat.add_assoc]

theorem totalSize_filter_le (p : Doc → Bool) (ds : List Doc) :
    totalSize (ds.filter p) ≤ totalSize ds := by
  induction ds with
  | nil => simp
  | cons d ds ih =>
    by_cases h : p d
    · simpa [h] using ih
    · simp only [List.filter_cons, h, totalSize_cons]
      exact Nat.le_trans ih (Nat.le_add_left _ _)

theorem totalSize_lt_sizeOf (ds : List Doc) : totalSize ds < sizeOf ds := by
  induction ds with
  | nil => simp
  | cons d ds ih =>
    simp only [totalSize_cons, List.cons.sizeOf_spec]
    omega

theorem totalSize_nodesIn_le (v : Doc) : totalSize (nodesIn v) ≤ sizeOf v := by
  unfold nodesIn
  split
  · split <;> simp
  · rename_i ds
    have h₁ := totalSize_filter_le isNode ds
    have h₂ := totalSize_lt_sizeOf ds
    simp only [Doc.list.sizeOf_spec]
    omega
  · simp

/-- The children of a node are together smaller than the node. -/
theorem totalSize_children_lt (d : Doc) : totalSize (children d) < sizeOf d := by
  cases d with
  | object ms =>
    have h : totalSize (ms.flatMap fun m => nodesIn m.2) < sizeOf ms := by
      induction ms with
      | nil => simp
      | cons m ms ih =>
        rcases m with ⟨k, v⟩
        have hv := totalSize_nodesIn_le v
        simp only [List.flatMap_cons, totalSize_append, List.cons.sizeOf_spec, Prod.mk.sizeOf_spec]
        omega
    simp only [children, Doc.object.sizeOf_spec]
    omega
  | _ =>
    simp only [children, totalSize_nil, Doc.null.sizeOf_spec, Doc.bool.sizeOf_spec,
      Doc.number.sizeOf_spec, Doc.text.sizeOf_spec, Doc.list.sizeOf_spec]
    omega

theorem totalSize_next_lt {d : Doc} {ds : List Doc} :
    totalSize ((d :: ds).flatMap children) < totalSize (d :: ds) := by
  induction ds generalizing d with
  | nil =>
    have := totalSize_children_lt d
    simpa using this
  | cons e es ih =>
    have h₁ := totalSize_children_lt d
    have h₂ := ih (d := e)
    rw [List.flatMap_cons, totalSize_append]
    simp only [totalSize_cons] at *
    omega

/-- Some nodes and everything below them, level by level. -/
def levels : List Doc → List Doc
  | [] => []
  | d :: ds => (d :: ds) ++ levels ((d :: ds).flatMap children)
termination_by ds => totalSize ds
decreasing_by exact totalSize_next_lt

/-- The nodes of a syntax tree, level by level; a value that is no object has none. -/
def walk (tree : Doc) : List Doc :=
  match tree with
  | .object _ => levels [tree]
  | _ => []

end AsmLens.Syntax
