import AsmLens.Syntax.Declaration

/-!
# The order of a walk

A node of a tree is told from all others by the steps that lead to it from the root. A walk visits the
node of every such path once: nodes of fewer steps first, among these the children of earlier nodes,
and the children of one node in the order in which they are written.

The walk goes level by level. So does a loop that takes nodes from the front of a queue and puts their
children at its end, though its queue holds nodes of two levels: every path that waits there comes in
the order of levels after those that were visited, and its parent is one of these.

* `Reached`, `Precedes` — the paths to the nodes of a tree, and the order of levels
* `visit` — the loop over a queue, which passes over what it has seen
* `Waiting` — what holds of the queue and of what was seen
* `visit_append` — the loop goes level by level
* `walk_in_level_order` — the main result
-/

namespace AsmLens.Syntax

/-! ## Paths -/

/-- A step from a node to a child: the place of a member and, where the child is in a list there, its
place in the list, which is 0 where the child is the member itself. -/
structure Step where
  member : Nat
  item : Nat
deriving DecidableEq

/-- That a step leads to what is written before the end of another step. -/
def Step.Before (s t : Step) : Prop := s.member < t.member ∨ s.member = t.member ∧ s.item < t.item

/-- The steps from a root to a node. -/
abbrev Path := List Step

/-- That a step leads from a node to a child: a node that is a member, or that is in a list that is
one. -/
inductive ChildAt : Doc → Step → Doc → Prop
  | member {ms : List (String × Doc)} {i name child} (member : ms[i]? = some (name, child))
    (object : ∃ ns, child = .object ns) (node : isNode child) : ChildAt (.object ms) ⟨i, 0⟩ child
  | item {ms : List (String × Doc)} {i name} {ds : List Doc} {j child}
    (member : ms[i]? = some (name, .list ds)) (item : ds[j]? = some child) (node : isNode child) :
    ChildAt (.object ms) ⟨i, j⟩ child

/-- That a path leads from the root of a tree to a node. -/
inductive Reached (tree : Doc) : Path → Doc → Prop
  | root : Reached tree [] tree
  | child {path node s child} (parent : Reached tree path node) (step : ChildAt node s child) :
    Reached tree (path ++ [s]) child

/-- The order of levels: nodes of fewer steps come first, on one level the children of earlier nodes,
and the children of one node by their steps. -/
inductive Precedes : Path → Path → Prop
  | depth {p q} (shorter : p.length < q.length) : Precedes p q
  | parent {p q s t} (level : p.length = q.length) (parents : Precedes p q) :
    Precedes (p ++ [s]) (q ++ [t])
  | step {p s t} (before : s.Before t) : Precedes (p ++ [s]) (p ++ [t])

namespace Precedes

variable {p q : Path}

theorem length_le (h : Precedes p q) : p.length ≤ q.length := by
  cases h with
  | depth shorter => exact Nat.le_of_lt shorter
  | parent level => simp [level]
  | step => simp

theorem ne (h : Precedes p q) : p ≠ q := by
  induction h with
  | depth shorter =>
    rintro rfl
    exact Nat.lt_irrefl _ shorter
  | parent level parents ih =>
    intro heq
    exact ih (List.append_inj_left' heq rfl)
  | step before =>
    intro heq
    obtain rfl : _ = _ := List.singleton_inj.mp (List.append_cancel_left heq)
    unfold Step.Before at before
    omega

end Precedes

/-! ## Children and their steps -/

/-- The nodes directly inside a member, each with its place there. -/
def placedIn (v : Doc) : List (Doc × Nat) :=
  match v with
  | .object _ => if isNode v then [(v, 0)] else []
  | .list ds => ds.zipIdx.filter fun d => isNode d.1
  | _ => []

/-- The children of a node, each with the step to it. -/
def steps : Doc → List (Step × Doc)
  | .object ms => ms.zipIdx.flatMap fun m => (placedIn m.1.2).map fun d => (⟨m.2, d.2⟩, d.1)
  | _ => []

theorem map_fst_placedIn (v : Doc) : (placedIn v).map Prod.fst = nodesIn v := by
  cases v with
  | object ms =>
    by_cases hnode : isNode (.object ms)
    · simp [placedIn, nodesIn, hnode]
    · simp [placedIn, nodesIn, hnode]
  | list ds =>
    show (ds.zipIdx.filter (isNode ∘ Prod.fst)).map Prod.fst = ds.filter isNode
    rw [← List.filter_map, List.zipIdx_map_fst]
  | _ => rfl

theorem map_snd_steps (d : Doc) : (steps d).map Prod.snd = children d := by
  cases d with
  | object ms =>
    have hmember : ∀ m : (String × Doc) × Nat,
        ((placedIn m.1.2).map fun d => ((⟨m.2, d.2⟩ : Step), d.1)).map Prod.snd = nodesIn m.1.2 := by
      intro m
      rw [← map_fst_placedIn, List.map_map]
      rfl
    have hplaces : ms.flatMap (fun m => nodesIn m.2) =
        (ms.zipIdx.map Prod.fst).flatMap fun m => nodesIn m.2 := by
      rw [List.zipIdx_map_fst]
    simp only [steps, children, List.map_flatMap, hmember, hplaces, List.flatMap_map]
  | _ => rfl

theorem mem_placedIn {v d : Doc} {j : Nat} :
    (d, j) ∈ placedIn v ↔
      isNode d ∧ ((∃ ms, v = .object ms) ∧ d = v ∧ j = 0 ∨ ∃ ds, v = .list ds ∧ ds[j]? = some d) := by
  unfold placedIn
  split
  · next ms =>
    by_cases hnode : isNode (.object ms)
    · simp only [hnode, if_true, List.mem_singleton, Prod.mk.injEq]
      grind
    · simp only [hnode]
      grind
  · next ds =>
    simp only [List.mem_filter, List.mem_zipIdx_iff_getElem?]
    grind
  · next hobject hlist =>
    grind

/-- The steps of a node are those to its children. -/
theorem mem_steps {d child : Doc} {s : Step} : (s, child) ∈ steps d ↔ ChildAt d s child := by
  constructor
  · intro h
    cases d with
    | object ms =>
      obtain ⟨⟨⟨name, v⟩, i⟩, hm, hplaced⟩ := List.mem_flatMap.mp h
      obtain ⟨⟨d, j⟩, hd, heq⟩ := List.mem_map.mp hplaced
      obtain ⟨rfl, rfl⟩ := Prod.mk.inj heq
      have hm : ms[i]? = some (name, v) := List.mem_zipIdx_iff_getElem?.mp hm
      obtain ⟨hnode, ⟨hobject, hd, hj⟩ | ⟨ds, hds, hitem⟩⟩ := mem_placedIn.mp hd
      · subst hd hj
        exact .member hm hobject hnode
      · subst hds
        exact .item hm hitem hnode
    | _ => exact absurd h List.not_mem_nil
  · intro h
    cases h with
    | @member ms i name _ hm hobject hnode =>
      refine List.mem_flatMap.mpr ⟨((name, child), i), List.mem_zipIdx_iff_getElem?.mpr hm, ?_⟩
      exact List.mem_map.mpr ⟨(child, 0), mem_placedIn.mpr ⟨hnode, .inl ⟨hobject, rfl, rfl⟩⟩, rfl⟩
    | @item ms i name ds j _ hm hitem hnode =>
      refine List.mem_flatMap.mpr ⟨((name, .list ds), i), List.mem_zipIdx_iff_getElem?.mpr hm, ?_⟩
      exact List.mem_map.mpr ⟨(child, j), mem_placedIn.mpr ⟨hnode, .inr ⟨ds, rfl, hitem⟩⟩, rfl⟩

theorem pairwise_snd_zipIdx {α : Type} (xs : List α) : xs.zipIdx.Pairwise fun a b => a.2 < b.2 := by
  have h : (xs.zipIdx.map Prod.snd).Pairwise (· < ·) := by
    rw [List.zipIdx_map_snd]
    exact List.pairwise_lt_range'
  exact List.pairwise_map.mp h

/-- The children of a node are in the order of their steps. -/
theorem pairwise_steps (d : Doc) : (steps d).Pairwise fun a b => a.1.Before b.1 := by
  cases d with
  | object ms =>
    refine List.pairwise_flatMap.mpr ⟨fun m _ => List.pairwise_map.mpr ?_, ?_⟩
    · have hitems : (placedIn m.1.2).Pairwise fun a b => a.2 < b.2 := by
        unfold placedIn
        split
        · split <;> simp
        · exact (pairwise_snd_zipIdx _).filter _
        · exact .nil
      exact hitems.imp fun h => .inr ⟨rfl, h⟩
    · refine (pairwise_snd_zipIdx ms).imp fun {m n} hlt a ha b hb => .inl ?_
      obtain ⟨c, -, rfl⟩ := List.mem_map.mp ha
      obtain ⟨e, -, rfl⟩ := List.mem_map.mp hb
      exact hlt
  | _ => exact .nil

/-! ## The loop -/

/-- The children of a node on a path, each with its path. -/
def below (v : Path × Doc) : List (Path × Doc) := (steps v.2).map fun c => (v.1 ++ [c.1], c.2)

theorem map_snd_below (v : Path × Doc) : (below v).map Prod.snd = children v.2 := by
  rw [← map_snd_steps, below, List.map_map]
  rfl

theorem map_snd_flatMap_below (vs : List (Path × Doc)) :
    (vs.flatMap below).map Prod.snd = (vs.map Prod.snd).flatMap children := by
  simp only [List.map_flatMap, List.flatMap_map, map_snd_below]

/-- One node after another from the front of a queue, at whose end its children are put. What was seen
is passed over. -/
def visit (seen : List Path) : List (Path × Doc) → List (Path × Doc)
  | [] => []
  | v :: queue =>
    if v.1 ∈ seen then visit seen queue else v :: visit (v.1 :: seen) (queue ++ below v)
termination_by queue => totalSize (queue.map Prod.snd)
decreasing_by
  · have := totalSize_children_lt v.2
    simp
    omega
  · have := totalSize_children_lt v.2
    simp only [List.map_append, totalSize_append, map_snd_below, List.map_cons, totalSize_cons]
    omega

/-- The visits of the loop to a tree, of which nothing was seen. -/
def visits (tree : Doc) : List (Path × Doc) := visit [] [([], tree)]

/-- What holds of the paths that were seen, the last of them first, and of the queue: together they are
in the order of levels, and what waits is the root or a child of what was seen. -/
structure Waiting (seen : List Path) (queue : List (Path × Doc)) : Prop where
  ordered : (seen.reverse ++ queue.map Prod.fst).Pairwise Precedes
  parent : ∀ v ∈ queue, v.1 = [] ∨ ∃ p ∈ seen, ∃ s, v.1 = p ++ [s]

namespace Waiting

variable {seen : List Path} {v w : Path × Doc} {queue xs ys : List (Path × Doc)}

theorem start (tree : Doc) : Waiting [] [([], tree)] where
  ordered := List.pairwise_singleton _ _
  parent := by simp

theorem precedes_of_seen (h : Waiting seen queue) {p : Path} (hp : p ∈ seen) (hv : v ∈ queue) :
    Precedes p v.1 :=
  (List.pairwise_append.mp h.ordered).2.2 p (List.mem_reverse.mpr hp) v.1 (List.mem_map_of_mem hv)

theorem not_seen (h : Waiting seen (v :: queue)) : v.1 ∉ seen :=
  fun hv => (h.precedes_of_seen hv List.mem_cons_self).ne rfl

/-- What waits behind a node comes before the children of the node. -/
theorem precedes_below (h : Waiting seen (v :: queue)) (hw : w ∈ queue) (s : Step) :
    Precedes w.1 (v.1 ++ [s]) := by
  rcases h.parent w (List.mem_cons_of_mem v hw) with hroot | ⟨p, hp, t, hpath⟩
  · exact .depth (by simp [hroot])
  · -- the parent was seen before the node, so it is on its level or above
    have hparent : Precedes p v.1 := h.precedes_of_seen hp List.mem_cons_self
    rw [hpath]
    rcases Nat.lt_or_eq_of_le hparent.length_le with hlt | heq
    · exact .depth (by simpa using hlt)
    · exact .parent heq hparent

/-- **One round of the loop keeps the queue in order.** -/
theorem next (h : Waiting seen (v :: queue)) : Waiting (v.1 :: seen) (queue ++ below v) := by
  have hbelow : ((below v).map Prod.fst).Pairwise Precedes := by
    rw [below, List.map_map]
    exact List.pairwise_map.mpr ((pairwise_steps v.2).imp fun hlt => .step hlt)
  constructor
  · have hsplit : (v.1 :: seen).reverse ++ (queue ++ below v).map Prod.fst =
        (seen.reverse ++ (v :: queue).map Prod.fst) ++ (below v).map Prod.fst := by simp
    rw [hsplit]
    refine List.pairwise_append.mpr ⟨h.ordered, hbelow, fun p hp q hq => ?_⟩
    obtain ⟨c, hc, rfl⟩ := List.mem_map.mp hq
    obtain ⟨⟨s, child⟩, -, rfl⟩ := List.mem_map.mp hc
    -- of what comes before the children, all that was seen is above them
    rcases List.mem_append.mp hp with hp | hp
    · have hle := (h.precedes_of_seen (List.mem_reverse.mp hp) List.mem_cons_self).length_le
      exact .depth (by simpa using Nat.lt_succ_of_le hle)
    · rcases List.mem_cons.mp hp with rfl | hp
      · exact .depth (by simp)
      · obtain ⟨w, hw, rfl⟩ := List.mem_map.mp hp
        exact h.precedes_below hw s
  · intro w hw
    rcases List.mem_append.mp hw with hw | hw
    · rcases h.parent w (List.mem_cons_of_mem v hw) with hroot | ⟨p, hp, hpath⟩
      · exact .inl hroot
      · exact .inr ⟨p, List.mem_cons_of_mem _ hp, hpath⟩
    · obtain ⟨⟨s, child⟩, -, rfl⟩ := List.mem_map.mp hw
      exact .inr ⟨v.1, List.mem_cons_self, s, rfl⟩

/-- Nothing is passed over. -/
theorem visit_cons (h : Waiting seen (v :: queue)) :
    visit seen (v :: queue) = v :: visit (v.1 :: seen) (queue ++ below v) := by
  rw [visit, if_neg h.not_seen]

/-! ## Levels -/

/-- After the first nodes of a queue, their children wait behind the others. -/
theorem append (h : Waiting seen (xs ++ ys)) :
    Waiting ((xs.map Prod.fst).reverse ++ seen) (ys ++ xs.flatMap below) := by
  induction xs generalizing seen ys with
  | nil => simpa using h
  | cons x xs ih =>
    have hnext : Waiting (x.1 :: seen) (xs ++ (ys ++ below x)) := by
      rw [← List.append_assoc]
      exact h.next
    simpa using ih hnext

/-- **The loop goes level by level**: it visits the first nodes of a queue before it comes to what was
put behind the others. -/
theorem visit_append (h : Waiting seen (xs ++ ys)) :
    visit seen (xs ++ ys) =
      xs ++ visit ((xs.map Prod.fst).reverse ++ seen) (ys ++ xs.flatMap below) := by
  induction xs generalizing seen ys with
  | nil => simp
  | cons x xs ih =>
    have hnext : Waiting (x.1 :: seen) (xs ++ (ys ++ below x)) := by
      rw [← List.append_assoc]
      exact h.next
    rw [List.cons_append] at h ⊢
    rw [h.visit_cons, List.append_assoc, ih hnext]
    simp

/-- The nodes that the loop visits are those of the levels. -/
theorem map_snd_visit (h : Waiting seen queue) :
    (visit seen queue).map Prod.snd = levels (queue.map Prod.snd) := by
  generalize hds : queue.map Prod.snd = ds
  induction ds using levels.induct generalizing seen queue with
  | case1 =>
    rw [List.map_eq_nil_iff.mp hds, visit, levels]
    rfl
  | case2 d ds ih =>
    -- one whole level waits: once it is visited, the next one does
    have hlevel : Waiting seen (queue ++ []) := by rwa [List.append_nil]
    have hvisit := hlevel.visit_append
    have hnext := hlevel.append
    rw [List.append_nil] at hvisit
    rw [List.nil_append] at hvisit hnext
    rw [hvisit, List.map_append, hds, levels]
    refine congrArg _ (ih hnext ?_)
    rw [map_snd_flatMap_below, hds]

/-! ## What is visited -/

/-- The visits are in the order of levels, behind what was seen. -/
theorem pairwise_visit (h : Waiting seen queue) :
    (seen.reverse ++ (visit seen queue).map Prod.fst).Pairwise Precedes := by
  fun_induction visit seen queue with
  | case1 => exact h.ordered
  | case2 seen v queue hseen => exact absurd hseen h.not_seen
  | case3 seen v queue hseen ih => simpa using ih h.next

/-- Every node of the queue is visited, and with a node its children are. -/
theorem closed (h : Waiting seen queue) :
    queue ⊆ visit seen queue ∧ ∀ v ∈ visit seen queue, below v ⊆ visit seen queue := by
  fun_induction visit seen queue with
  | case1 => simp
  | case2 seen v queue hseen => exact absurd hseen h.not_seen
  | case3 seen v queue hseen ih =>
    obtain ⟨hqueue, hclosed⟩ := ih h.next
    obtain ⟨hwaiting, hbelow⟩ := List.append_subset.mp hqueue
    refine ⟨List.cons_subset_cons v hwaiting, fun w hw => ?_⟩
    rcases List.mem_cons.mp hw with rfl | hw
    · exact List.subset_cons_of_subset _ hbelow
    · exact List.subset_cons_of_subset _ (hclosed w hw)

end Waiting

/-- Whatever is visited is reached, if all that waits is. -/
theorem reached_of_visit {tree : Doc} {seen : List Path} {queue : List (Path × Doc)}
    (h : ∀ v ∈ queue, Reached tree v.1 v.2) : ∀ v ∈ visit seen queue, Reached tree v.1 v.2 := by
  fun_induction visit seen queue with
  | case1 => exact h
  | case2 seen v queue hseen ih => exact ih fun w hw => h w (List.mem_cons_of_mem v hw)
  | case3 seen v queue hseen ih =>
    obtain ⟨hv, hqueue⟩ := List.forall_mem_cons.mp h
    refine List.forall_mem_cons.mpr ⟨hv, ih fun w hw => ?_⟩
    rcases List.mem_append.mp hw with hw | hw
    · exact hqueue w hw
    · obtain ⟨⟨s, child⟩, hs, rfl⟩ := List.mem_map.mp hw
      exact .child hv (mem_steps.mp hs)

/-- **The visits to a tree are those to the nodes that paths lead to.** -/
theorem mem_visits {tree node : Doc} {path : Path} :
    (path, node) ∈ visits tree ↔ Reached tree path node := by
  constructor
  · have hstart : ∀ v ∈ [(([] : Path), tree)], Reached tree v.1 v.2 := by
      intro v hv
      rw [List.mem_singleton.mp hv]
      exact .root
    exact reached_of_visit hstart (path, node)
  · intro h
    obtain ⟨hroot, hclosed⟩ := (Waiting.start tree).closed
    induction h with
    | root => exact hroot List.mem_cons_self
    | child parent step ih =>
      exact hclosed _ ih (List.mem_map.mpr ⟨_, mem_steps.mpr step, rfl⟩)

theorem pairwise_visits (tree : Doc) : ((visits tree).map Prod.fst).Pairwise Precedes := by
  simpa [visits] using (Waiting.start tree).pairwise_visit

theorem walk_eq (ms : List (String × Doc)) :
    walk (.object ms) = (visits (.object ms)).map Prod.snd :=
  (Waiting.start (.object ms)).map_snd_visit.symm

/-! ## The first node -/

/-- The first node that a test holds of, in the order of levels. -/
structure IsFirst (tree : Doc) (test : Doc → Bool) (path : Path) (node : Doc) : Prop where
  reached : Reached tree path node
  holds : test node = true
  first : ∀ path' node', Reached tree path' node' → test node' = true →
    path' = path ∨ Precedes path path'

theorem find?_walk_eq_none {ms : List (String × Doc)} {test : Doc → Bool} :
    (walk (.object ms)).find? test = none ↔
      ∀ path node, Reached (.object ms) path node → test node = false := by
  simp only [List.find?_eq_none, walk_eq, List.forall_mem_map, Prod.forall, mem_visits,
    Bool.not_eq_true]

theorem isFirst_of_find? {ms : List (String × Doc)} {test : Doc → Bool} {node : Doc}
    (h : (walk (.object ms)).find? test = some node) :
    ∃ path, IsFirst (.object ms) test path node := by
  rw [walk_eq, List.find?_map] at h
  obtain ⟨⟨path, found⟩, hfind, rfl⟩ := Option.map_eq_some_iff.mp h
  -- the visits before the one that is found fail the test, and those behind it follow in the order
  obtain ⟨htest, before, behind, hsplit, hbefore⟩ := List.find?_eq_some_iff_append.mp hfind
  have hmem : (path, found) ∈ visits (.object ms) := by simp [hsplit]
  refine ⟨path, mem_visits.mp hmem, htest, fun path' node' hreached htest' => ?_⟩
  have hordered := pairwise_visits (.object ms)
  have hmem' := mem_visits.mpr hreached
  rw [hsplit] at hordered hmem'
  rw [List.map_append, List.map_cons] at hordered
  rcases List.mem_append.mp hmem' with hmem' | hmem'
  · exact absurd htest' (by simpa using hbefore _ hmem')
  · rcases List.mem_cons.mp hmem' with heq | hmem'
    · exact .inl (Prod.mk.inj heq).1
    · have htail := (List.pairwise_append.mp hordered).2.1
      exact .inr (List.rel_of_pairwise_cons htail (List.mem_map_of_mem hmem'))

/-! ## Main result -/

/--
**A walk is in the order of levels.** It visits the nodes that a loop over a queue visits, and these are
the nodes that paths lead to from the root, each once, in the order of levels. The contract that is
found under a name, or under any name, is declared by the first definition of it in this order, and
none is found exactly if no path leads to one.
-/
theorem walk_in_level_order (ms : List (String × Doc)) (name : Option String) :
    walk (.object ms) = (visits (.object ms)).map Prod.snd ∧
    (∀ path node, (path, node) ∈ visits (.object ms) ↔ Reached (.object ms) path node) ∧
    ((visits (.object ms)).map Prod.fst).Nodup ∧
    ((visits (.object ms)).map Prod.fst).Pairwise Precedes ∧
    (findContract (.object ms) name = .ok none ↔
      ∀ path node, Reached (.object ms) path node → definesContract name node = false) ∧
    ((∃ path node, Reached (.object ms) path node ∧ definesContract name node = true) →
      ∃ path node, IsFirst (.object ms) (definesContract name) path node ∧
        findContract (.object ms) name = (rangeOf node).map some) := by
  have hordered := pairwise_visits (.object ms)
  have hnodup : ((visits (.object ms)).map Prod.fst).Nodup := hordered.imp Precedes.ne
  refine ⟨walk_eq ms, fun path node => mem_visits, hnodup, hordered, ?_, ?_⟩
  · rw [← find?_walk_eq_none, findContract]
    cases (walk (.object ms)).find? (definesContract name) with
    | none => simp
    | some node => cases hrange : rangeOf node <;> simp [hrange, Except.map]
  · rintro ⟨path, node, hreached, hdefines⟩
    cases hfind : (walk (.object ms)).find? (definesContract name) with
    | none =>
      rw [find?_walk_eq_none.mp hfind path node hreached] at hdefines
      exact nomatch hdefines
    | some first =>
      obtain ⟨path', hfirst⟩ := isFirst_of_find? hfind
      exact ⟨path', first, hfirst, by rw [findContract, hfind]⟩

end AsmLens.Syntax
