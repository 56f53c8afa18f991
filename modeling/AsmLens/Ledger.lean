/-!
# Ledgers

A ledger maps keys to values and remembers the order in which the keys first
arrived. Writing under a known key replaces its value and leaves its place.

* `keys_insert` — an insertion appends a new key and moves no known one
* `find?_insert` — the last value written under a key is the one found
* `keys_update` — changing values changes no key and no order
-/

namespace AsmLens

variable {κ ν μ : Type} [DecidableEq κ]

/-- A map that remembers the order of its keys. -/
structure Ledger (κ ν : Type) [DecidableEq κ] where
  /-- Keys and values, oldest key first. -/
  toList : List (κ × ν)
  nodup : (toList.map Prod.fst).Nodup

namespace Ledger

/-- The ledger without keys. -/
def empty : Ledger κ ν := ⟨[], List.nodup_nil⟩

instance : EmptyCollection (Ledger κ ν) := ⟨empty⟩

instance : Inhabited (Ledger κ ν) := ⟨empty⟩

/-- The keys, oldest first. -/
def keys (l : Ledger κ ν) : List κ := l.toList.map Prod.fst

/-- The values, in the order of their keys. -/
def values (l : Ledger κ ν) : List ν := l.toList.map Prod.snd

/-- The number of keys. -/
def size (l : Ledger κ ν) : Nat := l.toList.length

/-- Whether there is no key. -/
def isEmpty (l : Ledger κ ν) : Bool := l.toList.isEmpty

/-! ## Looking up -/

/-- The value under a key in a list of pairs. -/
def search (k : κ) : List (κ × ν) → Option ν
  | [] => none
  | (j, v) :: rest => if j = k then some v else search k rest

/-- The value under a key. -/
def find? (l : Ledger κ ν) (k : κ) : Option ν := search k l.toList

theorem search_eq_some {k : κ} {v : ν} {ps : List (κ × ν)} (h : (ps.map Prod.fst).Nodup) :
    search k ps = some v ↔ (k, v) ∈ ps := by
  induction ps with
  | nil => simp [search]
  | cons p ps ih =>
    obtain ⟨j, w⟩ := p
    rw [List.map_cons, List.nodup_cons] at h
    by_cases hj : j = k
    · subst hj
      have hv : (j, v) ∉ ps := fun hm => h.1 (List.mem_map.mpr ⟨_, hm, rfl⟩)
      simp [search, hv, eq_comm]
    · rw [search, if_neg hj, ih h.2, List.mem_cons, Prod.mk.injEq]
      simp [Ne.symm hj]

/-- What is found under a key is the value that stands with it. -/
theorem find?_eq_some {l : Ledger κ ν} {k : κ} {v : ν} : l.find? k = some v ↔ (k, v) ∈ l.toList :=
  search_eq_some l.nodup

/-- Whether a key is there. -/
def contains (l : Ledger κ ν) (k : κ) : Bool := (l.find? k).isSome

theorem search_isSome {k : κ} {ps : List (κ × ν)} :
    (search k ps).isSome = true ↔ k ∈ ps.map Prod.fst := by
  induction ps with
  | nil => simp [search]
  | cons p ps ih => by_cases h : p.1 = k <;> grind [search]

theorem contains_iff {l : Ledger κ ν} {k : κ} : l.contains k = true ↔ k ∈ l.keys :=
  search_isSome

theorem mem_of_search {k : κ} {v : ν} {ps : List (κ × ν)} (h : search k ps = some v) :
    (k, v) ∈ ps := by
  induction ps with
  | nil => exact nomatch h
  | cons p ps ih =>
    rw [search] at h
    split at h
    · next hk =>
      obtain rfl : p = (k, v) := Prod.ext hk (Option.some.inj h)
      exact List.mem_cons_self
    · exact List.mem_cons_of_mem p (ih h)

theorem search_append (k : κ) (ps qs : List (κ × ν)) :
    search k (ps ++ qs) = (search k ps).or (search k qs) := by
  induction ps with
  | nil => rfl
  | cons p ps ih => by_cases h : p.1 = k <;> grind [search]

theorem search_eq_none {k : κ} {ps : List (κ × ν)} (h : k ∉ ps.map Prod.fst) :
    search k ps = none :=
  Option.not_isSome_iff_eq_none.mp fun hs => h (search_isSome.mp hs)

/-- From the end, the last pair with a key is found. -/
theorem search_reverse {k : κ} {v : ν} {ps qs : List (κ × ν)} (h : k ∉ qs.map Prod.fst) :
    search k (ps ++ (k, v) :: qs).reverse = some v := by
  have hq : k ∉ qs.reverse.map Prod.fst := by simpa using h
  rw [List.reverse_append, List.reverse_cons, search_append, search_append, search_eq_none hq]
  simp [search]

@[ext] theorem ext {l l' : Ledger κ ν} (h : l.toList = l'.toList) : l = l' := by
  cases l
  cases l'
  obtain rfl := h
  rfl

/-- Ledgers with the same keys in the same order and the same values are equal. -/
theorem ext_find? {l l' : Ledger κ ν} (hk : l.keys = l'.keys)
    (hf : ∀ k ∈ l.keys, l.find? k = l'.find? k) : l = l' := by
  refine ext (List.ext_getElem? fun i => ?_)
  have hi : (l.toList[i]?).map Prod.fst = (l'.toList[i]?).map Prod.fst := by
    have hget := congrArg (fun ks => ks[i]?) hk
    simpa [keys] using hget
  cases h : l.toList[i]? with
  | none => rw [h] at hi; simpa using hi.symm
  | some p =>
    cases h' : l'.toList[i]? with
    | none => rw [h, h'] at hi; simp at hi
    | some q =>
      rw [h, h'] at hi
      obtain ⟨k, v⟩ := p
      obtain ⟨k', w⟩ := q
      obtain rfl : k = k' := by simpa using hi
      have hv : l.find? k = some v := find?_eq_some.mpr (List.mem_of_getElem? h)
      have hw : l'.find? k = some w := find?_eq_some.mpr (List.mem_of_getElem? h')
      have hmem : k ∈ l.keys := List.mem_map.mpr ⟨_, List.mem_of_getElem? h, rfl⟩
      rw [hf k hmem, hw] at hv
      rw [Option.some.inj hv]

/-! ## Writing -/

/-- A list of pairs with a value under a key: in place, or at the end. -/
def write (k : κ) (v : ν) : List (κ × ν) → List (κ × ν)
  | [] => [(k, v)]
  | (j, w) :: rest => if j = k then (k, v) :: rest else (j, w) :: write k v rest

theorem fst_write (k : κ) (v : ν) (ps : List (κ × ν)) :
    (write k v ps).map Prod.fst =
      if k ∈ ps.map Prod.fst then ps.map Prod.fst else ps.map Prod.fst ++ [k] := by
  induction ps with
  | nil => simp [write]
  | cons p ps ih => by_cases h : p.1 = k <;> grind [write]

theorem write_of_notMem {k : κ} (v : ν) {ps : List (κ × ν)} (h : k ∉ ps.map Prod.fst) :
    write k v ps = ps ++ [(k, v)] := by
  induction ps with
  | nil => rfl
  | cons p ps ih =>
    rw [List.map_cons, List.mem_cons, not_or] at h
    rw [write, if_neg (Ne.symm h.1), ih h.2, List.cons_append]

/-- A value put under a key. -/
def insert (l : Ledger κ ν) (k : κ) (v : ν) : Ledger κ ν where
  toList := write k v l.toList
  nodup := by
    rw [fst_write]
    split
    · exact l.nodup
    · rename_i h
      exact List.nodup_append.2 ⟨l.nodup, by simp, by grind⟩

/-- An insertion appends a new key and moves no known one. -/
theorem keys_insert (l : Ledger κ ν) (k : κ) (v : ν) :
    (l.insert k v).keys = if k ∈ l.keys then l.keys else l.keys ++ [k] :=
  fst_write k v l.toList

/-- A new key is appended with its value. -/
theorem toList_insert_of_notMem {l : Ledger κ ν} {k : κ} (v : ν) (h : k ∉ l.keys) :
    (l.insert k v).toList = l.toList ++ [(k, v)] :=
  write_of_notMem v h

theorem search_write (k j : κ) (v : ν) (ps : List (κ × ν)) :
    search j (write k v ps) = if k = j then some v else search j ps := by
  induction ps with
  | nil => simp [write, search]
  | cons p ps ih => by_cases h : p.1 = k <;> by_cases i : p.1 = j <;> grind [write, search]

/-- The last value written under a key is the one found. -/
theorem find?_insert (l : Ledger κ ν) (k j : κ) (v : ν) :
    (l.insert k v).find? j = if k = j then some v else l.find? j :=
  search_write k j v l.toList

/-- Every value changed by a function of its key. -/
def mapValues (l : Ledger κ ν) (f : κ → ν → μ) : Ledger κ μ where
  toList := l.toList.map fun p => (p.1, f p.1 p.2)
  nodup := by simpa [List.map_map, Function.comp_def] using l.nodup

/-- Changing values changes no key and no order. -/
@[simp] theorem keys_mapValues (l : Ledger κ ν) (f : κ → ν → μ) :
    (l.mapValues f).keys = l.keys := by
  simp [keys, mapValues, List.map_map, Function.comp_def]

/-- The value under one key changed; nothing happens if the key is not there. -/
def update (l : Ledger κ ν) (k : κ) (f : ν → ν) : Ledger κ ν :=
  l.mapValues fun j v => if j = k then f v else v

theorem toList_update (l : Ledger κ ν) (k : κ) (f : ν → ν) :
    (l.update k f).toList = l.toList.map fun p => (p.1, if p.1 = k then f p.2 else p.2) := rfl

/-- Changing the value under a key changes no key and no order. -/
@[simp] theorem keys_update (l : Ledger κ ν) (k : κ) (f : ν → ν) :
    (l.update k f).keys = l.keys := keys_mapValues ..

theorem search_map (f : κ → ν → μ) (k : κ) (ps : List (κ × ν)) :
    search k (ps.map fun p => (p.1, f p.1 p.2)) = (search k ps).map (f k) := by
  induction ps with
  | nil => rfl
  | cons p ps ih => by_cases h : p.1 = k <;> grind [search]

theorem find?_mapValues (l : Ledger κ ν) (f : κ → ν → μ) (k : κ) :
    (l.mapValues f).find? k = (l.find? k).map (f k) :=
  search_map f k l.toList

/-- What is found after a change under a key. -/
theorem find?_update (l : Ledger κ ν) (k j : κ) (f : ν → ν) :
    (l.update k f).find? j = if j = k then (l.find? j).map f else l.find? j := by
  rw [update, find?_mapValues]
  by_cases h : j = k <;> simp [h]

/-- The value that is there written under its key changes nothing. -/
theorem update_self {l : Ledger κ ν} {k : κ} {v : ν} (h : l.find? k = some v) :
    l.update k (fun _ => v) = l := by
  refine ext_find? (keys_update ..) fun j _ => ?_
  rw [find?_update]
  by_cases hj : j = k
  · subst hj
    simp [h]
  · simp [hj]

/-- A change that a function of the values does not see is not seen in any value. -/
theorem mapValues_update {f : ν → ν} {g : ν → μ} (h : ∀ v, g (f v) = g v) (l : Ledger κ ν) (k : κ) :
    ((l.update k f).mapValues fun _ => g) = l.mapValues fun _ => g := by
  refine ext ?_
  simp only [mapValues, toList_update, List.map_map]
  refine List.map_congr_left fun p _ => ?_
  by_cases hp : p.1 = k <;> simp [hp, h]

/--
Changes under one key after another, each of which leaves nothing of the ones before it: of those
under a key, the last counts.
-/
theorem find?_foldl_update {ω : Type} {f : κ → ν → ω → ν}
    (h : ∀ k v w w', f k (f k v w) w' = f k v w') (ws : List (κ × ω)) (l : Ledger κ ν) (k : κ) :
    (ws.foldl (fun l w => l.update w.1 fun v => f w.1 v w.2) l).find? k =
      (l.find? k).map fun v => ((search k ws.reverse).map (f k v)).getD v := by
  induction ws generalizing l with
  | nil => simp [search]
  | cons w ws ih =>
    rw [List.foldl_cons, ih, find?_update, List.reverse_cons, search_append]
    cases l.find? k with
    | none => simp
    | some v =>
      -- a later change under the key hides this one; without one, this is the last
      cases search k ws.reverse with
      | some w' => by_cases hk : k = w.1 <;> simp [hk, h]
      | none => by_cases hk : k = w.1 <;> simp [search, hk, Ne.symm]

/-- The ledger of a list of pairs: the first place and the last value of each key. -/
def ofList (ps : List (κ × ν)) : Ledger κ ν := ps.foldl (fun l p => l.insert p.1 p.2) empty

/-- In a ledger of pairs the last value under a key is found. -/
theorem find?_ofList (ps : List (κ × ν)) (k : κ) : (ofList ps).find? k = search k ps.reverse := by
  have fold : ∀ (ps : List (κ × ν)) (l : Ledger κ ν),
      (ps.foldl (fun l p => l.insert p.1 p.2) l).find? k = (search k ps.reverse).or (l.find? k) := by
    intro ps
    induction ps with
    | nil => exact fun l => rfl
    | cons p ps ih =>
      intro l
      rw [List.foldl_cons, ih, find?_insert, List.reverse_cons, search_append, Option.or_assoc]
      by_cases hp : p.1 = k <;> simp [search, hp]
  exact (fold ps empty).trans (Option.or_none ..)

/-- What is found in a ledger of pairs is one of the pairs. -/
theorem mem_of_find?_ofList {ps : List (κ × ν)} {k : κ} {v : ν}
    (h : (ofList ps).find? k = some v) : (k, v) ∈ ps := by
  rw [find?_ofList] at h
  exact List.mem_reverse.mp (mem_of_search h)

/-- Pairs of which no two have the same key are kept as they are. -/
theorem toList_ofList {ps : List (κ × ν)} (h : (ps.map Prod.fst).Nodup) : (ofList ps).toList = ps := by
  have fold : ∀ (ps : List (κ × ν)) (l : Ledger κ ν), (l.keys ++ ps.map Prod.fst).Nodup →
      (ps.foldl (fun l p => l.insert p.1 p.2) l).toList = l.toList ++ ps := by
    intro ps
    induction ps with
    | nil => exact fun l _ => (List.append_nil _).symm
    | cons p ps ih =>
      intro l hl
      have hp : p.1 ∉ l.keys := fun hmem =>
        (List.nodup_append.mp hl).2.2 p.1 hmem p.1 List.mem_cons_self rfl
      have hlist := toList_insert_of_notMem p.2 hp
      have hkeys : (l.insert p.1 p.2).keys = l.keys ++ [p.1] := by
        rw [keys, hlist, List.map_append]
        rfl
      rw [List.foldl_cons, ih _ (by rwa [hkeys, List.append_assoc]), hlist, List.append_assoc]
      rfl
  exact fold ps empty h

end Ledger

end AsmLens
