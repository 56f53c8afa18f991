import AsmLens.Proofs.Source.Key
import AsmLens.Proofs.Text.Integer
import AsmLens.Syntax.Declaration

/-!
# Types of parameters

The text of a parameter's type is a base, then array suffixes, then perhaps a data location. Its
canonical text has no location, and array suffixes only if the base stands for itself: a contract or
an enumeration is replaced as a whole, with the suffixes behind it.

* `Syntax.ParameterType` — a type in its three parts
* `ParameterType.canonicalText_text` — the location plays no part
* `ParameterType.canonicalText_bare` — the base or what stands for it, and the suffixes that are kept
* `Syntax.arrayText_injective` — suffixes are told apart by their text
* `ParameterType.intercalate_eq_iff` — lists of types are told apart by the suffixes that are kept
-/

namespace AsmLens.Syntax

open Text

/-- A text is split at the first place of a character in one way only. -/
theorem append_cons_inj_of_first {c : Char} {x y x' y' : List Char} (hx : c ∉ x) (hx' : c ∉ x') :
    x ++ c :: y = x' ++ c :: y' ↔ x = x' ∧ y = y' := by
  refine ⟨fun h => ?_, fun ⟨h, h'⟩ => by rw [h, h']⟩
  induction x generalizing x' with
  | nil =>
    cases x' with
    | nil => exact ⟨rfl, (List.cons.inj h).2⟩
    | cons d x' => exact absurd ((List.cons.inj h).1 ▸ List.mem_cons_self) hx'
  | cons d x ih =>
    cases x' with
    | nil => exact absurd ((List.cons.inj h).1 ▸ List.mem_cons_self) hx
    | cons d' x' =>
      obtain ⟨rfl, htail⟩ := List.cons.inj h
      obtain ⟨rfl, hy⟩ :=
        ih (List.not_mem_of_not_mem_cons hx) (List.not_mem_of_not_mem_cons hx') htail
      exact ⟨rfl, hy⟩

/-! ## Array suffixes -/

/-- What stands in the brackets of an array suffix: the length, if it is fixed. -/
def lengthText (length : Option Nat) : List Char := (length.map ofNat).getD []

/-- The text of array suffixes. -/
def arrayText : List (Option Nat) → List Char
  | [] => []
  | length :: rest => '[' :: (lengthText length ++ ']' :: arrayText rest)

theorem notMem_lengthText {c : Char} (hc : ∀ d < 10, c ≠ digitChar d) (length : Option Nat) :
    c ∉ lengthText length := by
  cases length with
  | none => exact List.not_mem_nil
  | some n => exact not_mem_ofNat hc n

theorem lengthText_injective {a b : Option Nat} (h : lengthText a = lengthText b) : a = b := by
  cases a with
  | none =>
    cases b with
    | none => rfl
    | some n => exact absurd h.symm (ofNat_ne_nil n)
  | some m =>
    cases b with
    | none => exact absurd h (ofNat_ne_nil m)
    | some n => rw [ofNat_injective h]

/-- Array suffixes are told apart by their text. -/
theorem arrayText_injective {s t : List (Option Nat)} (h : arrayText s = arrayText t) : s = t := by
  induction s generalizing t with
  | nil =>
    cases t with
    | nil => rfl
    | cons b t => exact nomatch h
  | cons a s ih =>
    cases t with
    | nil => exact nomatch h
    | cons b t =>
      -- the first closing bracket ends the first suffix
      have closing : ∀ length, ']' ∉ lengthText length := notMem_lengthText (by decide)
      obtain ⟨hlength, hrest⟩ := (append_cons_inj_of_first (closing a) (closing b)).mp
        (List.cons.inj h).2
      rw [lengthText_injective hlength, ih hrest]

theorem arrayText_inj {s t : List (Option Nat)} : arrayText s = arrayText t ↔ s = t :=
  ⟨arrayText_injective, fun h => by rw [h]⟩

theorem comma_notMem_arrayText (s : List (Option Nat)) : ',' ∉ arrayText s := by
  induction s with
  | nil => exact List.not_mem_nil
  | cons a s ih =>
    have hlength : ',' ∉ lengthText a := notMem_lengthText (by decide) a
    simp [arrayText, hlength, ih]

theorem exists_arrayText_eq {s : List (Option Nat)} (h : s ≠ []) : ∃ t, arrayText s = t ++ [']'] := by
  induction s with
  | nil => exact absurd rfl h
  | cons a s ih =>
    cases s with
    | nil => exact ⟨'[' :: lengthText a, rfl⟩
    | cons b s =>
      obtain ⟨t, ht⟩ := ih (List.cons_ne_nil b s)
      exact ⟨'[' :: (lengthText a ++ ']' :: t), by rw [arrayText, ht]; simp⟩

/-! ## Locations -/

theorem endsWith_iff {s l : String} : s.endsWith l = true ↔ l.toList <:+ s.toList := by
  rw [← String.endsWith_toSlice, String.Slice.endsWith_string_iff, String.copy_toSlice]

theorem endsWith_eq_false_iff {s l : String} : s.endsWith l = false ↔ ¬l.toList <:+ s.toList := by
  rw [← endsWith_iff, Bool.not_eq_true]

/-- A text without an end, if it has it. -/
def withoutEnd (s l : String) : String := if s.endsWith l then (s.dropEnd l.length).toString else s

theorem withoutEnd_append (s l : String) : withoutEnd (s ++ l) l = s := by
  have hends : (s ++ l).endsWith l = true := by
    rw [endsWith_iff, String.toList_append]
    exact List.suffix_append _ _
  rw [withoutEnd, if_pos hends, ← String.toList_inj]
  show ((s ++ l).dropEnd l.length).copy.toList = s.toList
  simp [String.toList_copy_dropEnd, ← String.length_toList]

theorem withoutEnd_of_not {s l : String} (h : s.endsWith l = false) : withoutEnd s l = s := by
  rw [withoutEnd, h]
  rfl

/-- That a text does not end in a data location. -/
def Plain (s : String) : Prop := ∀ l ∈ locations, s.endsWith l = false

instance (s : String) : Decidable (Plain s) :=
  inferInstanceAs (Decidable (∀ l ∈ locations, s.endsWith l = false))

/-- A text that ends in one location does not end in another one. -/
theorem endsWith_append_location (s : String) {a b : String} (ha : a ∈ locations) (hb : b ∈ locations)
    (h : a ≠ b) : (s ++ a).endsWith b = false := by
  have apart : ∀ a ∈ locations, ∀ b ∈ locations, a ≠ b → ¬a.toList <:+ b.toList := by decide
  rw [endsWith_eq_false_iff, String.toList_append]
  intro hsuffix
  rcases List.suffix_or_suffix_of_suffix hsuffix (List.suffix_append s.toList a.toList) with h' | h'
  · exact apart b hb a ha h.symm h'
  · exact apart a ha b hb h h'

/-- A type without its data location. -/
def unlocated (type : String) : String := locations.foldl withoutEnd type

theorem foldl_withoutEnd {s : String} {ls : List String} (h : ∀ l ∈ ls, s.endsWith l = false) :
    ls.foldl withoutEnd s = s := by
  induction ls with
  | nil => rfl
  | cons l ls ih =>
    rw [List.foldl_cons, withoutEnd_of_not (h l List.mem_cons_self)]
    exact ih fun l' hl' => h l' (List.mem_cons_of_mem l hl')

theorem Plain.unlocated_eq {s : String} (h : Plain s) : unlocated s = s := foldl_withoutEnd h

/-- One location is taken from the end, and no other. -/
theorem Plain.unlocated_append {s l : String} (h : Plain s) (hl : l ∈ locations) :
    unlocated (s ++ l) = s := by
  have fold : ∀ ls : List String, (∀ l' ∈ ls, l' ∈ locations) → l ∈ ls →
      ls.foldl withoutEnd (s ++ l) = s := by
    intro ls
    induction ls with
    | nil => exact fun _ hmem => absurd hmem List.not_mem_nil
    | cons l' ls ih =>
      intro hls hmem
      by_cases heq : l' = l
      · subst heq
        rw [List.foldl_cons, withoutEnd_append]
        exact foldl_withoutEnd fun l hl => h l (hls l (List.mem_cons_of_mem _ hl))
      · rw [List.foldl_cons, withoutEnd_of_not
          (endsWith_append_location s hl (hls l' List.mem_cons_self) (Ne.symm heq))]
        exact ih (fun l hl => hls l (List.mem_cons_of_mem _ hl))
          ((List.mem_cons.mp hmem).resolve_left (Ne.symm heq))
  exact fold locations (fun _ h => h) hl

/-! ## Bases -/

/-- What a base is replaced by, if it is the name of a contract or an enumeration. -/
def replacement? (base : String) : Option String :=
  if base.startsWith "contract " then some "address"
  else if base.startsWith "enum " then some "uint8"
  else none

theorem canonicalText_eq (type : String) :
    canonicalText type = (replacement? (unlocated type)).getD (unlocated type) := by
  show (if (unlocated type).startsWith "contract " then "address"
    else if (unlocated type).startsWith "enum " then "uint8" else unlocated type) = _
  unfold replacement?
  split
  · rfl
  · split <;> rfl

/-- Behind array suffixes there is no change to how a text starts. -/
theorem startsWith_append_arrayText (base : String) (s : List (Option Nat)) {start : String}
    (h : '[' ∉ start.toList) :
    (base ++ String.ofList (arrayText s)).startsWith start = base.startsWith start := by
  rw [Bool.eq_iff_iff, String.startsWith_string_iff, String.startsWith_string_iff,
    String.toList_append, String.toList_ofList]
  refine ⟨fun hprefix => ?_, fun hprefix => hprefix.trans (List.prefix_append _ _)⟩
  rcases List.prefix_or_prefix_of_prefix hprefix (List.prefix_append base.toList (arrayText s))
    with hstart | ⟨rest, hrest⟩
  · exact hstart
  · -- if the start went on behind the base, it would have the bracket of the first suffix
    cases rest with
    | nil => exact ⟨[], by rw [← hrest]; simp⟩
    | cons c rest =>
      rw [← hrest, List.prefix_append_right_inj] at hprefix
      cases s with
      | nil => exact absurd hprefix (by simp [arrayText])
      | cons a s =>
        obtain ⟨rfl, -⟩ := List.cons_prefix_cons.mp hprefix
        exact absurd (hrest ▸ List.mem_append_right _ List.mem_cons_self) h

theorem replacement?_append_arrayText (base : String) (s : List (Option Nat)) :
    replacement? (base ++ String.ofList (arrayText s)) = replacement? base := by
  rw [replacement?, replacement?, startsWith_append_arrayText base s (by decide),
    startsWith_append_arrayText base s (by decide)]

/-! ## Types -/

/-- The type of a parameter: a base, array suffixes, and a data location or none. -/
structure ParameterType where
  base : String
  arrays : List (Option Nat)
  location : String
  plain : Plain base
  located : location ∈ "" :: locations

namespace ParameterType

variable (p : ParameterType)

/-- The type without its location. -/
def bare : String := p.base ++ String.ofList (arrayText p.arrays)

/-- The type as a syntax tree has it. -/
def text : String := p.bare ++ p.location

/-- That the base is the name of a contract or an enumeration. -/
def IsReplaced : Prop := (replacement? p.base).isSome = true

instance : Decidable p.IsReplaced := inferInstanceAs (Decidable (_ = true))

/-- The array suffixes that the canonical text has. -/
def kept : List (Option Nat) := if (replacement? p.base).isSome then [] else p.arrays

/-- A suffix does not end like a location. -/
theorem plain_bare : Plain p.bare := by
  intro l hl
  by_cases hs : p.arrays = []
  · rw [bare, hs]
    simpa [arrayText] using p.plain l hl
  · obtain ⟨t, ht⟩ := exists_arrayText_eq hs
    rw [endsWith_eq_false_iff, bare, String.toList_append, String.toList_ofList, ht,
      ← List.append_assoc, List.suffix_concat_iff]
    have hletters : ∀ l ∈ locations, l.toList ≠ [] ∧ ']' ∉ l.toList := by decide
    rintro (hnil | ⟨u, hu, -⟩)
    · exact (hletters l hl).1 hnil
    · exact (hletters l hl).2 (by rw [hu]; simp)

theorem unlocated_text : unlocated p.text = p.bare := by
  rcases List.mem_cons.mp p.located with hnone | hl
  · rw [text, hnone, String.append_empty]
    exact p.plain_bare.unlocated_eq
  · exact p.plain_bare.unlocated_append hl

/-- The location plays no part in the canonical text. -/
theorem canonicalText_text : canonicalText p.text = canonicalText p.bare := by
  rw [canonicalText_eq, canonicalText_eq, unlocated_text, p.plain_bare.unlocated_eq]

/-- The canonical text is the base or what stands for it, with the suffixes that are kept. -/
theorem canonicalText_bare :
    canonicalText p.bare =
      (replacement? p.base).getD p.base ++ String.ofList (arrayText p.kept) := by
  rw [canonicalText_eq, p.plain_bare.unlocated_eq, bare, replacement?_append_arrayText, kept]
  cases replacement? p.base with
  | none => rfl
  | some r => simp [arrayText]

theorem toList_canonicalText :
    (canonicalText p.text).toList =
      ((replacement? p.base).getD p.base).toList ++ arrayText p.kept := by
  rw [canonicalText_text, canonicalText_bare, String.toList_append, String.toList_ofList]

variable {p} {q : ParameterType}

/-- Of types with one base, a base that is replaced hides the difference. -/
theorem kept_eq_iff (h : p.base = q.base) :
    p.kept = q.kept ↔ p.IsReplaced ∨ p.arrays = q.arrays := by
  unfold kept IsReplaced
  rw [← h]
  by_cases hr : (replacement? p.base).isSome = true <;> simp [hr]

/-- Lists of types with the same bases are told apart by the suffixes of a base that is kept. -/
theorem intercalate_eq_iff {ps qs : List ParameterType}
    (h : List.Forall₂ (fun p q => p.base = q.base) ps qs) :
    ",".intercalate (ps.map fun p => canonicalText p.text) =
        ",".intercalate (qs.map fun q => canonicalText q.text) ↔
      List.Forall₂ (fun p q => p.IsReplaced ∨ p.arrays = q.arrays) ps qs := by
  rw [← String.toList_inj, String.toList_intercalate, String.toList_intercalate, List.map_map,
    List.map_map, show ",".toList = [','] from rfl]
  induction h with
  | nil => simp
  | @cons p q ps qs hbase hrest ih =>
    rw [List.forall₂_cons, ← kept_eq_iff hbase]
    cases hrest with
    | nil =>
      -- the last parameter of each list, with no comma behind it
      simp only [List.map_cons, List.map_nil, List.intercalate_singleton, Function.comp_apply,
        toList_canonicalText, hbase, List.append_cancel_left_eq, List.Forall₂.nil, and_true]
      exact arrayText_inj
    | cons =>
      -- no suffix has a comma, so the first one behind the base ends the parameter
      rw [← ih]
      simp only [List.map_cons, List.intercalate_cons_cons, Function.comp_apply,
        toList_canonicalText, hbase, List.append_assoc, List.append_cancel_left_eq,
        List.singleton_append]
      rw [append_cons_inj_of_first (comma_notMem_arrayText p.kept) (comma_notMem_arrayText q.kept),
        arrayText_inj]

end ParameterType

end AsmLens.Syntax
