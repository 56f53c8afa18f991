import AsmLens.Region.Basic
import Mathlib.Data.List.Induction

/-!
# Spans are maximal runs

The lines of a region arrive in ascending order, one at a time, and `Region.extend` grows the
last span or opens a new one. Whatever lines arrived, the spans are the maximal runs of them:
they cover these lines and no other, and between two spans there is a line that is in neither.

* `MaximalRuns` — the shape of such spans
* `Region.maximalRuns_spansOf` — the spans of ascending lines have it and cover them
-/

namespace AsmLens

/-- Whether a line lies in one of some spans. -/
def Span.Covers (ss : List Span) (n : Int) : Prop := ∃ s ∈ ss, s.contains n = true

/-- Spans in `1..m`, first to last, none empty, with a line between each two. -/
structure MaximalRuns (ss : List Span) (m : Int) : Prop where
  within : ∀ s ∈ ss, 1 ≤ s.first ∧ s.first ≤ s.last ∧ s.last ≤ m
  apart : ss.Pairwise fun a b => a.last + 2 ≤ b.first

namespace Region

/-- The spans of lines that arrive in the order of the list. -/
def spansOf (ls : List Int) : List Span := ls.foldl (fun ss n => extend n ss) []

@[simp] theorem spansOf_nil : spansOf [] = [] := rfl

theorem spansOf_append_one (ls : List Int) (n : Int) :
    spansOf (ls ++ [n]) = extend n (spansOf ls) := by
  simp [spansOf, List.foldl_append]

/-! ## One more line -/

theorem covers_cons {s : Span} {ss : List Span} {l : Int} :
    Span.Covers (s :: ss) l ↔ (s.first ≤ l ∧ l ≤ s.last) ∨ Span.Covers ss l := by
  simp [Span.Covers, Span.contains]

theorem not_covers_nil (l : Int) : ¬Span.Covers [] l := by
  simp [Span.Covers]

/-- A new line is covered, and of the other lines the same as before. -/
theorem covers_extend {ss : List Span} {m n l : Int} (h : MaximalRuns ss m) :
    Span.Covers (extend n ss) l ↔ Span.Covers ss l ∨ l = n := by
  fun_induction extend n ss with
  | case1 =>
    simp only [covers_cons, not_covers_nil, or_false, false_or]
    omega
  | case2 s hs =>
    have hw := h.within s List.mem_cons_self
    simp only [covers_cons, not_covers_nil, or_false]
    omega
  | case3 s hs =>
    simp only [covers_cons, not_covers_nil, or_false]
    omega
  | case4 s rest _ ih =>
    have hr : MaximalRuns rest m :=
      ⟨fun a ha => h.within a (List.mem_cons_of_mem _ ha), (List.pairwise_cons.mp h.apart).2⟩
    rw [covers_cons, covers_cons, ih hr, or_assoc]

/-- A span of the extended list starts where an old one did, or is the new line alone. -/
theorem first_of_mem_extend {ss : List Span} {n : Int} {b : Span} (hb : b ∈ extend n ss) :
    (∃ a ∈ ss, b.first = a.first) ∨ b = ⟨n, n⟩ := by
  fun_induction extend n ss with
  | case1 => exact .inr (List.mem_singleton.mp hb)
  | case2 s _ =>
    rw [List.mem_singleton] at hb
    exact .inl ⟨s, List.mem_singleton.mpr rfl, by rw [hb]⟩
  | case3 s _ =>
    rw [List.mem_cons, List.mem_singleton] at hb
    rcases hb with rfl | rfl
    · exact .inl ⟨b, List.mem_singleton.mpr rfl, rfl⟩
    · exact .inr rfl
  | case4 s rest _ ih =>
    rcases List.mem_cons.mp hb with rfl | hb
    · exact .inl ⟨b, List.mem_cons_self, rfl⟩
    · rcases ih hb with ⟨a, ha, he⟩ | he
      · exact .inl ⟨a, List.mem_cons_of_mem _ ha, he⟩
      · exact .inr he

/-- A line after all others keeps the spans maximal runs. -/
theorem maximalRuns_extend {ss : List Span} {m n : Int} (h : MaximalRuns ss m) (hn : m < n)
    (hpos : 1 ≤ n) : MaximalRuns (extend n ss) n := by
  fun_induction extend n ss with
  | case1 => exact ⟨by simp; omega, List.pairwise_singleton _ _⟩
  | case2 s hs =>
    have hw := h.within s List.mem_cons_self
    exact ⟨by simp; omega, List.pairwise_singleton _ _⟩
  | case3 s hs =>
    have hw := h.within s List.mem_cons_self
    exact ⟨by simp; omega, by simp; omega⟩
  | case4 s rest hne ih =>
    obtain ⟨hs, hrest⟩ := List.pairwise_cons.mp h.apart
    have hr : MaximalRuns rest m := ⟨fun a ha => h.within a (List.mem_cons_of_mem _ ha), hrest⟩
    have hw := h.within s List.mem_cons_self
    refine ⟨?_, List.pairwise_cons.mpr ⟨?_, (ih hr).apart⟩⟩
    · intro a ha
      rcases List.mem_cons.mp ha with rfl | ha
      · omega
      · exact (ih hr).within a ha
    · intro b hb
      -- the span after `s` shows that a line of its own comes later still
      obtain ⟨a, ha⟩ := List.exists_mem_of_ne_nil rest hne
      have hsa := hs a ha
      have hwa := hr.within a ha
      rcases first_of_mem_extend hb with ⟨c, hc, he⟩ | rfl
      · rw [he]
        exact hs c hc
      · show s.last + 2 ≤ n
        omega

theorem extend_ne_nil (n : Int) (ss : List Span) : extend n ss ≠ [] := by
  fun_cases extend n ss <;> simp

/-! ## Ascending lines -/

/-- The spans of ascending lines in `1..m` are maximal runs, and they cover exactly these lines. -/
theorem maximalRuns_spansOf {ls : List Int} {m : Int} (hs : ls.Pairwise (· < ·))
    (hw : ∀ l ∈ ls, 1 ≤ l ∧ l ≤ m) :
    MaximalRuns (spansOf ls) m ∧ ∀ l, Span.Covers (spansOf ls) l ↔ l ∈ ls := by
  induction ls using List.reverseRecOn generalizing m with
  | nil => exact ⟨⟨by simp, List.Pairwise.nil⟩, by simp [Span.Covers]⟩
  | append_singleton ls n ih =>
    obtain ⟨hls, -, hlt⟩ := List.pairwise_append.mp hs
    have hn := hw n (by simp)
    obtain ⟨hr, hc⟩ := ih (m := n - 1) hls fun l hl => by
      have := hw l (List.mem_append_left _ hl)
      have := hlt l hl n (List.mem_singleton.mpr rfl)
      omega
    rw [spansOf_append_one]
    have he : MaximalRuns (extend n (spansOf ls)) n := maximalRuns_extend hr (by omega) hn.1
    refine ⟨⟨fun s hs => ?_, he.apart⟩, fun l => ?_⟩
    · have := he.within s hs
      omega
    · rw [covers_extend hr, hc, List.mem_append, List.mem_singleton]

theorem spansOf_ne_nil {ls : List Int} (h : ls ≠ []) : spansOf ls ≠ [] := by
  rw [← List.dropLast_concat_getLast h, spansOf_append_one]
  exact extend_ne_nil _ _

end Region

end AsmLens
