import AsmLens.Proofs.Syntax.Declaration
import AsmLens.Proofs.Text.Integer

/-!
# How keys are spelled

A range is denoted by many texts, since blanks, signs, zeros in front, underscores and digits of other
scripts are read as well. One of them is its key: the one whose two ends are plain.

* `Text.isPlainInteger_iff` — plain texts of integers are the ones that are written
* `SourceRange.ofKey_key_eq_ok` — a key denotes its own range, if its ends may be written
* `SourceRange.isPlainKey_iff` — of the texts that denote a range, the plain one is the key
-/

namespace AsmLens

/-! ## Integers -/

namespace Text

/-- A text of ASCII digits without a zero in front; the zero itself is plain. -/
def IsPlainNatural (s : List Char) : Prop :=
  s = ['0'] ∨ s ≠ [] ∧ s.head? ≠ some '0' ∧ ∀ c ∈ s, c.isDigit = true

/-- A plain natural number, or one other than zero behind a minus sign. -/
def IsPlainInteger (s : List Char) : Prop :=
  IsPlainNatural s ∨ ∃ t, s = '-' :: t ∧ IsPlainNatural t ∧ t ≠ ['0']

theorem isDigit_digitChar : ∀ d < 10, (digitChar d).isDigit = true := by decide

theorem exists_digit_of_isDigit {c : Char} (h : c.isDigit = true) : ∃ d < 10, c = digitChar d := by
  obtain ⟨hlow, hhigh⟩ : 0x30 ≤ c.toNat ∧ c.toNat ≤ 0x39 := Char.isDigit_iff_toNat.mp h
  refine ⟨c.toNat - 0x30, by omega, ?_⟩
  rw [digitChar, show 0x30 + (c.toNat - 0x30) = c.toNat by omega, Char.ofNat_toNat]

theorem ofNat_append_one {n d : Nat} (hn : n ≠ 0) (hd : d < 10) :
    ofNat (10 * n + d) = ofNat n ++ [digitChar d] := by
  rw [ofNat, if_neg (by omega), show (10 * n + d) / 10 = n by omega,
    show (10 * n + d) % 10 = d by omega]

theorem ofNat_zero : ofNat 0 = ['0'] := by
  rw [ofNat]
  rfl

theorem isPlainNatural_ofNat (n : Nat) : IsPlainNatural (ofNat n) := by
  induction n using ofNat.induct with
  | case1 n hn =>
    rw [ofNat, if_pos hn]
    by_cases h0 : n = 0
    · exact .inl (h0 ▸ rfl)
    · have hdigit : ∀ d < 10, d ≠ 0 → digitChar d ≠ '0' := by decide
      refine .inr ⟨List.cons_ne_nil _ _, fun h => hdigit n hn h0 (Option.some.inj h), fun c hc => ?_⟩
      rw [List.mem_singleton.mp hc]
      exact isDigit_digitChar n hn
  | case2 n hn ih =>
    rw [ofNat, if_neg hn]
    rcases ih with h | ⟨hne, hhead, hdigits⟩
    · have hzero : n / 10 = 0 := ofNat_injective (h.trans ofNat_zero.symm)
      omega
    · refine .inr ⟨by simp, by rwa [List.head?_append_of_ne_nil _ hne], fun c hc => ?_⟩
      rcases List.mem_append.mp hc with hc | hc
      · exact hdigits c hc
      · exact List.mem_singleton.mp hc ▸ isDigit_digitChar _ (Nat.mod_lt _ (by omega))

theorem exists_ofNat_of_isPlainNatural {s : List Char} (h : IsPlainNatural s) : ∃ n, s = ofNat n := by
  rcases h with rfl | ⟨hne, hhead, hdigits⟩
  · exact ⟨0, ofNat_zero.symm⟩
  -- digit by digit from the left: what stands before the last digit is a number other than zero
  induction s using List.reverseRecOn with
  | nil => exact absurd rfl hne
  | append_singleton s c ih =>
    obtain ⟨d, hd, rfl⟩ := exists_digit_of_isDigit (hdigits c (by simp))
    by_cases hs : s = []
    · refine ⟨d, ?_⟩
      rw [hs, ofNat, if_pos hd]
      rfl
    · rw [List.head?_append_of_ne_nil _ hs] at hhead
      obtain ⟨n, rfl⟩ := ih hs hhead fun c hc => hdigits c (List.mem_append_left _ hc)
      have hn : n ≠ 0 := by
        rintro rfl
        exact hhead (by rw [ofNat_zero]; rfl)
      exact ⟨10 * n + d, (ofNat_append_one hn hd).symm⟩

/-- **Plain texts of integers are the ones that are written.** -/
theorem isPlainInteger_iff {s : List Char} : IsPlainInteger s ↔ ∃ n, s = ofInt n := by
  constructor
  · rintro (h | ⟨t, rfl, h, hne⟩)
    · obtain ⟨n, rfl⟩ := exists_ofNat_of_isPlainNatural h
      exact ⟨.ofNat n, rfl⟩
    · obtain ⟨n, rfl⟩ := exists_ofNat_of_isPlainNatural h
      cases n with
      | zero => exact absurd ofNat_zero hne
      | succ n => exact ⟨.negSucc n, rfl⟩
  · rintro ⟨n, rfl⟩
    cases n with
    | ofNat n => exact .inl (isPlainNatural_ofNat n)
    | negSucc n =>
      refine .inr ⟨_, rfl, isPlainNatural_ofNat (n + 1), fun h => ?_⟩
      exact absurd (ofNat_injective (h.trans ofNat_zero.symm)) (by omega)

end Text

/-! ## Keys -/

open Text

namespace SourceRange

variable {r s : SourceRange}

theorem parts_key (r : SourceRange) : parts r.key = [intText r.first, intText r.last] := by
  refine parts_intercalate ?_ (by simp) ?_
  · rw [key]
    rfl
  · simp [intText, colon_not_mem_ofInt]

/-- A key denotes its own range and no other, and that only if its ends may be written. -/
theorem ofKey_key_eq_ok :
    ofKey s.key = .ok r ↔ r = s ∧ isWritable s.first = true ∧ isWritable s.last = true := by
  rw [ofKey_eq_ok, parts_key]
  constructor
  · rintro ⟨a, b, hparts, ha, hb⟩
    obtain ⟨rfl, hrest⟩ := List.cons.inj hparts
    obtain ⟨rfl, -⟩ := List.cons.inj hrest
    obtain ⟨hfirst, hwritable⟩ := readInt?_intText_eq_some.mp ha
    obtain ⟨hlast, hwritable'⟩ := readInt?_intText_eq_some.mp hb
    refine ⟨?_, hwritable, hwritable'⟩
    rw [← show (⟨r.first, r.last⟩ : SourceRange) = r from rfl, hfirst, hlast]
  · rintro ⟨rfl, hfirst, hlast⟩
    exact ⟨_, _, rfl, readInt?_intText hfirst, readInt?_intText hlast⟩

/-- That a text has two plain integers as its ends, with a colon between them. -/
def IsPlainKey (key : String) : Prop :=
  ∃ a b, key.toList = a ++ ':' :: b ∧ IsPlainInteger a ∧ IsPlainInteger b

theorem isPlainKey_key (r : SourceRange) : IsPlainKey r.key :=
  ⟨_, _, r.toList_key, isPlainInteger_iff.mpr ⟨_, rfl⟩, isPlainInteger_iff.mpr ⟨_, rfl⟩⟩

/-- A plain key is the key of a range. -/
theorem exists_key_of_isPlainKey {k : String} (h : IsPlainKey k) : ∃ s : SourceRange, k = s.key := by
  obtain ⟨a, b, hk, ha, hb⟩ := h
  obtain ⟨m, rfl⟩ := isPlainInteger_iff.mp ha
  obtain ⟨n, rfl⟩ := isPlainInteger_iff.mp hb
  exact ⟨⟨m, n⟩, String.toList_injective (hk.trans (toList_key ⟨m, n⟩).symm)⟩

/-- **Of the texts that denote a range, the plain one is its key.** -/
theorem isPlainKey_iff {k : String} (h : ofKey k = .ok r) : IsPlainKey k ↔ k = r.key := by
  constructor
  · intro hk
    obtain ⟨s, rfl⟩ := exists_key_of_isPlainKey hk
    rw [(ofKey_key_eq_ok.mp h).1]
  · rintro rfl
    exact isPlainKey_key r

end SourceRange

end AsmLens
