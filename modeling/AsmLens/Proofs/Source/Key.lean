import AsmLens.Source.Range
import Mathlib.Data.List.Basic

/-!
# Keys name ranges

The key of a range is the decimal text of its two ends with a colon between them. Neither
text holds a colon, and the digits of a number give the number back, so a key belongs to
one range only.

* `SourceRange.key_injective` — ranges with the same key are the same range
-/

namespace AsmLens

open Text

/-! ## Digits -/

/-- The characters of a natural number are digits. -/
theorem Text.exists_digit_of_mem_ofNat {n : Nat} {c : Char} (h : c ∈ ofNat n) :
    ∃ d < 10, c = digitChar d := by
  induction n using ofNat.induct with
  | case1 n hn =>
    rw [ofNat, if_pos hn, List.mem_singleton] at h
    exact ⟨n, hn, h⟩
  | case2 n hn ih =>
    rw [ofNat, if_neg hn, List.mem_append, List.mem_singleton] at h
    rcases h with h | h
    · exact ih h
    · exact ⟨n % 10, Nat.mod_lt _ (by omega), h⟩

theorem Text.digitsValue_append_one (ds : List Nat) (d : Nat) :
    digitsValue (ds ++ [d]) = 10 * digitsValue ds + d := by
  simp [digitsValue, List.foldl_append]

/-- The digits of a natural number denote that number. -/
theorem Text.digitsValue_ofNat (n : Nat) : digitsValue ((ofNat n).filterMap digitValue?) = n := by
  induction n using ofNat.induct with
  | case1 n hn =>
    rw [ofNat, if_pos hn]
    simp [digitValue?_digitChar hn, digitsValue]
  | case2 n hn ih =>
    have hd : digitValue? (digitChar (n % 10)) = some (n % 10) :=
      digitValue?_digitChar (Nat.mod_lt _ (by omega))
    rw [ofNat, if_neg hn, List.filterMap_append, List.filterMap_cons_some hd, List.filterMap_nil,
      digitsValue_append_one, ih]
    omega

theorem Text.ofNat_injective {m n : Nat} (h : ofNat m = ofNat n) : m = n := by
  rw [← digitsValue_ofNat m, h, digitsValue_ofNat]

/-- A character that is no digit does not occur in a natural number. -/
theorem Text.not_mem_ofNat {c : Char} (hc : ∀ d < 10, c ≠ digitChar d) (n : Nat) : c ∉ ofNat n := by
  intro h
  obtain ⟨d, hd, hcd⟩ := exists_digit_of_mem_ofNat h
  exact hc d hd hcd

theorem Text.minus_not_mem_ofNat (n : Nat) : '-' ∉ ofNat n := not_mem_ofNat (by decide) n

theorem Text.colon_not_mem_ofInt (a : Int) : ':' ∉ ofInt a := by
  have digits : ∀ n, ':' ∉ ofNat n := not_mem_ofNat (by decide)
  cases a with
  | ofNat n => exact digits n
  | negSucc n =>
    rw [ofInt, List.mem_cons, not_or]
    exact ⟨by decide, digits (n + 1)⟩

theorem Text.ofInt_injective {a b : Int} (h : ofInt a = ofInt b) : a = b := by
  cases a with
  | ofNat m =>
    cases b with
    | ofNat n => rw [ofNat_injective h]
    | negSucc n =>
      have hm : '-' ∈ ofNat m := by rw [show ofNat m = '-' :: ofNat (n + 1) from h]; simp
      exact absurd hm (minus_not_mem_ofNat m)
  | negSucc m =>
    cases b with
    | ofNat n =>
      have hn : '-' ∈ ofNat n := by rw [← show '-' :: ofNat (m + 1) = ofNat n from h]; simp
      exact absurd hn (minus_not_mem_ofNat n)
    | negSucc n =>
      have hmn : m + 1 = n + 1 := ofNat_injective (List.cons.inj h).2
      rw [Nat.succ.inj hmn]

/-! ## Keys -/

theorem SourceRange.toList_key (r : SourceRange) :
    r.key.toList = ofInt r.first ++ ':' :: ofInt r.last := by
  simp [key, intText]

/-- **A key belongs to one range only.** -/
theorem SourceRange.key_injective {r s : SourceRange} (h : r.key = s.key) : r = s := by
  have hl : ofInt r.first ++ ':' :: ofInt r.last = ofInt s.first ++ ':' :: ofInt s.last := by
    rw [← toList_key, ← toList_key, h]
  -- the first colon is the one between the ends, so both sides split there
  obtain ⟨hf, -, ht⟩ := (List.append_cons_inj_of_notMem (colon_not_mem_ofInt r.first)
    (colon_not_mem_ofInt r.last)).mp hl
  cases r
  cases s
  simp only [SourceRange.mk.injEq]
  exact ⟨ofInt_injective hf, ofInt_injective ht⟩

theorem SourceRange.key_inj {r s : SourceRange} : r.key = s.key ↔ r = s :=
  ⟨key_injective, fun h => by rw [h]⟩

end AsmLens
