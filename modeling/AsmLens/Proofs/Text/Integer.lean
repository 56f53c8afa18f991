import AsmLens.Proofs.Source.Key
import Mathlib.Data.List.Induction

/-!
# Integers are read as they are written

The text of an integer is read as that integer if it may be written, and every integer that is read
may be written: it has no more digits than the text it is read from.

* `Text.readInt?_intText` — what is written is read
* `Text.isWritable_of_readInt?` — what is read may be written
-/

namespace AsmLens.Text

theorem integer?_eq_some {s : List Char} {n : Int} :
    integer? s = some n ↔ ∃ m, natural? (splitSign (trim s)).2 = some m ∧
      n = if (splitSign (trim s)).1 then -(m : Int) else m := by
  unfold integer?
  dsimp only
  cases natural? (splitSign (trim s)).2 with
  | none => exact ⟨fun h => (nomatch h), fun ⟨_, h, _⟩ => (nomatch h)⟩
  | some m =>
    refine ⟨fun h => ⟨m, rfl, (Option.some.inj h).symm⟩, ?_⟩
    rintro ⟨k, hk, rfl⟩
    rw [← Option.some.inj hk]
    rfl

/-! ## Written integers -/

theorem ofNat_ne_nil (n : Nat) : ofNat n ≠ [] := by
  unfold ofNat
  split <;> simp

theorem isBlank_digitChar : ∀ d < 10, isBlank (digitChar d) = false := by decide

theorem isBlank_of_mem_ofInt {n : Int} {c : Char} (h : c ∈ ofInt n) : isBlank c = false := by
  have digit : ∀ {m c}, c ∈ ofNat m → isBlank c = false := by
    intro m c hc
    obtain ⟨d, hd, rfl⟩ := exists_digit_of_mem_ofNat hc
    exact isBlank_digitChar d hd
  cases n with
  | ofNat m => exact digit h
  | negSucc m =>
    rcases List.mem_cons.mp h with rfl | h
    · decide
    · exact digit h

/-- A text without blanks stays as it is. -/
theorem trim_eq_self {s : List Char} (h : ∀ c ∈ s, isBlank c = false) : trim s = s := by
  have drop : ∀ {l : List Char}, (∀ c ∈ l, isBlank c = false) → l.dropWhile isBlank = l := by
    intro l hl
    cases l with
    | nil => rfl
    | cons c l => rw [List.dropWhile_cons_of_neg (by simp [hl c List.mem_cons_self])]
  rw [trim, drop h, dropBlanksRight, drop fun c hc => h c (List.mem_reverse.mp hc),
    List.reverse_reverse]

theorem splitSign_ofInt (n : Int) : splitSign (ofInt n) = (decide (n < 0), ofNat n.natAbs) := by
  cases n with
  | negSucc m =>
    rw [decide_eq_true (Int.negSucc_lt_zero m)]
    rfl
  | ofNat m =>
    have hsign : decide (Int.ofNat m < 0) = false :=
      decide_eq_false (Int.not_lt.mpr (Int.natCast_nonneg m))
    rw [hsign]
    show splitSign (ofNat m) = (false, ofNat m)
    unfold splitSign
    split
    · next h => exact absurd (h ▸ List.mem_cons_self) (minus_not_mem_ofNat m)
    · next h =>
      exact absurd (h ▸ List.mem_cons_self) (not_mem_ofNat (c := '+') (by decide) m)
    · rfl

/-! ## Digits -/

/-- The digit values of a text of digits, one for each. -/
theorem digits?_eq_some {s : List Char} (hne : s ≠ []) (h : ∀ c ∈ s, ∃ d < 10, c = digitChar d) :
    digits? s = some (s.filterMap digitValue?) ∧ (s.filterMap digitValue?).length = s.length := by
  induction s with
  | nil => exact absurd rfl hne
  | cons c s ih =>
    obtain ⟨d, hd, rfl⟩ := h c List.mem_cons_self
    have hc := digitValue?_digitChar hd
    rw [List.filterMap_cons_some hc]
    cases s with
    | nil => simp [digits?, hc]
    | cons e s =>
      obtain ⟨hs, hlen⟩ := ih nofun fun x hx => h x (List.mem_cons_of_mem _ hx)
      have hne : e ≠ '_' := by
        obtain ⟨f, hf, rfl⟩ := h e (List.mem_cons_of_mem _ List.mem_cons_self)
        exact (show ∀ f < 10, digitChar f ≠ '_' by decide) f hf
      rw [digits?, hc, hs, List.length_cons, hlen]
      · exact ⟨rfl, rfl⟩
      · exact nofun
      · exact fun _ he => hne (List.cons.inj he).1

theorem natural?_ofNat (n : Nat) :
    natural? (ofNat n) = if (ofNat n).length ≤ maxDigits then some n else none := by
  obtain ⟨hdigits, hlen⟩ := digits?_eq_some (ofNat_ne_nil n) fun c hc => exists_digit_of_mem_ofNat hc
  rw [natural?, hdigits]
  simp only [hlen, digitsValue_ofNat]

/-- The text of an integer is read as no other, and only if it may be written. -/
theorem readInt?_intText_eq_some {m n : Int} :
    readInt? (intText n) = some m ↔ m = n ∧ isWritable n = true := by
  have hvalue : (if n < 0 then -(n.natAbs : Int) else n.natAbs) = n := by
    split <;> omega
  rw [readInt?, intText, String.toList_ofList, integer?_eq_some,
    trim_eq_self fun c => isBlank_of_mem_ofInt, splitSign_ofInt, natural?_ofNat, isWritable]
  simp only [decide_eq_true_eq]
  by_cases hlen : (ofNat n.natAbs).length ≤ maxDigits
  · simp only [if_pos hlen, Option.some.injEq, exists_eq_left', hvalue, and_iff_left hlen]
  · rw [if_neg hlen]
    refine iff_of_false ?_ fun h => hlen h.2
    rintro ⟨_, ⟨⟩, -⟩

/-- **The text of an integer that may be written is read as that integer.** -/
theorem readInt?_intText {n : Int} (h : isWritable n = true) : readInt? (intText n) = some n :=
  readInt?_intText_eq_some.mpr ⟨rfl, h⟩

/-! ## Read integers -/

theorem length_ofNat_le {n k : Nat} (h : n < pow10 (k + 1)) : (ofNat n).length ≤ k + 1 := by
  induction n using ofNat.induct generalizing k with
  | case1 n hn =>
    rw [ofNat, if_pos hn]
    simp
  | case2 n hn ih =>
    cases k with
    | zero => exact absurd h hn
    | succ k =>
      rw [pow10_succ] at h
      have := ih (k := k) (by omega)
      rw [ofNat, if_neg hn, List.length_append, List.length_singleton]
      omega

theorem digitsValue_lt {ds : List Nat} (h : ∀ d ∈ ds, d < 10) : digitsValue ds < pow10 ds.length := by
  induction ds using List.reverseRecOn with
  | nil => decide
  | append_singleton ds d ih =>
    have hds := ih fun x hx => h x (List.mem_append_left _ hx)
    have hd := h d (by simp)
    rw [digitsValue_append_one, List.length_append, List.length_singleton, pow10_succ]
    omega

theorem digits?_lt {s : List Char} {ds : List Nat} (h : digits? s = some ds) :
    ds ≠ [] ∧ ∀ d ∈ ds, d < 10 := by
  fun_induction digits? s generalizing ds with
  | case1 => exact nomatch h
  | case2 c =>
    obtain ⟨d, hd, rfl⟩ := Option.map_eq_some_iff.mp h
    simpa using digitValue?_lt hd
  | case3 c rest d ds' hrest hc ih =>
    obtain rfl := Option.some.inj h
    exact ⟨nofun, List.forall_mem_cons.mpr ⟨digitValue?_lt hc, (ih hrest).2⟩⟩
  | case4 => exact nomatch h
  | case5 c rest _ _ d ds' hrest hc ih =>
    obtain rfl := Option.some.inj h
    exact ⟨nofun, List.forall_mem_cons.mpr ⟨digitValue?_lt hc, (ih hrest).2⟩⟩
  | case6 => exact nomatch h

theorem length_of_natural? {s : List Char} {n : Nat} (h : natural? s = some n) :
    (ofNat n).length ≤ maxDigits := by
  unfold natural? at h
  split at h
  · next ds hds =>
    obtain ⟨hne, hlt⟩ := digits?_lt hds
    split at h
    · next hlen =>
      obtain rfl := Option.some.inj h
      obtain ⟨k, hk⟩ := Nat.exists_eq_succ_of_ne_zero fun h0 => hne (List.length_eq_zero_iff.mp h0)
      have hvalue := digitsValue_lt hlt
      rw [hk] at hvalue hlen
      exact Nat.le_trans (length_ofNat_le hvalue) hlen
    · exact nomatch h
  · exact nomatch h

/-- **An integer that is read may be written.** -/
theorem isWritable_of_readInt? {s : String} {n : Int} (h : readInt? s = some n) :
    isWritable n = true := by
  obtain ⟨m, hm, hn⟩ := integer?_eq_some.mp h
  have habs : n.natAbs = m := by
    rw [hn]
    split
    · exact Int.natAbs_neg m
    · rfl
  rw [isWritable, habs]
  exact decide_eq_true (length_of_natural? hm)

end AsmLens.Text
