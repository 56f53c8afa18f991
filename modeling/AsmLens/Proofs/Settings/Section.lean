import AsmLens.Proofs.Failure
import AsmLens.Settings.Basic

/-!
# What a section of settings holds

A section is taken for settings exactly if it is a mapping all of whose keys are texts: names that it
does not know are left aside, with a warning that lists them. What such a section sets depends on
what it has under the names that it knows, and on nothing else.

* `Settings.knownEntries_eq_ok` — which sections are taken
* `Settings.knownEntries_of_named` — a section of known names is taken without a word
* `Settings.SetsAlike` — entries that have the same under some names
-/

namespace AsmLens

namespace Yaml.Value

/-- A text. -/
def IsText (v : Value) : Prop := ∃ s, v = .text s

theorem IsText.isKey {v : Value} (h : v.IsText) : v.isKey = true := by
  obtain ⟨s, rfl⟩ := h
  rfl

/-- A value that is the same key as a text is a text. -/
theorem IsText.of_sameKey {k j : Value} (hk : k.IsText) (h : k.sameKey j = true) : j.IsText := by
  obtain ⟨s, rfl⟩ := hk
  cases j with
  | text t => exact ⟨t, rfl⟩
  | _ => exact nomatch h

theorem orElse_mapping (es : List (Value × Value)) :
    (mapping es).orElse (mapping []) = mapping es := by
  cases es <;> rfl

end Yaml.Value

namespace Settings

open Yaml

variable {label : String} {names : List String} {keys : List Value} {es es' : List (Value × Value)}

/-! ## Names -/

theorem isText_of_isNamed {k : Value} (h : isNamed names k = true) : k.IsText := by
  cases k with
  | text s => exact ⟨s, rfl⟩
  | _ => exact nomatch h

theorem forall_isText_distinct :
    (∀ k ∈ distinct keys, k.IsText) ↔ ∀ k ∈ keys, k.IsText := by
  induction keys with
  | nil => exact Iff.rfl
  | cons k ks ih =>
    rw [distinct, List.forall_mem_cons, List.forall_mem_cons, ← ih]
    refine and_congr_right fun hk => ⟨fun h j hj => ?_, fun h j hj => h j (List.mem_filter.mp hj).1⟩
    -- what was taken out is the same key as a text
    cases hkj : k.sameKey j with
    | true => exact hk.of_sameKey hkj
    | false => exact h j (List.mem_filter.mpr ⟨hj, by simp [hkj]⟩)

theorem exists_names?_iff : (∃ ns, names? keys = some ns) ↔ ∀ k ∈ keys, k.IsText := by
  induction keys with
  | nil => exact iff_of_true ⟨[], rfl⟩ nofun
  | cons k ks ih =>
    rw [List.forall_mem_cons, ← ih, names?, List.mapM_cons]
    cases k with
    | text s =>
      cases hks : names? ks with
      | none => simp [names?] at hks ⊢; simp [hks]
      | some ns => simp [names?] at hks ⊢; simp [hks, Value.IsText]
    | _ => simp [Value.IsText]

/-- Names are listed if all of them are texts. -/
theorem exists_listed_iff : (∃ s, listed keys = .ok s) ↔ ∀ k ∈ keys, k.IsText := by
  cases keys with
  | nil => exact iff_of_true ⟨"", rfl⟩ nofun
  | cons k ks =>
    rw [← exists_names?_iff, listed]
    cases names? (k :: ks) with
    | some ns => exact iff_of_true ⟨_, rfl⟩ ⟨ns, rfl⟩
    | none =>
      refine iff_of_false ?_ (by rintro ⟨_, ⟨⟩⟩)
      rintro ⟨s, h⟩
      obtain ⟨j, -, h⟩ := FailsOnly.bind_eq_ok.mp h
      cases h

/-- A fault about the type of a value. -/
def Mistyped (f : Fault) : Prop := f.kind = .type

theorem mistyped_atomPrecedes (a b : Value) : FailsOnly Mistyped (atomPrecedes a b) := by
  unfold atomPrecedes
  split
  · exact .ok _
  · exact .ok _
  · exact .ok _
  · split
    · exact .ok _
    · exact .error rfl
  · exact .error rfl
  · exact .error rfl
  · split
    · exact .ok _
    · exact .error rfl

mutual

theorem mistyped_precedes (a b : Value) : FailsOnly Mistyped (precedes a b) := by
  unfold precedes
  split
  · next xs ys => exact mistyped_partsPrecede xs ys
  · exact mistyped_atomPrecedes a b

theorem mistyped_partsPrecede : (xs ys : List Value) → FailsOnly Mistyped (partsPrecede xs ys)
  | [], _ => .ok _
  | _ :: _, [] => .ok _
  | x :: xs, y :: ys => by
    unfold partsPrecede
    split
    · exact mistyped_partsPrecede xs ys
    · exact mistyped_precedes x y

end

theorem mistyped_leastKey (first : Value) (rest : List Value) :
    FailsOnly Mistyped (leastKey first rest) := by
  unfold leastKey
  induction rest generalizing first with
  | nil => exact .ok _
  | cons k ks ih =>
    rw [List.foldlM_cons]
    exact ((mistyped_precedes _ _).bind fun _ _ => .ok _).bind fun _ _ => ih _

theorem mistyped_listed (keys : List Value) : FailsOnly Mistyped (listed keys) := by
  unfold listed
  split
  · exact .ok _
  · split
    · exact .ok _
    · exact (mistyped_leastKey _ _).bind fun _ _ => .error rfl

theorem mistyped_warnings (label : String) (keys : List Value) :
    FailsOnly Mistyped (warnings label keys) := by
  unfold warnings
  split
  · exact .ok _
  · exact (mistyped_listed keys).bind fun _ _ => .ok _

theorem exists_warnings_iff : (∃ ns, warnings label keys = .ok ns) ↔ ∀ k ∈ keys, k.IsText := by
  unfold warnings
  cases keys with
  | nil => exact iff_of_true ⟨[], rfl⟩ nofun
  | cons k ks =>
    rw [← exists_listed_iff]
    constructor
    · rintro ⟨ns, h⟩
      obtain ⟨s, hs, -⟩ := FailsOnly.bind_eq_ok.mp h
      exact ⟨s, hs⟩
    · rintro ⟨s, hs⟩
      exact ⟨_, FailsOnly.bind_eq_ok.mpr ⟨s, hs, rfl⟩⟩

/-- The unknown ones among some keys are texts if all keys are. -/
theorem forall_isText_unknown :
    (∀ k ∈ distinct (keys.filter fun k => !isNamed names k), k.IsText) ↔
      ∀ k ∈ keys, k.IsText := by
  rw [forall_isText_distinct]
  refine ⟨fun h k hk => ?_, fun h k hk => h k (List.mem_filter.mp hk).1⟩
  cases hn : isNamed names k with
  | true => exact isText_of_isNamed hn
  | false => exact h k (List.mem_filter.mpr ⟨hk, by simp [hn]⟩)

/-! ## Sections -/

theorem sectionKeys_eq_ok {v : Value} (htext : ∀ k ∈ keys, k.IsText) :
    sectionKeys v = .ok keys ↔ elements v = .ok keys := by
  unfold sectionKeys
  rw [FailsOnly.bind_eq_ok]
  have hkeys : keys.findSome? Value.keyFlaw? = none :=
    List.findSome?_eq_none_iff.mpr fun k hk => Option.isNone_iff_eq_none.mp (htext k hk).isKey
  constructor
  · rintro ⟨ks, hks, h⟩
    split at h
    · exact nomatch h
    · rw [← Except.ok.inj h, hks]
  · exact fun h => ⟨keys, h, by rw [hkeys]; rfl⟩

theorem mistyped_elements (v : Value) : FailsOnly Mistyped (elements v) := by
  cases v with
  | list | tuple | set | bytes | text | mapping => exact .ok _
  | _ => exact .error rfl

theorem mistyped_sectionKeys (v : Value) : FailsOnly Mistyped (sectionKeys v) := by
  refine (mistyped_elements v).bind fun keys _ => ?_
  split
  · exact .error rfl
  · exact .ok _

/-- A section is taken if it is a mapping from texts. -/
theorem knownEntries_eq_ok {v : Value} :
    (knownEntries label names v).outcome = .ok es ↔ v = .mapping es ∧ ∀ e ∈ es, e.1.IsText := by
  have htexts : (∀ e ∈ es, e.1.IsText) ↔ ∀ k ∈ es.map Prod.fst, k.IsText := by
    simp [Value.IsText]
  unfold knownEntries
  constructor
  · intro h
    obtain ⟨keys, hkeys, h⟩ := Traced.outcome_bind_eq_ok.mp h
    obtain ⟨notes, hnotes, h⟩ := Traced.outcome_bind_eq_ok.mp h
    obtain ⟨-, -, h⟩ := Traced.outcome_bind_eq_ok.mp h
    have hunknown := exists_warnings_iff.mp ⟨notes, Traced.outcome_liftFault_eq_ok.mp hnotes⟩
    have hall := forall_isText_unknown.mp hunknown
    have helements := (sectionKeys_eq_ok hall).mp (Traced.outcome_liftFault_eq_ok.mp hkeys)
    cases v with
    | mapping es' =>
      obtain rfl := Except.ok.inj h
      obtain rfl := Except.ok.inj helements
      exact ⟨rfl, htexts.mpr hall⟩
    | _ => exact nomatch h
  · rintro ⟨rfl, htext⟩
    have hkeys : sectionKeys (.mapping es) = .ok (es.map Prod.fst) :=
      (sectionKeys_eq_ok (htexts.mp htext)).mpr rfl
    obtain ⟨notes, hnotes⟩ : ∃ notes, warnings label
        (distinct ((es.map Prod.fst).filter fun k => !isNamed names k)) = .ok notes :=
      exists_warnings_iff.mpr (forall_isText_unknown.mpr (htexts.mp htext))
    refine Traced.outcome_bind_eq_ok.mpr ⟨_, Traced.outcome_liftFault_eq_ok.mpr hkeys, ?_⟩
    refine Traced.outcome_bind_eq_ok.mpr ⟨_, Traced.outcome_liftFault_eq_ok.mpr hnotes, ?_⟩
    exact Traced.outcome_bind_eq_ok.mpr ⟨(), rfl, rfl⟩

/-- A section that is no mapping is given up once its names are listed, with a fault of another kind. -/
theorem knownEntries_eq_fault {v : Value} {f : Fault} (hf : ¬Mistyped f) :
    (knownEntries label names v).outcome = .error (.fault f) ↔
      (∀ es, v ≠ .mapping es) ∧ f = .noAttribute v.shape "items" ∧
        ∃ keys, elements v = .ok keys ∧ ∀ k ∈ keys, k.IsText := by
  unfold knownEntries
  constructor
  · intro h
    rw [Traced.outcome_bind] at h
    rcases FailsOnly.bind_eq_error.mp h with h | ⟨keys, hkeys, h⟩
    · obtain ⟨g, hg, he⟩ := FailsOnly.liftFault_eq_error.mp h
      obtain rfl := Failure.fault.inj he
      exact absurd (mistyped_sectionKeys v f hg) hf
    rw [Traced.outcome_bind] at h
    rcases FailsOnly.bind_eq_error.mp h with h | ⟨notes, hnotes, h⟩
    · obtain ⟨g, hg, he⟩ := FailsOnly.liftFault_eq_error.mp h
      obtain rfl := Failure.fault.inj he
      exact absurd (mistyped_warnings label _ f hg) hf
    have hunknown := exists_warnings_iff.mp ⟨notes, Traced.outcome_liftFault_eq_ok.mp hnotes⟩
    have hall := forall_isText_unknown.mp hunknown
    have helements := (sectionKeys_eq_ok hall).mp (Traced.outcome_liftFault_eq_ok.mp hkeys)
    cases v with
    | mapping es => exact nomatch h
    | _ => exact ⟨nofun, (Failure.fault.inj (Except.error.inj h)).symm, keys, helements, hall⟩
  · rintro ⟨hv, rfl, keys, helements, htext⟩
    have hkeys : sectionKeys v = .ok keys := (sectionKeys_eq_ok htext).mpr helements
    obtain ⟨notes, hnotes⟩ : ∃ notes, warnings label
        (distinct (keys.filter fun k => !isNamed names k)) = .ok notes :=
      exists_warnings_iff.mpr (forall_isText_unknown.mpr htext)
    rw [Traced.outcome_bind, Traced.outcome_liftFault_eq_ok.mpr hkeys]
    show (_ >>= _ : Traced _).outcome = _
    rw [Traced.outcome_bind, Traced.outcome_liftFault_eq_ok.mpr hnotes]
    cases v with
    | mapping es => exact absurd rfl (hv es)
    | _ => rfl

/-- A section of known names is taken without a word. -/
theorem knownEntries_of_named (h : ∀ e ∈ es, isNamed names e.1 = true) :
    knownEntries label names (.mapping es) = pure es := by
  have htext : ∀ k ∈ es.map Prod.fst, k.IsText := by
    simpa using fun e he => isText_of_isNamed (h e he)
  have hkeys : sectionKeys (.mapping es) = .ok (es.map Prod.fst) :=
    (sectionKeys_eq_ok htext).mpr rfl
  have hknown : (es.map Prod.fst).filter (fun k => !isNamed names k) = [] := by
    simpa using h
  unfold knownEntries
  rw [hkeys]
  show (liftM (warnings label (distinct ((es.map Prod.fst).filter fun k => !isNamed names k))) >>= _ :
    Traced (List (Value × Value))) = _
  rw [hknown]
  rfl

/-- What a section was written as is taken without a word. -/
theorem knownEntries_entriesFrom {label : String} {names : List String}
    {members : List (String × Value)} (h : members.map Prod.fst = names) :
    knownEntries label names (.mapping (entriesFrom members)) = pure (entriesFrom members) := by
  subst h
  refine knownEntries_of_named fun e he => ?_
  obtain ⟨m, hm, rfl⟩ := List.mem_map.mp he
  exact List.contains_iff_mem.mpr (List.mem_map_of_mem hm)

/-! ## What is set -/

theorem lookup_filter {keep : Value → Bool} {name : String} (h : keep (.text name) = true) :
    Value.lookup name (es.filter fun e => keep e.1) = Value.lookup name es := by
  induction es with
  | nil => rfl
  | cons e es ih =>
    obtain ⟨k, v⟩ := e
    by_cases hname : k = .text name
    · subst hname
      simp [h, Value.lookup]
    · have hskip : ∀ rest, Value.lookup name ((k, v) :: rest) = Value.lookup name rest := by
        intro rest
        cases k with
        | text s => exact if_neg fun hs => hname (congrArg Value.text hs)
        | _ => rfl
      rw [hskip, List.filter_cons]
      split
      · rw [hskip, ih]
      · exact ih

/-- Two mappings set the same values under some names. -/
def SetsAlike (names : List String) (es es' : List (Value × Value)) : Prop :=
  ∀ name ∈ names, Value.lookup name es' = Value.lookup name es

theorem SetsAlike.setting {names : List String} {es es' : List (Value × Value)}
    (h : SetsAlike names es es') {name : String} (hname : name ∈ names) (default : Value) :
    setting es' name default = setting es name default :=
  congrArg (Option.getD · default) (h name hname)

theorem setsAlike_filter {names : List String} (keep : Value → Bool)
    (h : ∀ name ∈ names, keep (.text name) = true) (es : List (Value × Value)) :
    SetsAlike names es (es.filter fun e => keep e.1) :=
  fun name hname => lookup_filter (h name hname)

end Settings

end AsmLens
