import AsmLens.Proofs.CommandLine.Offline
import AsmLens.Proofs.Settings.Derailment

/-!
# Loading settings

A settings file whose text is read makes settings that pass the checks, or is reported on as a problem
with settings. What comes between are the settings that derail: such a file ends the command that
loads it in a fault. This is so whatever value the parser of settings files makes of the text.

* `Settings.load_eq_bind` — loading a file is reading the value that it holds
* `Settings.load_ne_fault` — sections that are mappings never end in a fault
* `CommandLine.settings_loaded` — how loading ends, for whatever value a file holds
-/

namespace AsmLens

open Yaml

namespace Settings

variable {parser : Parser} {folder : Folder} {path : String} {chosen url : Option String} {v : Value}
  {s : Settings} {f : Fault} {es : List (Value × Value)}

/-! ## Derailed settings -/

theorem Uneven.not_mistyped {n : Nat} {vs : List Value} (h : Uneven n vs f) : ¬Mistyped f := by
  induction h with
  | here => exact nofun
  | later _ _ ih => exact ih

/-- Settings derail with a fault that is not about the type of a value. -/
theorem Derails.not_mistyped (h : Derails es f) : ¬Mistyped f := by
  cases h with
  | compiler h =>
    cases h with
    | unpaired h =>
      obtain ⟨-, vs, -, h⟩ := h
      exact h.not_mistyped
    | steps => exact nofun
    | unshown => exact nofun
  | symexec _ h =>
    cases h with
    | unpaired h =>
      obtain ⟨-, vs, -, h⟩ := h
      exact h.not_mistyped
    | unshown => exact nofun
  | service _ _ h =>
    obtain ⟨-, vs, -, h⟩ := h
    exact h.not_mistyped

/-- A text in the place of a section derails. -/
theorem unpaired_text {t : String} (h : t ≠ "") :
    Unpaired ((Value.text t).orElse (.mapping [])) (.pairLength 0 1) := by
  have hblank : (Value.text t).isBlank = false := by simp [Value.isBlank, h]
  rw [Value.orElse, hblank]
  refine ⟨by rintro _ ⟨⟩, _, rfl, ?_⟩
  cases ht : t.toList with
  | nil => exact absurd (String.toList_eq_nil_iff.mp ht) h
  | cons c cs =>
    have hc : elements (.text (String.singleton c)) = .ok [.text (String.singleton c)] := by
      simp [elements]
    exact .here hc (by simp)

/-! ## Values of files -/

theorem readFrom_eq_fault : (readFrom path v).outcome = .error (.fault f) ↔
    ∃ es, v.orElse (.mapping []) = .mapping es ∧ Derails es f := by
  unfold readFrom
  split
  · next es hes =>
    have hderails : (∃ es, v.orElse (.mapping []) = .mapping es ∧ Derails es f) ↔ Derails es f :=
      ⟨fun ⟨_, h, hd⟩ => Value.mapping.inj (hes.symm.trans h) ▸ hd, fun hd => ⟨es, hes, hd⟩⟩
    rw [hderails]
    dsimp only
    split
    · next g hg =>
      split
      · next htype =>
        refine iff_of_false nofun fun hd => hd.not_mistyped ?_
        have h := (read_eq_fault hd.not_mistyped).mpr hd
        rwa [← Failure.fault.inj (Except.error.inj (hg.symm.trans h))]
      · next htype =>
        constructor
        · intro h
          obtain rfl := Failure.fault.inj (Except.error.inj (hg.symm.trans h))
          exact (read_eq_fault htype).mp h
        · exact fun hd => (read_eq_fault hd.not_mistyped).mpr hd
    · next hno =>
      constructor
      · exact fun h => absurd h (hno f)
      · exact fun hd => (read_eq_fault hd.not_mistyped).mpr hd
  · next hother =>
    refine iff_of_false nofun ?_
    rintro ⟨es, hes, -⟩
    exact hother es hes

theorem valid_of_readFrom (h : (readFrom path v).outcome = .ok s) : s.Valid := by
  unfold readFrom at h
  split at h
  · dsimp only at h
    split at h
    · split at h
      · exact nomatch h
      · exact valid_of_read h
    · exact valid_of_read h
  · exact nomatch h

theorem valid_withUrl (h : s.Valid) : (s.withUrl url).Valid := by
  unfold withUrl
  split
  · split
    · exact h
    · exact ⟨h.compiler, h.symexec⟩
  · exact h

/-! ## Files -/

theorem exists_resolve_of_fileValue (h : fileValue parser folder path = .ok v) :
    ∃ entry, folder.resolve path = .ok entry := by
  unfold fileValue at h
  split at h
  · exact nomatch h
  · next content hread =>
    obtain ⟨entry, hentry, -⟩ := FailsOnly.bind_eq_ok.mp hread
    exact ⟨entry, hentry⟩

/-- Loading a file is reading the value that it holds. -/
theorem load_eq_bind (h : fileValue parser folder (filePath folder chosen) = .ok v) :
    (load folder chosen url parser).outcome =
      (readFrom (filePath folder chosen) v).outcome >>= fun s => .ok (s.withUrl url) := by
  obtain ⟨entry, hentry⟩ := exists_resolve_of_fileValue h
  unfold load
  dsimp only
  rw [hentry, h]
  show (readFrom (filePath folder chosen) v >>= _ : Traced Settings).outcome = _
  rw [Traced.outcome_bind]
  rfl

theorem load_eq_fault (h : fileValue parser folder (filePath folder chosen) = .ok v) :
    (load folder chosen url parser).outcome = .error (.fault f) ↔
      ∃ es, v.orElse (.mapping []) = .mapping es ∧ Derails es f := by
  rw [load_eq_bind h, FailsOnly.bind_eq_error, ← readFrom_eq_fault]
  exact or_iff_left fun ⟨_, _, h⟩ => nomatch h

/-- A settings file of orderly sections is never given up. -/
theorem load_ne_fault (h : fileValue parser folder (filePath folder chosen) = .ok v)
    (hv : ∀ es, v.orElse (.mapping []) = .mapping es → Orderly es) :
    (load folder chosen url parser).outcome ≠ .error (.fault f) := by
  intro hfault
  obtain ⟨es, hes, hderails⟩ := (load_eq_fault h).mp hfault
  exact (hv es hes).not_derails hderails

theorem valid_of_load (h : fileValue parser folder (filePath folder chosen) = .ok v)
    (hs : (load folder chosen url parser).outcome = .ok s) : s.Valid := by
  rw [load_eq_bind h] at hs
  obtain ⟨t, ht, hs⟩ := FailsOnly.bind_eq_ok.mp hs
  exact Except.ok.inj hs ▸ valid_withUrl (valid_of_readFrom ht)

end Settings

namespace CommandLine

open Settings (fileValue filePath load Derails)

variable {o : CompileOptions} {c : Console} {v : Value}

theorem fileValue_of_read {parser : Parser} {folder : Folder} {path text : String}
    (hread : folder.read path = .ok text.toUTF8)
    (htext : parser (Folder.unifyLines text.toList) = .ok v) : fileValue parser folder path = .ok v := by
  unfold fileValue
  rw [hread]
  refine FailsOnly.bind_eq_ok.mpr ⟨text, FailsOnly.liftFault_eq_ok.mpr (decode_toUTF8 text), ?_⟩
  rw [htext]
  rfl

theorem prepare_of_load {e : Failure}
    (h : (load c.folder o.settings c.serviceUrl c.parser).outcome = .error e) :
    (prepare o c).2 = .error e := by
  have hload : (loadSettings o c).2 = .error e := by
    unfold loadSettings
    rw [Action.bind_of_ok (d := c) (a := c) rfl]
    exact Action.bind_of_error h
  exact Action.bind_of_error hload

/-- Where the settings file is one whose text the parser reads, loading it makes settings that pass the
checks, or is reported on as a problem with settings, or ends in a fault. The last is so exactly if the
value that the text denotes derails, and then `compile` ends in that fault as well. -/
theorem settings_loaded (o : CompileOptions) (c : Console)
    (h : fileValue c.parser c.folder (filePath c.folder o.settings) = .ok v) :
    (∀ s, (load c.folder o.settings c.serviceUrl c.parser).outcome = .ok s → s.Valid) ∧
    (∀ p, (load c.folder o.settings c.serviceUrl c.parser).outcome = .error (.problem p) →
      p.report.kind = .settings ∧ (compile o c).2 = .ok Action.problemCode) ∧
    ∀ f, ((load c.folder o.settings c.serviceUrl c.parser).outcome = .error (.fault f) ↔
      ∃ es, v.orElse (.mapping []) = .mapping es ∧ Derails es f) ∧
        ((load c.folder o.settings c.serviceUrl c.parser).outcome = .error (.fault f) →
          (compile o c).2 = .error (.fault f)) := by
  refine ⟨fun s hs => ?_, fun p hp => ⟨?_, ?_⟩, fun f => ⟨?_, fun hf => ?_⟩⟩
  · exact Settings.valid_of_load h hs
  · exact (Settings.configured_load _ _ _ _ _ hp).2
  · exact Action.guarded_of_problem (prepare_of_load hp)
  · exact Settings.load_eq_fault h
  · exact Action.guarded_of_fault (prepare_of_load hf)

/-- A settings file with a text in the place of the compiler settings. -/
def misplacedText : String := "compiler: a"

theorem read_misplacedText : Yaml.read (Folder.unifyLines misplacedText.toList) =
    .ok (.mapping [(.text "compiler", .text "a")]) := by
  cbv

/-- A text in the place of the compiler settings ends `compile` in a fault. -/
theorem settings_loaded_misplaced :
    (compile ⟨"a", none, some "b", none, false, .int 600, false⟩ (furnished misplacedText)).2 =
      .error (.fault (.pairLength 0 1)) := by
  have hpath : filePath (furnished misplacedText).folder (some "b") = "b" := by cbv
  have hvalue : fileValue Yaml.read (furnished misplacedText).folder
      (filePath (furnished misplacedText).folder (some "b")) =
        .ok (.mapping [(.text "compiler", .text "a")]) := by
    rw [hpath]
    exact fileValue_of_read (read_furnished misplacedText).2.1 read_misplacedText
  obtain ⟨-, -, hfault⟩ := settings_loaded ⟨"a", none, some "b", none, false, .int 600, false⟩
    (furnished misplacedText) hvalue
  obtain ⟨hderails, hcompile⟩ := hfault (.pairLength 0 1)
  refine hcompile (hderails.mpr ⟨_, Value.orElse_mapping _, .compiler (.unpaired ?_)⟩)
  exact Settings.unpaired_text (by decide)

end CommandLine

end AsmLens
