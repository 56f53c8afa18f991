import AsmLens.Proofs.Gas.Merge
import AsmLens.Proofs.Syntax.Parameter
import AsmLens.Proofs.Gas.Failures

/-!
# Overloads and their selectors

The selectors that the compiler lists are found by the signatures that are computed from the types
of the parameters. So two overloads with different signatures have nothing to do with each other's
selectors, and two with one signature get one selector. Overloads that differ in array suffixes only
have different signatures, unless the suffixes stand behind a contract or an enumeration.

* `find?_functionIndex` — the label of a function in the index
* `Syntax.Declares` — a node that defines a function with parameters of given types
* `Syntax.Declares.signature_eq_iff` — which overloads have the same signature
* `overloads_told_apart` — what follows for their selectors
-/

namespace AsmLens

variable {tree ids : Doc} {f g : Syntax.Function}

/-! ## The index -/

/-- The selector that is listed for a signature. -/
def listed (ids : Doc) (signature : String) : Option String :=
  match ids.member? signature with
  | some (.text s) => some (canonicalSelector s)
  | _ => none

theorem lookup_readSelectors {selectors : List (String × String)} (h : readSelectors ids = .ok selectors)
    (signature : String) : selectors.lookup signature = listed ids signature := by
  unfold readSelectors at h
  split at h
  · obtain rfl := Except.ok.inj h
    rfl
  · next ms =>
    have hread := FailsOnly.mapM_eq_ok.mp h
    clear h
    induction hread with
    | nil => rfl
    | @cons m p ms ps hm _ ih =>
      split at hm
      · next s hs =>
        obtain rfl := Except.ok.inj hm
        obtain ⟨name, d⟩ := m
        obtain rfl : d = .text s := hs
        by_cases hn : name = signature
        · subst hn
          simp [listed, Doc.member?, Doc.lookup]
        · have hn' : (signature == name) = false := by simpa using Ne.symm hn
          rw [List.lookup_cons, hn', ih]
          simp [listed, Doc.member?, Doc.lookup, hn]
      · cases hm
  · cases h

/-- That of the functions of a tree with one range a function is the last, whose label counts. -/
def Syntax.Counts (tree : Doc) (f : Function) : Prop :=
  ∃ before after, functions tree = .ok (before ++ f :: after) ∧ ∀ h ∈ after, h.range ≠ f.range

theorem Syntax.functions_of_isBlank (h : tree.isBlank = true) : functions tree = .ok [] := by
  cases tree with
  | object ms =>
    obtain rfl : ms = [] := List.isEmpty_iff.mp h
    have hwalk : walk (.object []) = [.object []] := by with_unfolding_all rfl
    rw [functions, hwalk]
    rfl
  | _ => rfl

theorem eq_of_labelEntry {selectors : List (String × String)} {entry : String × FunctionLabel}
    (h : labelEntry selectors f = .ok entry) : entry = (f.range.key, labelOf selectors f) := by
  unfold labelEntry at h
  split at h
  · exact (Except.ok.inj h).symm
  · exact nomatch h

/-- In the index a function has the selector that is listed for its signature, or computed from it. -/
theorem find?_functionIndex {labels : Ledger String FunctionLabel}
    (h : functionIndex tree ids = .ok labels) (hf : Syntax.Counts tree f) :
    labels.find? f.range.key = some
      ⟨f.name, if f.isExternal then some ((listed ids f.signature).getD (selectorOf f.signature))
        else none⟩ := by
  obtain ⟨before, after, hfs, hlast⟩ := hf
  unfold functionIndex at h
  split at h
  · next hblank =>
    rw [Syntax.functions_of_isBlank hblank] at hfs
    exact absurd (Except.ok.inj hfs) (by simp)
  · obtain ⟨selectors, hselectors, h⟩ := FailsOnly.bind_eq_ok.mp h
    obtain ⟨fs, hfs', h⟩ := FailsOnly.bind_eq_ok.mp h
    obtain ⟨entries, hentries, h⟩ := FailsOnly.bind_eq_ok.mp h
    obtain rfl := Except.ok.inj h
    obtain rfl := Except.ok.inj (hfs'.symm.trans hfs)
    have hmap : entries =
        (before ++ f :: after).map fun g => (g.range.key, labelOf selectors g) := by
      have hread := FailsOnly.mapM_eq_ok.mp (FailsOnly.liftFault_eq_ok.mp hentries)
      rw [← List.forall₂_eq_eq_eq]
      exact ((List.forall₂_map_left_iff ..).mpr
        (hread.imp fun g e he => (eq_of_labelEntry he).symm)).flip.imp fun _ _ h => h.symm
    have hkey : f.range.key ∉ (after.map fun g => (g.range.key, labelOf selectors g)).map Prod.fst := by
      simp only [List.map_map, List.mem_map, Function.comp_apply]
      rintro ⟨g, hg, hk⟩
      exact hlast g hg (SourceRange.key_injective hk)
    rw [Ledger.find?_ofList, hmap, List.map_append, List.map_cons, Ledger.search_reverse hkey, labelOf,
      lookup_readSelectors (FailsOnly.liftProblem_eq_ok.mp hselectors)]

/-! ## Overloads -/

/-- A value that has a member is an object. -/
theorem Doc.eq_object_of_get {d v : Doc} {name : String} (h : d.get name = v) (hv : v ≠ .null) :
    ∃ ms, d = .object ms ∧ lookup name ms = some v := by
  cases d with
  | object ms =>
    cases hl : lookup name ms with
    | none => exact absurd (h.symm.trans (by simp [get, member?, hl])) hv
    | some w => exact ⟨ms, rfl, by rw [← h]; simp [get, member?, hl]⟩
  | _ => exact absurd h.symm hv

namespace Syntax

/-- That the type of a parameter has a text. -/
def TypedAs (parameter : Doc) (type : String) : Prop :=
  (parameter.get "typeDescriptions").get "typeString" = .text type

theorem TypedAs.canonicalType_eq {parameter : Doc} {type : String} (h : TypedAs parameter type) :
    canonicalType parameter = .ok (canonicalText type) := by
  obtain ⟨ns, hns, htype⟩ := Doc.eq_object_of_get h nofun
  obtain ⟨ms, rfl, hdescribed⟩ := Doc.eq_object_of_get hns nofun
  have hne : ns.isEmpty = false := by
    cases ns with
    | nil => exact nomatch htype
    | cons n ns => rfl
  have horElse : (Doc.object ns).orElse (.object []) = .object ns := by
    rw [Doc.orElse, Doc.isBlank, hne]
    rfl
  have hmember : (Doc.object ms).getMember "typeDescriptions" = .ok (.object ns) := by
    rw [Doc.getMember, hdescribed]
    rfl
  unfold canonicalType
  rw [hmember]
  simp only [bind, Except.bind, horElse, htype, Option.getD_some]
  rfl

/-- A node that defines a function with parameters of given types. -/
structure Declares (node : Doc) (f : Function) (ps : List ParameterType) : Prop where
  read : readFunction node = .ok f
  typed : ∃ ds, parametersOf node = .ok (.list ds) ∧
    List.Forall₂ (fun d p => TypedAs d (ParameterType.text p)) ds ps

namespace Declares

variable {m n : Doc} {ps qs : List ParameterType}

theorem types_eq (h : Declares m f ps) : f.types = ps.map fun p => canonicalText p.text := by
  obtain ⟨ds, hds, htyped⟩ := h.typed
  have hread := h.read
  rw [readFunction_eq] at hread
  obtain ⟨parameters, hparameters, hread⟩ := FailsOnly.bind_eq_ok.mp hread
  obtain ⟨range, -, hread⟩ := FailsOnly.bind_eq_ok.mp hread
  obtain ⟨types, htypes, hread⟩ := FailsOnly.bind_eq_ok.mp hread
  obtain rfl := Except.ok.inj hread
  obtain rfl := Except.ok.inj (hds.symm.trans (FailsOnly.liftFault_eq_ok.mp hparameters))
  have hcanonical : canonicalTypes (.list ds) = .ok (ps.map fun p => canonicalText p.text) := by
    refine FailsOnly.mapM_eq_ok.mpr ((List.forall₂_map_right_iff ..).mpr ?_)
    exact htyped.imp fun d p h => h.canonicalType_eq
  exact Except.ok.inj ((FailsOnly.liftFault_eq_ok.mp htypes).symm.trans hcanonical)

/--
Overloads that differ only in array suffixes and locations have the same signature if every parameter
that differs in its suffixes is of a contract or an enumeration, and only then.
-/
theorem signature_eq_iff (hm : Declares m f ps) (hn : Declares n g qs) (hname : f.name = g.name)
    (hbase : List.Forall₂ (fun p q => p.base = q.base) ps qs) :
    f.signature = g.signature ↔
      List.Forall₂ (fun p q => p.IsReplaced ∨ p.arrays = q.arrays) ps qs := by
  rw [← ParameterType.intercalate_eq_iff hbase, Function.signature, Function.signature, hname,
    hm.types_eq, hn.types_eq, String.append_left_inj, String.append_right_inj]

end Declares

end Syntax

/-! ## Selectors -/

/-- That whatever is listed for the signature of one function, the label of another is the same. -/
def Unaffected (tree : Doc) (f g : Syntax.Function) : Prop :=
  ∀ ids ids' labels labels', (∀ s, s ≠ g.signature → ids.member? s = ids'.member? s) →
    functionIndex tree ids = .ok labels → functionIndex tree ids' = .ok labels' →
    labels.find? f.range.key = labels'.find? f.range.key

/-- That two functions get one selector, whatever is listed. -/
def Confused (tree : Doc) (f g : Syntax.Function) : Prop :=
  ∀ ids labels, functionIndex tree ids = .ok labels → ∃ s,
    labels.find? f.range.key = some ⟨f.name, some s⟩ ∧ labels.find? g.range.key = some ⟨g.name, some s⟩

theorem unaffected_of_signature_ne (hf : Syntax.Counts tree f) (h : f.signature ≠ g.signature) :
    Unaffected tree f g := by
  intro ids ids' labels labels' hagree hl hl'
  have hlisted : listed ids f.signature = listed ids' f.signature := by
    rw [listed, hagree _ h, listed]
  rw [find?_functionIndex hl hf, find?_functionIndex hl' hf, hlisted]

theorem confused_of_signature_eq (hf : Syntax.Counts tree f) (hg : Syntax.Counts tree g)
    (hfe : f.isExternal = true) (hge : g.isExternal = true) (h : f.signature = g.signature) :
    Confused tree f g := by
  intro ids labels hl
  refine ⟨(listed ids f.signature).getD (selectorOf f.signature), ?_, ?_⟩
  · rw [find?_functionIndex hl hf, if_pos hfe]
  · rw [find?_functionIndex hl hg, if_pos hge, h]

/--
**Overloads are told apart by the array suffixes of all types but contracts and enumerations.** The
location of a parameter plays no part in its canonical type. Two overloads that differ only in array
suffixes and locations have the same signature exactly if each parameter with other suffixes is of a
contract or an enumeration. If their signatures differ, neither gets what is listed for the other;
if not, both get one selector.
-/
theorem overloads_told_apart (m n : Doc) (f g : Syntax.Function) (ps qs : List Syntax.ParameterType) :
    (∀ (p : Syntax.ParameterType) (located bare : Doc), Syntax.TypedAs located p.text →
      Syntax.TypedAs bare p.bare →
      ∃ t, Syntax.canonicalType located = .ok t ∧ Syntax.canonicalType bare = .ok t) ∧
    (Syntax.Declares m f ps → Syntax.Declares n g qs → f.name = g.name →
      List.Forall₂ (fun p q => p.base = q.base) ps qs →
      (f.signature = g.signature ↔
        List.Forall₂ (fun p q => p.IsReplaced ∨ p.arrays = q.arrays) ps qs) ∧
      ∀ tree, Syntax.Counts tree f → Syntax.Counts tree g →
        (f.signature ≠ g.signature → Unaffected tree f g ∧ Unaffected tree g f) ∧
        (f.signature = g.signature → f.isExternal = true → g.isExternal = true →
          Confused tree f g)) := by
  constructor
  · intro p located bare hlocated hbare
    refine ⟨Syntax.canonicalText p.bare, ?_, hbare.canonicalType_eq⟩
    rw [hlocated.canonicalType_eq, p.canonicalText_text]
  · intro hm hn hname hbase
    refine ⟨hm.signature_eq_iff hn hname hbase, fun tree hf hg => ⟨fun h => ?_, ?_⟩⟩
    · exact ⟨unaffected_of_signature_ne hf h, unaffected_of_signature_ne hg h.symm⟩
    · exact fun h hfe hge => confused_of_signature_eq hf hg hfe hge h

/-- A function with one parameter. -/
def overloadDoc (src type : String) : Doc :=
  .object [("nodeType", .text "FunctionDefinition"), ("name", .text "f"), ("kind", .text "function"),
    ("visibility", .text "external"), ("src", .text src),
    ("parameters", .object [("parameters", .list
      [.object [("typeDescriptions", .object [("typeString", .text type)])]])])]

/-- Two overloads of it. -/
def overloadsDoc (type type' : String) : Doc :=
  .object [("nodeType", .text "SourceUnit"),
    ("nodes", .list [overloadDoc "0:3:0" type, overloadDoc "4:3:0" type'])]

/-- The function that such a node defines. -/
def overload (range : SourceRange) (type : String) : Syntax.Function :=
  ⟨.text "f", .text "function", .text "external", range, [Syntax.canonicalText type]⟩

theorem readFunction_overloadDoc {src type : String} {b l file : Int}
    (h : Syntax.DeclaredAt (overloadDoc src type) b l file) :
    Syntax.readFunction (overloadDoc src type) = .ok (overload ⟨b, b + l⟩ type) := by
  rw [Syntax.readFunction_eq, Syntax.rangeOf_eq h]
  rfl

/-- That the overloads stand in lines of three bytes. -/
theorem readFunction_lines (type : String) :
    Syntax.readFunction (overloadDoc "0:3:0" type) = .ok (overload ⟨0, 3⟩ type) ∧
      Syntax.readFunction (overloadDoc "4:3:0" type) = .ok (overload ⟨4, 7⟩ type) := by
  have hfirst : Syntax.DeclaredAt (overloadDoc "0:3:0" type) 0 3 0 :=
    ⟨"0:3:0", "0", "3", "0", rfl, SourceRange.parts_intercalate rfl (by simp) (by simp), rfl, rfl, rfl⟩
  have hsecond : Syntax.DeclaredAt (overloadDoc "4:3:0" type) 4 3 0 :=
    ⟨"4:3:0", "4", "3", "0", rfl, SourceRange.parts_intercalate rfl (by simp) (by simp), rfl, rfl, rfl⟩
  exact ⟨readFunction_overloadDoc hfirst, readFunction_overloadDoc hsecond⟩

theorem functions_overloadsDoc (type type' : String) :
    Syntax.functions (overloadsDoc type type') =
      .ok [overload ⟨0, 3⟩ type, overload ⟨4, 7⟩ type'] := by
  have hnodes : [overloadsDoc type type'].flatMap Syntax.children =
      [overloadDoc "0:3:0" type, overloadDoc "4:3:0" type'] := rfl
  have hleaves : [overloadDoc "0:3:0" type, overloadDoc "4:3:0" type'].flatMap Syntax.children = [] :=
    rfl
  have hwalk : Syntax.walk (overloadsDoc type type') =
      [overloadsDoc type type', overloadDoc "0:3:0" type, overloadDoc "4:3:0" type'] := by
    show Syntax.levels [overloadsDoc type type'] = _
    rw [Syntax.levels, hnodes, Syntax.levels, hleaves, Syntax.levels]
    rfl
  have hfilter : [overloadsDoc type type', overloadDoc "0:3:0" type, overloadDoc "4:3:0" type'].filter
      (Syntax.hasType · "FunctionDefinition") =
      [overloadDoc "0:3:0" type, overloadDoc "4:3:0" type'] := rfl
  rw [Syntax.functions, hwalk, hfilter, List.mapM_cons, (readFunction_lines type).1, List.mapM_cons,
    (readFunction_lines type').2]
  rfl

/-- Selectors for an address and for an array of addresses. -/
def addressSelectors : Doc :=
  .object [("f(address)", .text "aaaaaaaa"), ("f(address[])", .text "bbbbbbbb")]

theorem exists_functionIndex_overloadsDoc (type type' : String) :
    ∃ labels, functionIndex (overloadsDoc type type') addressSelectors = .ok labels := by
  obtain ⟨selectors, hselectors⟩ : ∃ selectors, readSelectors addressSelectors = .ok selectors :=
    ⟨_, rfl⟩
  have hwritable : ∀ range : SourceRange, range = ⟨0, 3⟩ ∨ range = ⟨4, 7⟩ →
      (Text.isWritable range.first && Text.isWritable range.last) = true := by
    rintro _ (rfl | rfl) <;> decide +kernel
  obtain ⟨entries, hentries⟩ : ∃ entries, [overload ⟨0, 3⟩ type, overload ⟨4, 7⟩ type'].mapM
      (labelEntry selectors) = .ok entries :=
    ⟨_, FailsOnly.mapM_eq_ok.mpr (.cons (if_pos (hwritable _ (.inl rfl)))
      (.cons (if_pos (hwritable _ (.inr rfl))) .nil))⟩
  have hblank : (overloadsDoc type type').isBlank = false := rfl
  unfold functionIndex
  rw [hblank, hselectors, functions_overloadsDoc]
  exact ⟨_, FailsOnly.bind_eq_ok.mpr ⟨selectors, rfl, FailsOnly.bind_eq_ok.mpr ⟨_, rfl,
    FailsOnly.bind_eq_ok.mpr ⟨entries, FailsOnly.liftFault_eq_ok.mpr hentries, rfl⟩⟩⟩⟩

theorem counts_overloadsDoc (type type' : String) :
    Syntax.Counts (overloadsDoc type type') (overload ⟨0, 3⟩ type) ∧
      Syntax.Counts (overloadsDoc type type') (overload ⟨4, 7⟩ type') := by
  refine ⟨⟨[], _, functions_overloadsDoc type type', ?_⟩,
    ⟨[_], [], functions_overloadsDoc type type', nofun⟩⟩
  intro h hmem
  rw [List.mem_singleton.mp hmem]
  exact (by decide : (⟨4, 7⟩ : SourceRange) ≠ ⟨0, 3⟩)

theorem declares_overloadDoc {src type : String} {range : SourceRange} {p : Syntax.ParameterType}
    (h : Syntax.readFunction (overloadDoc src type) = .ok (overload range type)) (hp : p.text = type) :
    Syntax.Declares (overloadDoc src type) (overload range type) [p] :=
  ⟨h, ⟨_, rfl, .cons (congrArg Doc.text hp.symm) .nil⟩⟩

theorem plain_contract : Syntax.Plain "contract X" := by decide +kernel

theorem plain_number : Syntax.Plain "uint256" := by decide +kernel

/-- The type of a value with a plain base. -/
def valueType (base : String) (plain : Syntax.Plain base) : Syntax.ParameterType :=
  ⟨base, [], "", plain, List.mem_cons_self⟩

/-- The type of an array of them in memory. -/
def arrayType (base : String) (plain : Syntax.Plain base) : Syntax.ParameterType :=
  ⟨base, [none], " memory", plain, by decide⟩

/-- A function of a contract and one of an array of contracts get one selector; numbers do not. -/
theorem overloads_told_apart_contracts :
    (∃ labels s, functionIndex (overloadsDoc "contract X" "contract X[] memory") addressSelectors =
        .ok labels ∧
      labels.find? "0:3" = some ⟨.text "f", some s⟩ ∧
      labels.find? "4:7" = some ⟨.text "f", some s⟩) ∧
    (overload ⟨0, 3⟩ "uint256").signature ≠ (overload ⟨4, 7⟩ "uint256[] memory").signature := by
  have hkeys : SourceRange.key ⟨0, 3⟩ = "0:3" ∧ SourceRange.key ⟨4, 7⟩ = "4:7" := by decide +kernel
  constructor
  · obtain ⟨hf, hg⟩ := counts_overloadsDoc "contract X" "contract X[] memory"
    obtain ⟨labels, hl⟩ := exists_functionIndex_overloadsDoc "contract X" "contract X[] memory"
    have hvalue : (valueType _ plain_contract).text = "contract X" := by decide +kernel
    have harray : (arrayType _ plain_contract).text = "contract X[] memory" := by decide +kernel
    obtain ⟨heq, hselectors⟩ := (overloads_told_apart _ _ _ _ _ _).2
      (declares_overloadDoc (readFunction_lines "contract X").1 hvalue)
      (declares_overloadDoc (readFunction_lines "contract X[] memory").2 harray) rfl (.cons rfl .nil)
    have hsame := heq.mpr (.cons (.inl (by decide +kernel)) .nil)
    obtain ⟨s, hfirst, hsecond⟩ := (hselectors _ hf hg).2 hsame rfl rfl addressSelectors labels hl
    exact ⟨labels, s, hl, hkeys.1 ▸ hfirst, hkeys.2 ▸ hsecond⟩
  · have hvalue : (valueType _ plain_number).text = "uint256" := by decide +kernel
    have harray : (arrayType _ plain_number).text = "uint256[] memory" := by decide +kernel
    obtain ⟨heq, -⟩ := (overloads_told_apart _ _ _ _ _ _).2
      (declares_overloadDoc (readFunction_lines "uint256").1 hvalue)
      (declares_overloadDoc (readFunction_lines "uint256[] memory").2 harray) rfl (.cons rfl .nil)
    intro hsame
    have hparameter := (List.forall₂_cons.mp (heq.mp hsame)).1
    exact absurd hparameter (by decide +kernel)

end AsmLens
