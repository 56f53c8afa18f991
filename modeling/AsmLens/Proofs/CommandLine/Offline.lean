import AsmLens.Proofs.CommandLine.Quiet
import AsmLens.Proofs.CommandLine.Showing
import AsmLens.Proofs.View.Showable
import Mathlib

/-!
# How the commands on files end

The commands that work on files alone end with a code: what is wrong with the files is told, and the
code is 1. This is so as long as the files keep to what the program takes for granted. Where a
compiler output has something else in place of an object, or a measurement is too large for a
floating-point number, the run may end in a fault.

* `Tame` — files in which nothing is amiss that is not reported
* `Tame.gives_load` — loading such files is no fault, and gives a table that can be shown
* `Ended` — how a command ends with a code
* `offline_ends` — the main result
-/

namespace AsmLens.CommandLine

open CommandLine.Action (Gives)

variable {Q : Fault → Prop} {c : Console} {found : Compilation} {t : RegionTable}

/-! ## Loading -/

/-- That a file, if it can be read, is text. -/
def HoldsText (folder : Folder) (path : String) : Prop :=
  ∀ content, folder.read path = .ok content → ∃ text, Folder.decode content = .ok text

/-- That a file, if it can be read, is text whose integers are not too long to be read and whose texts
hold no half of a surrogate pair, and that the document in it, if it is one, has a property. -/
def Holds (folder : Folder) (path : String) (P : Doc → Prop) : Prop :=
  ∀ content, folder.read path = .ok content → ∃ text, Folder.decode content = .ok text ∧
    match Json.read (Folder.unifyLines text.toList) with
    | .ok d => P d
    | .error e => e.complaint.fault? = none

theorem gives_readSource {path : String} (h : HoldsText c.folder path) :
    Gives Failure.Clean (Action.readSource path) c fun d _ => d = c := by
  refine .bind (J := fun d look => d = c ∧ look = c) ⟨rfl, rfl⟩ ?_
  rintro d look ⟨rfl, rfl⟩
  split
  · exact nofun
  · next content hread =>
    obtain ⟨text, htext⟩ := h content hread
    rw [htext]
    rfl

theorem gives_readDocument {path : String} {P : Doc → Prop} (h : Holds c.folder path P) :
    Gives Failure.Clean (Action.readDocument path) c fun d doc => d = c ∧ P doc := by
  refine .bind (J := fun d look => d = c ∧ look = c) ⟨rfl, rfl⟩ ?_
  rintro d look ⟨rfl, rfl⟩
  split
  · exact nofun
  · next content hread =>
    obtain ⟨text, htext, hdoc⟩ := h content hread
    refine .bind (J := fun d read => d = look ∧ read = text) ?_ ?_
    · rw [htext]
      exact ⟨rfl, rfl⟩
    · rintro d read ⟨rfl, rfl⟩
      split
      · next doc he =>
        rw [he] at hdoc
        exact ⟨rfl, hdoc⟩
      · next e he =>
        rw [he] at hdoc
        rw [hdoc]
        exact nofun

/-- What a command on files alone takes its table from. -/
structure Inputs where
  source : String
  compiled : String
  contract : Option String
  symexec : Option String
  json : Bool

/-- The file with measurements, if one is named. -/
def Inputs.measurements? (i : Inputs) : Option String := i.symexec.filter fun path => !path.isEmpty

/-- The table that a command on files alone works with. -/
def Inputs.load (i : Inputs) : Action (Compilation × RegionTable) :=
  loadTable i.source i.compiled i.contract i.symexec

/--
Files in which nothing is amiss that is not reported. They may be missing, and the documents in them
may lack anything, but what is there has the shape that the program takes for granted, and what is
measured is of moderate size. The measurements are read after some notes were told, which may have
changed the folder if there is a log file.
-/
structure Tame (c : Console) (i : Inputs) : Prop where
  source : HoldsText c.folder i.source
  compiled : Holds c.folder i.compiled fun d => Compilation.WellShaped (unwrapped d) ∧
    (i.measurements?.isSome = true → Compilation.Described (unwrapped d))
  symexec : ∀ path, i.measurements? = some path → ∀ notes : List (List Note),
    Holds (notes.foldl Console.tell c).folder path Doc.Measured

/-- A compilation and one of its tables, which can be shown. -/
structure Loaded (found : Compilation) (t : RegionTable) : Prop where
  showable : t.Showable
  found : ∃ u, found.find? t.contract = some u

theorem gives_loadCompilation {source compiled : String} {P : Doc → Prop}
    (hs : HoldsText c.folder source)
    (hd : Holds c.folder compiled fun d => Compilation.WellShaped (unwrapped d) ∧ P (unwrapped d)) :
    Gives Failure.Clean (loadCompilation source compiled) c fun d found =>
      (∃ notes : List (List Note), d = notes.foldl Console.tell c) ∧ ∃ text output,
        P output ∧ (Compilation.runBuild text output 0).outcome = .ok found := by
  refine .bind (gives_readSource hs) ?_
  rintro d text rfl
  refine .bind (gives_readDocument hd) ?_
  rintro d doc ⟨rfl, hshape, hp⟩
  refine .bind (J := fun e _ => e = d.tell [⟨.debug, "", loadedText source text compiled⟩]) rfl ?_
  rintro e - rfl
  refine Gives.imp (.traced (Compilation.clean_runBuild hshape text 0)) (fun _ he => he) ?_
  rintro e found ⟨rfl, hbuild⟩
  exact ⟨⟨[_, _], rfl⟩, text, unwrapped doc, hp, hbuild⟩

theorem gives_attachMeasurements {name path : String} (hc : found.find? name = some t)
    (hname : t.contract = name) (ht : t.Showable) (htree : Syntax.Describes found.tree)
    (hd : Holds c.folder path Doc.Measured) :
    Gives Failure.Clean (attachMeasurements found t path) c fun _ r => Loaded r.1 r.2 := by
  refine .bind (gives_readDocument hd) ?_
  rintro d doc ⟨rfl, hdoc⟩
  refine .bind (.traced (Measurements.clean_runRead hdoc)) ?_
  rintro e ms ⟨-, hms⟩
  refine .bind (.traced (t.clean_runMerge ms _ htree)) ?_
  rintro e u ⟨-, hu⟩
  refine .pure ⟨RegionTable.showable_runMerge ht htree (Measurements.moderate_of_runRead hdoc hms) hu,
    u, ?_⟩
  obtain ⟨-, labels, -, rfl⟩ := RegionTable.merge_eq_ok.mp (RegionTable.of_runMerge hu)
  have hkept : (t.attachAll labels ms).contract = t.contract := by rw [RegionTable.attachAll_eq]
  rw [hkept, Compilation.find?, Ledger.find?_update, if_pos rfl, hname]
  exact congrArg (Option.map _) hc

/-- Loading tame files is no fault, and gives a table that can be shown. -/
theorem Tame.gives_load {i : Inputs} (h : Tame c i) :
    Gives Failure.Clean i.load c fun _ r => Loaded r.1 r.2 := by
  refine .bind (gives_loadCompilation
    (P := fun output => i.measurements?.isSome = true → Compilation.Described output)
    h.source h.compiled) ?_
  rintro d found ⟨⟨notes, rfl⟩, text, output, hdescribed, hbuild⟩
  refine .bind (.problem (found.raises_choose i.contract)) ?_
  rintro e t ⟨rfl, ht⟩
  obtain ⟨name, hname⟩ := Compilation.find?_of_choose ht
  have hcontract := Compilation.contract_of_runBuild hbuild name t hname
  have hshow := Compilation.showable_runBuild hbuild name t hname
  split
  · next path hpath =>
    have htree := Compilation.describes_of_runBuild
      (hdescribed (Option.isSome_iff_exists.mpr ⟨path, hpath⟩)) hbuild
    exact gives_attachMeasurements hname hcontract hshow htree (h.symexec path hpath notes)
  · exact .pure ⟨hshow, t, hcontract ▸ hname⟩

/-! ## Commands -/

/-- What a command takes its table from, if that is files alone. -/
def Command.inputs? : Command → Option Inputs
  | .annotate o => some ⟨o.source, o.compiled, o.contract, o.symexec, o.json⟩
  | .resolve o => some ⟨o.source, o.compiled, o.contract, o.symexec, o.json⟩
  | .compile _ => none

/-- A table that was loaded can be shown. -/
theorem Loaded.shows (h : Loaded found t) : Shows (fun _ => False) found t where
  doc listing := by
    obtain ⟨u, hu⟩ := h.found
    unfold Compilation.toDoc
    split
    · exact .ok _
    · next name hname =>
      obtain ⟨hname, -⟩ := Option.filter_eq_some_iff.mp hname
      obtain rfl := Option.some.inj hname
      rw [hu]
      exact .ok _
  row r hr on := .of_exists ((h.showable.of_mem hr).exists_row on)
  functionRow f hf on := .of_exists (h.showable.exists_functionRow hf on)
  means r hr g hg := by
    obtain ⟨m, hm, -⟩ := GasRecord.exists_means ((h.showable.of_mem hr).gas g hg)
    exact .of_exists ⟨m, hm⟩
  rows r hr g hg := .of_exists (GasRecord.exists_rows ((h.showable.of_mem hr).gas g hg))

/-- How a command on files ends with a code: with 0 after it has shown a table, or with 1 after the
problem was told that loading the files ended in. -/
def Ended (k : Command) (i : Inputs) (c : Console) : Prop :=
  (∃ d r, i.load c = (d, .ok r) ∧ (runCommand k c).2 = .ok 0) ∨
    ∃ d p, i.load c = (d, .error (.problem p)) ∧ p.Own ∧
      runCommand k c = ((Action.tellProblem i.json p d).1, .ok 1)

/-- A command on files loads a table and shows it. -/
theorem Command.exists_show {k : Command} {i : Inputs} (hk : k.inputs? = some i) :
    ∃ present, runCommand k = Action.guarded i.json i.load present ∧
      ∀ Q c r, Shows Q r.1 r.2 → Gives (Faulty Q) (present r) c fun _ n => n = 0 := by
  cases k with
  | annotate o =>
    obtain rfl := Option.some.inj hk
    exact ⟨_, rfl, fun Q c r h => gives_showAnnotated h o⟩
  | resolve o =>
    obtain rfl := Option.some.inj hk
    exact ⟨_, rfl, fun Q c r h => gives_showResolved h o⟩
  | compile o => exact nomatch hk

/-- A failure that is a problem of the program's own or a fault with a property. -/
def Reportable (Q : Fault → Prop) : Failure → Prop
  | .problem p => p.Own
  | .fault f => Q f

/-- A command on files ends with a code, or in a fault that loading or showing meets. -/
theorem ended_or_fault {k : Command} {i : Inputs} (hk : k.inputs? = some i)
    (hload : Gives (Reportable Q) i.load c fun _ r => Shows Q r.1 r.2) :
    Ended k i c ∨ ∃ f, Q f ∧ (runCommand k c).2 = .error (.fault f) := by
  obtain ⟨present, hrun, hpresent⟩ := Command.exists_show hk
  unfold Ended
  rw [hrun]
  unfold Gives at hload
  unfold Action.guarded
  rcases hc : i.load c with ⟨d, (p | f) | r⟩
  · rw [hc] at hload
    have htell : (do Action.tellProblem i.json p; return Action.problemCode : Action Nat) d =
        ((Action.tellProblem i.json p d).1, .ok 1) := by
      cases i.json <;> rfl
    exact .inl (.inr ⟨d, p, rfl, hload, htell⟩)
  · rw [hc] at hload
    exact .inr ⟨f, hload, rfl⟩
  · rw [hc] at hload
    have hshow := hpresent Q d r hload
    unfold Gives at hshow
    dsimp only
    rcases hd : present r d with ⟨e, (p | f) | n⟩
    · rw [hd] at hshow
      exact hshow.elim
    · rw [hd] at hshow
      exact .inr ⟨f, hshow, rfl⟩
    · rw [hd] at hshow
      exact .inl (.inl ⟨d, r, rfl, congrArg Except.ok hshow⟩)

theorem gives_of_quiet {α : Type} {x : Action α} (hx : x.Quiet) :
    Gives Failure.Own x c fun _ _ => True := by
  have hfails := (hx c).2
  unfold Gives
  split
  · trivial
  · next d e h =>
    rw [h] at hfails
    exact hfails e rfl

/--
**A command on files ends with a code, unless the files are not what the program takes for granted.**
Whatever is in the files, the command shows a table and ends with 0, tells a problem and ends with 1,
or ends in a fault; a problem never goes unreported. If the files are tame, then it is one of the
codes. If the compiler output has contracts that are no object, it is a fault.
-/
theorem offline_ends {k : Command} {i : Inputs} (hk : k.inputs? = some i) (c : Console) :
    (Ended k i c ∨ ∃ f, (runCommand k c).2 = .error (.fault f)) ∧
    (Tame c i → Ended k i c) ∧
    ∀ text output contracts, Action.readSource i.source c = (c, .ok text) →
      Action.readDocument i.compiled c = (c, .ok output) →
      (unwrapped output).field? "contracts" = some contracts → contracts.shape ≠ .object →
      ((unwrapped output).field? "sources").isSome = true →
      (runCommand k c).2 = .error (.fault (.noAttribute contracts.shape "items")) := by
  refine ⟨?_, fun h => ?_, ?_⟩
  · have hload : Gives (Reportable fun _ => True) i.load c fun _ r => Shows (fun _ => True) r.1 r.2 :=
      (gives_of_quiet (quiet_loadTable _ _ _ _)).imp (fun e he => by cases e <;> exact he)
        fun _ r _ => shows_any r.1 r.2
    exact (ended_or_fault hk hload).imp id fun ⟨f, _, hf⟩ => ⟨f, hf⟩
  · have hload : Gives (Reportable fun _ => False) i.load c fun _ r => Shows (fun _ => False) r.1 r.2 :=
      h.gives_load.imp (fun e he => by cases e <;> exact he) fun _ _ hr => hr.shows
    exact (ended_or_fault hk hload).resolve_right fun ⟨_, hf, _⟩ => hf
  · intro text output contracts hs hd hc hshape hsources
    obtain ⟨present, hrun, -⟩ := Command.exists_show hk
    have hcompile : (loadCompilation i.source i.compiled c).2 =
        .error (.fault (.noAttribute contracts.shape "items")) := by
      unfold loadCompilation
      rw [Action.bind_of_ok hs, Action.bind_of_ok hd]
      exact Compilation.runBuild_of_contracts hc hshape hsources
    rw [hrun]
    exact Action.guarded_of_fault (Action.bind_of_error hcompile)

theorem decode_toUTF8 (s : String) : Folder.decode s.toUTF8 = .ok s := by
  have h : s.toUTF8.IsValidUTF8 := s.isValidUTF8
  unfold Folder.decode String.fromUTF8?
  rw [dif_pos h]
  rfl

/-- Notes change the folder only if there is a log file. -/
theorem folder_tellAll {c : Console} (h : c.log.logFile? = none) (notes : List (List Note)) :
    (notes.foldl Console.tell c).folder = c.folder := by
  induction notes generalizing c with
  | nil => rfl
  | cons ns notes ih =>
    have htell : (c.tell ns).folder = c.folder := by
      unfold Console.tell
      rw [h]
    exact (ih (c := c.tell ns) h).trans htell

theorem holds_of_read {folder : Folder} {path text : String} {d : Doc} {P : Doc → Prop}
    (hread : folder.read path = .ok text.toUTF8)
    (hdoc : Json.read (Folder.unifyLines text.toList) = .ok d) (hd : P d) : Holds folder path P := by
  intro content hcontent
  obtain rfl := Except.ok.inj (hread.symm.trans hcontent)
  refine ⟨text, decode_toUTF8 text, ?_⟩
  rw [hdoc]
  exact hd

theorem readSource_of_read {c : Console} {path text : String}
    (hread : c.folder.read path = .ok text.toUTF8) : Action.readSource path c = (c, .ok text) := by
  unfold Action.readSource
  rw [Action.bind_of_ok (d := c) (a := c) rfl, hread]
  dsimp only
  rw [decode_toUTF8]
  rfl

theorem readDocument_of_read {c : Console} {path text : String} {d : Doc}
    (hread : c.folder.read path = .ok text.toUTF8)
    (hdoc : Json.read (Folder.unifyLines text.toList) = .ok d) :
    Action.readDocument path c = (c, .ok d) := by
  unfold Action.readDocument
  rw [Action.bind_of_ok (d := c) (a := c) rfl, hread]
  dsimp only
  rw [decode_toUTF8, Action.bind_of_ok (d := c) (a := text) rfl, hdoc]
  rfl

/-- A console with an empty source, a compiler output, and measurements of nothing. -/
def furnished (output : String) : Console :=
  { deserted with
    folder := {
      root := "/"
      files := Ledger.ofList [(⟨false, ["a"]⟩, "".toUTF8), (⟨false, ["b"]⟩, output.toUTF8),
        (⟨false, ["c"]⟩, "\x7b\"creation\":\x7b\x7d,\"runtime\":\x7b\x7d\x7d".toUTF8)] } }

theorem read_furnished (output : String) :
    (furnished output).folder.read "a" = .ok "".toUTF8 ∧
    (furnished output).folder.read "b" = .ok output.toUTF8 ∧
    (furnished output).folder.read "c" =
      .ok "\x7b\"creation\":\x7b\x7d,\"runtime\":\x7b\x7d\x7d".toUTF8 := by
  refine ⟨?_, ?_, ?_⟩ <;> cbv

/-- An output with one contract, which is empty. -/
def emptyContract : String :=
  "\x7b\"contracts\":\x7b\"\":\x7b\"C\":\x7b\"evm\":\x7b\"legacyAssembly\":\x7b\".code\":[],\".data\":" ++
  "\x7b\"0\":\x7b\".code\":[]\x7d\x7d\x7d\x7d\x7d\x7d\x7d,\"sources\":\x7b\"\":\x7b\"ast\":\x7b\x7d\x7d\x7d\x7d"

def emptyContractDoc : Doc :=
  let assembly := Doc.object [(".code", .list []), (".data", .object [("0", .object [(".code", .list [])])])]
  .object [
    ("contracts", .object [("", .object [("C", .object [("evm", .object [("legacyAssembly", assembly)])])])]),
    ("sources", .object [("", .object [("ast", .object [])])])]

set_option maxRecDepth 4000 in
theorem read_emptyContract :
    Json.read (Folder.unifyLines emptyContract.toList) = .ok emptyContractDoc := by
  with_unfolding_all rfl

theorem unwrapped_emptyContractDoc : unwrapped emptyContractDoc = emptyContractDoc := rfl

/-- The files of a console that is furnished with an empty contract are tame. -/
theorem tame_furnished (contract : Option String) (json : Bool) :
    Tame (furnished emptyContract) ⟨"a", "b", contract, some "c", json⟩ where
  source content h := by
    obtain rfl := Except.ok.inj ((read_furnished emptyContract).1.symm.trans h)
    exact ⟨_, decode_toUTF8 _⟩
  compiled := by
    refine holds_of_read (read_furnished emptyContract).2.1 read_emptyContract ?_
    rw [unwrapped_emptyContractDoc]
    refine ⟨⟨fun d hd => ?_, ?_, fun d hd => ?_⟩, fun _ infos hi node hnode => ?_⟩
    · obtain rfl := Option.some.inj hd
      rfl
    · intro files file members contract evm hfiles hfile hcontract hevm
      obtain rfl := Doc.object.inj (Option.some.inj hfiles)
      obtain rfl := Doc.object.inj (Prod.mk.inj (List.mem_singleton.mp hfile)).2
      obtain rfl := List.mem_singleton.mp hcontract
      obtain rfl := Option.some.inj hevm
      rfl
    · obtain rfl := Option.some.inj hd
      rfl
    · obtain rfl := Doc.object.inj (Option.some.inj hi)
      have hwalk : Syntax.walk (.object []) = [.object []] := by with_unfolding_all rfl
      change node ∈ Syntax.walk (.object []) at hnode
      rw [hwalk, List.mem_singleton] at hnode
      obtain rfl := hnode
      exact fun htype => nomatch htype
  symexec path hpath notes := by
    obtain rfl := Option.some.inj hpath
    rw [folder_tellAll rfl]
    have hdoc : Json.read (Folder.unifyLines "\x7b\"creation\":\x7b\x7d,\"runtime\":\x7b\x7d\x7d".toList) =
      .ok (.object [("creation", .object []), ("runtime", .object [])]) := by
      with_unfolding_all rfl
    refine holds_of_read (read_furnished emptyContract).2.2 hdoc fun phase ms hms m hm => ?_
    have hempty : ms = [] := by
      cases phase <;> exact (Doc.object.inj (Option.some.inj hms)).symm
    rw [hempty] at hm
    exact absurd hm List.not_mem_nil

/-- A table of a contract without code is shown; contracts in a list are a fault. -/
theorem offline_ends_furnished :
    Ended (.annotate ⟨"a", "b", some "c", none, true, false⟩) ⟨"a", "b", none, some "c", false⟩
      (furnished emptyContract) ∧
    (runCommand (.annotate ⟨"a", "b", some "c", none, true, false⟩)
      (furnished "\x7b\"contracts\":[],\"sources\":\x7b\x7d\x7d")).2 =
        .error (.fault (.noAttribute .list "items")) := by
  refine ⟨(offline_ends rfl _).2.1 (tame_furnished none false), ?_⟩
  have hdoc : Json.read (Folder.unifyLines "\x7b\"contracts\":[],\"sources\":\x7b\x7d\x7d".toList) =
      .ok (.object [("contracts", .list []), ("sources", .object [])]) := by with_unfolding_all rfl
  obtain ⟨hsource, houtput, -⟩ := read_furnished "\x7b\"contracts\":[],\"sources\":\x7b\x7d\x7d"
  exact (offline_ends (i := ⟨"a", "b", none, some "c", false⟩) rfl _).2.2 _ _ (.list [])
    (readSource_of_read hsource) (readDocument_of_read houtput hdoc) rfl nofun rfl

end AsmLens.CommandLine
