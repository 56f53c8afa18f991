import AsmLens.Proofs.Failure

/-!
# Problems of the program's own

A report in machine-readable form has three members that say what it is, and details may take
their place. The reports that the program words itself have no such details, so whoever reads one
sees an error.

* `Problem.Own` — a problem of the program's own wording, not a report made elsewhere
* `Problem.Own.fixed` — its report keeps the members that every report has
* `Problem.Malformed` — such a problem whose report is on malformed input
* `Raises`, `Admits` — operations that raise no other problems
* `Rejects`, `AdmitsMalformed` — operations that raise problems with their input alone
-/

namespace AsmLens

namespace Report

/-- Details that leave the members alone that every report has. -/
def Keeps (details : List (String × Doc)) : Prop :=
  ∀ d ∈ details, d.1 ∉ ["error", "type", "message"]

theorem lookup_extend {name : String} {details extra : List (String × Doc)}
    (h : ∀ d ∈ extra, d.1 ≠ name) :
    Doc.lookup name (extend details extra) = Doc.lookup name details := by
  unfold extend
  induction extra generalizing details with
  | nil => rfl
  | cons d extra ih =>
    rw [List.foldl_cons, ih fun e he => h e (List.mem_cons_of_mem d he), Doc.lookup_put,
      if_neg (h d List.mem_cons_self)]

/-- A report whose details leave the fixed members alone has them. -/
theorem fixed_of_keeps {r : Report} (h : Keeps r.details) :
    r.toDoc.get "error" = .bool true ∧ r.toDoc.get "type" = r.code ∧
      r.toDoc.get "message" = r.message := by
  have kept : ∀ name ∈ ["error", "type", "message"],
      r.toDoc.get name = (Doc.lookup name [("error", .bool true), ("type", r.code),
        ("message", r.message)]).getD .null := by
    intro name hn
    refine congrArg (Option.getD · Doc.null) (lookup_extend fun d hd he => ?_)
    exact h d hd (he ▸ hn)
  exact ⟨kept "error" (by decide), kept "type" (by decide), kept "message" (by decide)⟩

theorem mem_put {name : String} {v : Doc} {ms : List (String × Doc)} {d : String × Doc}
    (h : d ∈ Doc.put name v ms) : d.1 = name ∨ d ∈ ms := by
  induction ms with
  | nil => exact .inl (congrArg Prod.fst (List.mem_singleton.mp h))
  | cons m ms ih =>
    rw [Doc.put] at h
    split at h
    · next hm =>
      rcases List.mem_cons.mp h with rfl | h
      · exact .inl hm
      · exact .inr (List.mem_cons_of_mem m h)
    · rcases List.mem_cons.mp h with rfl | h
      · exact .inr List.mem_cons_self
      · exact (ih h).imp id (List.mem_cons_of_mem m)

theorem Keeps.extend {details extra : List (String × Doc)} (hd : Keeps details)
    (he : Keeps extra) : Keeps (extend details extra) := by
  unfold Report.extend
  induction extra generalizing details with
  | nil => exact hd
  | cons e extra ih =>
    refine ih (fun d hm => ?_) fun d hm => he d (List.mem_cons_of_mem e hm)
    rcases mem_put hm with hn | hm
    · rw [hn]
      exact he e List.mem_cons_self
    · exact hd d hm

theorem keeps_unlessBlank {name : String} (v : Doc) (h : name ∉ ["error", "type", "message"]) :
    Keeps (unlessBlank name v) := by
  unfold unlessBlank
  split
  · exact fun d hd => absurd hd List.not_mem_nil
  · intro d hd
    rw [List.mem_singleton.mp hd]
    exact h

theorem keeps_unlessNull {name : String} (v : Doc) (h : name ∉ ["error", "type", "message"]) :
    Keeps (unlessNull name v) := by
  unfold unlessNull
  split
  · exact fun d hd => absurd hd List.not_mem_nil
  · intro d hd
    rw [List.mem_singleton.mp hd]
    exact h

theorem keeps_nil : Keeps [] := fun _ hd => absurd hd List.not_mem_nil

theorem Keeps.cons {name : String} {v : Doc} {details : List (String × Doc)}
    (hn : name ∉ ["error", "type", "message"]) (hd : Keeps details) :
    Keeps ((name, v) :: details) := by
  intro d hm
  rcases List.mem_cons.mp hm with rfl | hm
  · exact hn
  · exact hd d hm

theorem Keeps.append {details extra : List (String × Doc)} (hd : Keeps details)
    (he : Keeps extra) : Keeps (details ++ extra) :=
  fun d hm => (List.mem_append.mp hm).elim (hd d) (he d)

/-! ### The kinds -/

variable {extra : List (String × Doc)}

theorem keeps_malformed (message path : Doc) (he : Keeps extra) :
    Keeps (malformed message path extra).details :=
  (keeps_unlessBlank path (by decide)).extend he

theorem keeps_missing (path : Doc) (he : Keeps extra) : Keeps (missing path extra).details :=
  (keeps_unlessBlank path (by decide)).extend he

theorem keeps_offset (o length : Doc) (he : Keeps extra) : Keeps (offset o length extra).details :=
  (Keeps.cons (by decide) (Keeps.cons (by decide) keeps_nil)).extend he

theorem keeps_stale (message expected current : Doc) (he : Keeps extra) :
    Keeps (stale message expected current extra).details :=
  ((keeps_unlessNull expected (by decide)).append (keeps_unlessNull current (by decide))).extend he

theorem keeps_sourceChanged (expected current : Doc) (he : Keeps extra) :
    Keeps (sourceChanged expected current extra).details :=
  keeps_stale (.text "Source content has changed, please compile first!") expected current he

theorem keeps_service (message url status : Doc) (he : Keeps extra) :
    Keeps (service message url status extra).details :=
  ((keeps_unlessBlank url (by decide)).append (keeps_unlessNull status (by decide))).extend he

theorem keeps_job (message task kind : Doc) (he : Keeps extra) :
    Keeps (job message task kind extra).details :=
  ((keeps_unlessBlank task (by decide)).append (keeps_unlessBlank kind (by decide))).extend he

theorem keeps_settings (message file : Doc) (he : Keeps extra) :
    Keeps (settings message file extra).details :=
  (keeps_unlessBlank file (by decide)).extend he

end Report

namespace Problem

open Report

/-- A problem of the program's own wording. -/
def Own (p : Problem) : Prop := ∀ r, p ≠ .reported r

theorem Own.keeps {p : Problem} (h : p.Own) : Keeps p.report.details := by
  have one : ∀ {name v}, name ∉ ["error", "type", "message"] → Keeps [(name, v)] :=
    fun hn => .cons hn keeps_nil
  cases p with
  | reported r => exact absurd rfl (h r)
  | missingField p => exact keeps_missing _ keeps_nil
  | outOfRange o n => exact keeps_offset _ _ keeps_nil
  | retiredTable c g => exact keeps_stale _ _ _ keeps_nil
  | staleGeneration c e g => exact keeps_stale _ _ _ keeps_nil
  | contractGone c e g => exact keeps_stale _ _ _ keeps_nil
  | nothingCompiled => exact keeps_stale _ _ _ keeps_nil
  | contractNotCompiled c g => exact keeps_stale _ _ _ keeps_nil
  | sourceChanged g e a =>
    exact keeps_sourceChanged _ _ (.cons (by decide) (.cons (by decide) keeps_nil))
  | requestTimedOut u t => exact keeps_service _ _ _ keeps_nil
  | connectionFailed r u => exact keeps_service _ _ _ keeps_nil
  | httpStatus s r u => exact keeps_service _ _ _ keeps_nil
  | invalidAnswer u s => exact keeps_service _ _ _ keeps_nil
  | noTaskId p u => exact keeps_service _ _ _ keeps_nil
  | jobFailed k t => exact keeps_job _ _ _ keeps_nil
  | resultNotApplied k t f => exact keeps_job _ _ _ (one (by decide))
  | jobReported k out => exact keeps_job _ _ _ (one (by decide))
  | noCompilerOutput => exact keeps_job _ _ _ keeps_nil
  | waitTimedOut k t limit => exact keeps_job _ _ _ keeps_nil
  | unknownStrategy v known => exact keeps_settings _ _ (one (by decide))
  | invalidRuns _ | invalidLimit _ _ | missingAddress | settingsNotMapping _ | invalidSettings _ _
  | settingsNotFound _ _ | unreadableSettings _ _ | unwritableSettings _ _ | unreadableSource _ _
  | unreadableFile _ _ => exact keeps_settings _ _ keeps_nil
  | _ => exact keeps_malformed _ _ keeps_nil

/-- The report on a problem of the program's own is an error to everyone who reads it. -/
theorem Own.fixed {p : Problem} (h : p.Own) :
    p.report.toDoc.get "error" = .bool true ∧ p.report.toDoc.get "type" = p.report.code ∧
      p.report.toDoc.get "message" = p.report.message :=
  fixed_of_keeps h.keeps

/-- A problem of the program's own wording whose report is on malformed input. -/
def Malformed (p : Problem) : Prop := p.Own ∧ .malformed ∈ p.report.kind.lineage

theorem malformed_missingField (path : String) : (missingField path).Malformed :=
  ⟨nofun, List.mem_cons_of_mem _ List.mem_cons_self⟩

end Problem

/-- A failure that, if it is a problem, is one of the program's own wording. -/
def Failure.Own : Failure → Prop
  | .problem p => p.Own
  | .fault _ => True

/-- A failure that is a problem of the program's own wording. -/
def Failure.Clean : Failure → Prop
  | .problem p => p.Own
  | .fault _ => False

/-- A failure that is a problem with malformed input. -/
def Failure.Malformed : Failure → Prop
  | .problem p => p.Malformed
  | .fault _ => False

/-- The value of an operation, or a problem of the program's own. -/
abbrev Raises {α : Type} (x : Except Problem α) : Prop := FailsOnly Problem.Own x

/-- The value of an operation, or a problem with malformed input. -/
abbrev Rejects {α : Type} (x : Except Problem α) : Prop := FailsOnly Problem.Malformed x

theorem FailsOnly.raises {α : Type} {x : Except Problem α} (h : Rejects x) : Raises x :=
  FailsOnly.mono h fun _ hp => hp.1

/-- A property that all problems of the program's own have, and maybe some faults. -/
def Admits (Q : Failure → Prop) : Prop := ∀ p, p.Own → Q (.problem p)

/-- A property that all problems with malformed input have, and maybe some faults. -/
def AdmitsMalformed (Q : Failure → Prop) : Prop := ∀ p, p.Malformed → Q (.problem p)

theorem admits_own : Admits Failure.Own := fun _ h => h

theorem admits_clean : Admits Failure.Clean := fun _ h => h

theorem admits_malformed : AdmitsMalformed Failure.Malformed := fun _ h => h

theorem Admits.malformed {Q : Failure → Prop} (h : Admits Q) : AdmitsMalformed Q :=
  fun p hp => h p hp.1

theorem fails_fault {α : Type} (x : Except Fault α) :
    FailsOnly Failure.Own (liftM x : Result α) :=
  .liftFault fun _ _ => trivial

variable {Q : Failure → Prop} (hQ : Admits Q)

include hQ in
theorem Admits.lift {α : Type} {x : Except Problem α} (h : Raises x) :
    FailsOnly Q (liftM x : Result α) :=
  .liftProblem fun p hp => hQ p (h p hp)

include hQ in
theorem Admits.traced {α : Type} {x : Except Problem α} (h : Raises x) :
    FailsOnly Q (liftM x : Traced α).outcome :=
  .tracedProblem fun p hp => hQ p (h p hp)

include hQ in
theorem Admits.raise {α : Type} {p : Problem} (h : p.Own) :
    FailsOnly Q (Failure.raise p : Result α) :=
  .raise (hQ p h)

variable (hM : AdmitsMalformed Q)

include hM in
theorem AdmitsMalformed.lift {α : Type} {x : Except Problem α} (h : Rejects x) :
    FailsOnly Q (liftM x : Result α) :=
  .liftProblem fun p hp => hM p (h p hp)

include hM in
theorem AdmitsMalformed.raise {α : Type} {p : Problem} (h : p.Malformed) :
    FailsOnly Q (Failure.raise p : Result α) :=
  .raise (hM p h)

end AsmLens
