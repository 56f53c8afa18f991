import AsmLens.Proofs.CommandLine.Quiet
import AsmLens.Proofs.Session.Replies

/-!
# What commands write

A command that is asked for a document writes one document to the standard output, whatever is in
the files and whatever the service says: what it found, or a report on the problem that ended it.
There is one exception, which comes from the service: the line on a job that it does not know any
more is written as it is.

* `Talk.Leads` — from what holds before a part of a command with a session to what holds after it
* `leads_runJobs` — how the jobs of `compile` end
* `Finds` — the document that a command finds
* `writes_one_document` — the main result
-/

namespace AsmLens.CommandLine

open Terminal (Tone)
open Conversation (Hears Keeps Within)

/-! ## Consoles -/

namespace Console

/-- The second console is the first with a line more on the standard output. -/
def Wrote (c : Console) (line : String) (d : Console) : Prop := d.output = c.output ++ line ++ "\n"

/-- A console with the same standard output. -/
structure Silent (c d : Console) : Prop where
  output : d.output = c.output
  color : d.color = c.color

theorem Still.silent {c d : Console} (h : c.Still d) : c.Silent d := ⟨h.output, h.color⟩

theorem Silent.trans {c d e : Console} (h : c.Silent d) (h' : d.Silent e) : c.Silent e :=
  ⟨h'.output.trans h.output, h'.color.trans h.color⟩

theorem Silent.wrote {c d : Console} (h : c.Silent d) (line : String) :
    c.Wrote line (d.print line) := by
  rw [Wrote, ← h.output]
  rfl

/-- A console on which all replies to come have a property. -/
structure Expects (R : Reply → Prop) (c : Console) : Prop where
  replies : ∀ r ∈ c.replies, R r
  closing : R c.closing

theorem Still.expects {R : Reply → Prop} {c d : Console} (h : c.Still d) (hc : c.Expects R) :
    d.Expects R := by
  refine ⟨?_, ?_⟩
  · rw [h.replies]
    exact hc.replies
  · rw [h.closing]
    exact hc.closing

theorem Expects.hears {R : Reply → Prop} {c : Console} (h : c.Expects R) (s : Session) :
    (converse c s).Hears R := by
  refine ⟨fun e he => ?_, h.closing⟩
  obtain ⟨r, hr, rfl⟩ := List.mem_map.mp he
  exact h.replies r hr

theorem Expects.after {R : Reply → Prop} {c : Console} (h : c.Expects R) {v : Conversation}
    (hv : v.Hears R) : (c.after v).Expects R := by
  refine ⟨fun r hr => ?_, h.closing⟩
  obtain ⟨e, he, rfl⟩ := List.mem_map.mp hr
  exact hv.script e he

end Console

/-! ## Parts of a command with a session -/

/-- What holds while a command works with a session: nothing has been written since the console `c`,
the session is in order and has a property, and if the service will not know a job, then `P`. -/
structure Going (c : Console) (P : Prop) (Q : Session → Prop) (d : Console) (s : Session) :
    Prop where
  silent : c.Silent d
  expects : d.Expects fun r => r.IsAbsence → P
  reasoned : s.Reasoned
  holds : Q s

theorem Going.imp {c d : Console} {P : Prop} {Q Q' : Session → Prop} {s : Session}
    (h : Going c P Q d s) (hq : Q s → Q' s) : Going c P Q' d s :=
  ⟨h.silent, h.expects, h.reasoned, hq h.holds⟩

namespace Talk

variable {α β : Type} {c : Console} {P : Prop} {Q S : Session → Prop}
  {I : Console → Session → Prop} {J : α → Console → Session → Prop}
  {K : β → Console → Session → Prop}

/-- How a part of a command ends: it has a value and something holds, or it fails and has written
nothing. -/
def Ends (c : Console) (J : α → Console → Session → Prop) (r : (Console × Session) × Result α) :
    Prop :=
  (∀ a, r.2 = .ok a → J a r.1.1 r.1.2) ∧ ∀ e, r.2 = .error e → e.Own ∧ c.Silent r.1.1

/-- From what holds before a part of a command to how it ends. -/
def Leads (c : Console) (I : Console → Session → Prop) (x : Talk α)
    (J : α → Console → Session → Prop) : Prop :=
  ∀ s d, I d s → Ends c J (x s d)

theorem Leads.pure {a : α} (h : ∀ d s, I d s → J a d s) : Leads c I (Pure.pure a : Talk α) J :=
  fun s d hI => ⟨fun _ hb => Except.ok.inj hb ▸ h d s hI, fun _ he => (nomatch he)⟩

theorem Leads.bind {x : Talk α} {f : α → Talk β} (hx : Leads c I x J)
    (hf : ∀ a, Leads c (J a) (f a) K) : Leads c I (x >>= f) K := by
  intro s d hI
  obtain ⟨hok, herror⟩ := hx s d hI
  show Ends c K (Talk.bind x f s d)
  unfold Talk.bind
  split
  · next d' s' a h =>
    rw [h] at hok
    exact hf a s' d' (hok a rfl)
  · next state e h =>
    rw [h] at herror
    exact ⟨fun _ h => (nomatch h), fun _ he => Except.error.inj he ▸ herror e rfl⟩

theorem Leads.imp {x : Talk α} {J' : α → Console → Session → Prop} (hx : Leads c I x J)
    (hJ : ∀ a d s, J a d s → J' a d s) : Leads c I x J' :=
  fun s d hI => ⟨fun a ha => hJ _ _ _ ((hx s d hI).1 a ha), (hx s d hI).2⟩

theorem Leads.ofResult {r : Result α} (h : ∀ d s, I d s →
    c.Silent d ∧ FailsOnly Failure.Own r ∧ ∀ a, r = .ok a → J a d s) :
    Leads c I (Talk.ofResult r) J := by
  intro s d hI
  obtain ⟨hsilent, hfails, hok⟩ := h d s hI
  exact ⟨hok, fun e he => ⟨hfails e he, hsilent⟩⟩

theorem Leads.look {f : Session → Talk β} (h : ∀ s, Leads c (fun d t => I d t ∧ t = s) (f s) K) :
    Leads c I (Talk.look >>= f) K :=
  fun s d hI => h s s d ⟨hI, rfl⟩

/-- What writes nothing leaves everything as it is. -/
theorem Leads.quiet {x : Action α} (hx : x.Quiet) :
    Leads c (Going c P Q) (liftM x : Talk α) fun _ => Going c P Q := by
  intro s d h
  obtain ⟨hstill, hfails⟩ := hx d
  exact ⟨fun _ _ => ⟨h.silent.trans hstill.silent, hstill.expects h.expects, h.reasoned, h.holds⟩,
    fun e he => ⟨hfails e he, h.silent.trans hstill.silent⟩⟩

/-- A conversation writes nothing. -/
theorem Leads.say {f : Conversation → Conversation × Result α}
    (hf : ∀ v : Conversation, v.Hears (fun r => r.IsAbsence → P) →
      v.session.Reasoned ∧ Q v.session →
      (f v).1.Hears (fun r => r.IsAbsence → P) ∧ FailsOnly Failure.Own (f v).2 ∧
        ∀ a, (f v).2 = .ok a → (f v).1.session.Reasoned ∧ S (f v).1.session) :
    Leads c (Going c P Q) (Talk.say f) fun _ => Going c P S := by
  intro s d h
  obtain ⟨hears, hfails, hok⟩ := hf (converse d s) (h.expects.hears s) ⟨h.reasoned, h.holds⟩
  have hsilent : c.Silent (d.after (f (converse d s)).1) := ⟨h.silent.output, h.silent.color⟩
  exact ⟨fun a ha => ⟨hsilent, h.expects.after hears, (hok a ha).1, (hok a ha).2⟩,
    fun e he => ⟨hfails e he, hsilent⟩⟩

end Talk

open Talk (Leads)

variable {o : CompileOptions} {c : Console} {P : Prop} {Q : Session → Prop}

theorem quiet_announce (hj : o.json = true) (what subject : String) :
    (announce o what subject).Quiet := by
  unfold announce
  rw [hj]
  exact .pure _

/-- The console on which it was written that a job vanished, which is so only if `P`. -/
def Vanished (c : Console) (P : Prop) (d : Console) : Prop :=
  P ∧ ∃ what ∈ ["Compile", "Symbolic execution"],
    c.Wrote (Tone.warning.paint c.color (vanished what)) d

/-- The console and the session after a job was waited for. -/
def Awaited (c : Console) (P : Prop) (Q : Session → Prop) (known : Bool) (d : Console)
    (s : Session) : Prop :=
  if known then Going c P Q d s else Vanished c P d

theorem Awaited.imp {known : Bool} {d : Console} {s : Session} {Q' : Session → Prop}
    (h : Awaited c P Q known d s) (hq : Q s → Q' s) : Awaited c P Q' known d s := by
  cases known with
  | false => exact h
  | true => exact Going.imp h hq

/-- A job that is waited for has succeeded, or it has vanished. -/
theorem leads_waitFor (kind : JobKind) {what : String} (hw : what ∈ ["Compile", "Symbolic execution"]) :
    Leads c (Going c P fun s => Q s ∧ (s.status kind = .idle → P)) (waitFor o kind what)
      (Awaited c P fun s => Q s ∧ s.status kind = .succeeded) := by
  refine .look fun s => .bind (J := fun status d t => Going c P Q d t ∧ t.status kind = status ∧
    (status = .idle ∧ P ∨ status = .succeeded)) (.ofResult ?_) fun status => ?_
  · rintro d t ⟨h, rfl⟩
    obtain ⟨hfails, hok⟩ := t.wait_outcomes h.reasoned kind o.timeout
    refine ⟨h.silent, hfails, fun status hs => ?_⟩
    obtain ⟨he, hends⟩ := hok status hs
    exact ⟨h.imp And.left, he, hends.imp (fun hi => ⟨hi, h.holds.2 (he.trans hi)⟩) id⟩
  · split
    · rintro s d ⟨h, -, hends⟩
      have hp := (hends.resolve_right nofun).2
      have hwrote : c.Wrote (Tone.warning.paint c.color (vanished what))
          (d.print (Tone.warning.paint d.color (vanished what))) := by
        rw [h.silent.color]
        exact h.silent.wrote _
      exact ⟨fun _ hb => Except.ok.inj hb ▸ ⟨hp, what, hw, hwrote⟩, fun _ he => (nomatch he)⟩
    · next hne =>
      refine .pure fun d s h => ?_
      obtain ⟨h, he, hends⟩ := h
      have hs := hends.resolve_left fun hi => hne hi.1
      exact h.imp fun hq => ⟨hq, he.trans hs⟩

/-- The compilation and the symbolic execution succeed, or a job has vanished. -/
theorem leads_runJobs (hj : o.json = true) (source : String) :
    Leads c (Going c P fun _ => True) (runJobs o source)
      (Awaited c P fun s => s.store.installed.isSome = true) := by
  unfold runJobs
  refine .look fun s => .bind (J := fun _ => Going c P fun _ => True) ?_ fun _ => ?_
  · exact fun t d h => Leads.quiet (quiet_announce hj _ _) t d h.1
  · refine .bind (.say (S := fun s => True ∧ (s.status .compile = .idle → P)) ?_) fun _ =>
      .bind (leads_waitFor .compile (by simp)) fun known => ?_
    · rintro v hv ⟨h, -⟩
      obtain ⟨hears, hfails, hok⟩ := Session.reasoned_compile hv h source
      exact ⟨hears, hfails, fun task ht => ⟨(hok task ht).1, trivial, (hok task ht).2⟩⟩
    · cases known with
      | false => exact .pure fun d s h => h
      | true =>
        -- the compilation has succeeded, so it is there
        have hcompiled : ∀ d s, Awaited c P (fun s => True ∧ s.status .compile = .succeeded) true d s →
            Going c P (fun s => s.store.installed.isSome = true) d s :=
          fun d s h => h.imp fun hs => h.reasoned.installed hs.2
        rw [if_neg (by decide)]
        split
        · exact .pure hcompiled
        · next contract _ =>
          refine .bind (J := fun _ => Going c P fun s => s.store.installed.isSome = true) ?_ fun _ =>
            .bind (.say (S := fun s => s.store.installed.isSome = true ∧
              (s.status .symexec = .idle → P)) ?_) fun _ => ?_
          · exact fun s d h => Leads.quiet (quiet_announce hj _ _) s d (hcompiled d s h)
          · rintro v hv ⟨h, hi⟩
            exact Session.reasoned_symexec hv h hi contract (some source)
          · exact (leads_waitFor .symexec (by simp)).imp fun known d s h => h.imp And.left

theorem leads_runAll (hj : o.json = true) (source : String) :
    Leads c (Going c P fun _ => True) (runAll o source) fun r d s =>
      match r with
      | some t => t = s ∧ c.Silent d ∧ s.store.installed.isSome = true
      | none => Vanished c P d := by
  unfold runAll
  refine .bind (leads_runJobs hj source) fun known => ?_
  cases known with
  | false => exact .pure fun d s h => h
  | true => exact .look fun t => .pure fun d s h => ⟨h.2.symm, h.1.silent, h.1.holds⟩

/-! ## Commands -/

/-- Whether a command is asked for a document. -/
def Command.json : Command → Bool
  | .annotate o => o.json
  | .resolve o => o.json
  | .compile o => o.json

/-- The document on what a command finds that starts on a console. -/
inductive Finds (c : Console) : Command → Doc → Prop
  | annotated {o d found t doc} (loaded : loadTable o.source o.compiled o.contract o.symexec c =
        (d, .ok (found, t)))
      (shown : Compilation.toDoc found (some t.contract) o.listing = .ok doc) :
      Finds c (.annotate o) doc
  | resolved {o d found t doc} (loaded : loadTable o.source o.compiled o.contract o.symexec c =
        (d, .ok (found, t)))
      (shown : resolvedDoc o t (t.resolve o.view o.cursor) = .ok doc) :
      Finds c (.resolve o) doc
  | compiled {o d source session e s found doc} (prepared : prepare o c = (d, .ok (source, session)))
      (done : runAll o source session d = (e, .ok (some s)))
      (installed : s.store.installed = some found) (shown : found.toDoc none true = .ok doc) :
      Finds c (.compile o) doc

/-- The console after a problem was reported as a document. -/
def Reported (c : Console) (d : Console) : Prop :=
  ∃ p : Problem, p.report.toDoc.get "error" = .bool true ∧ c.Wrote p.report.toJson d

variable {α : Type} {d : Console} {n : Nat}

/-- A problem ends a command with a report; a value is taken by what comes next. -/
theorem of_guarded {x : Action α} {next : α → Action Nat} (hx : x.Quiet)
    (h : Action.guarded true x next c = (d, .ok n)) :
    (n = 1 ∧ Reported c d) ∨
      ∃ e a, x c = (e, .ok a) ∧ c.Still e ∧ next a e = (d, .ok n) := by
  obtain ⟨hstill, hfails⟩ := hx c
  unfold Action.guarded at h
  split at h
  · next e a he =>
    rw [he] at hstill
    exact .inr ⟨e, a, he, hstill, h⟩
  · next e p he =>
    rw [he] at hstill hfails
    obtain ⟨rfl, hn⟩ := Prod.mk.inj h
    exact .inl ⟨(Except.ok.inj hn).symm, p, (Problem.Own.fixed (hfails _ rfl)).1, hstill.silent.wrote _⟩
  · exact nomatch (Prod.mk.inj h).2

/-- A document that is printed. -/
theorem of_printed (doc : Except Fault Doc) {e : Console}
    (h : (liftM doc >>= fun found => Action.printJson found >>= fun _ => pure 0 : Action Nat) e =
      (d, .ok n)) (hs : c.Silent e) :
    n = 0 ∧ ∃ found, doc = .ok found ∧ c.Wrote (found.toJson (some 2)) d := by
  cases doc with
  | error f => exact nomatch (Prod.mk.inj h).2
  | ok found =>
    obtain ⟨rfl, hn⟩ := Prod.mk.inj h
    exact ⟨(Except.ok.inj hn).symm, found, rfl, hs.wrote _⟩

theorem annotate_writes {o : AnnotateOptions} (hj : o.json = true)
    (h : annotate o c = (d, .ok n)) :
    (n = 0 ∧ ∃ doc, Finds c (.annotate o) doc ∧ c.Wrote (doc.toJson (some 2)) d) ∨
      (n = 1 ∧ Reported c d) := by
  unfold annotate at h
  rw [hj] at h
  rcases of_guarded (quiet_loadTable _ _ _ _) h with h | ⟨e, ⟨found, t⟩, hload, hstill, h⟩
  · exact .inr h
  · unfold showAnnotated at h
    rw [hj] at h
    obtain ⟨hn, doc, hdoc, hwrote⟩ := of_printed _ h
      (hstill.trans (.tell e _)).silent
    exact .inl ⟨hn, doc, .annotated hload hdoc, hwrote⟩

theorem resolve_writes {o : ResolveOptions} (hj : o.json = true) (h : resolve o c = (d, .ok n)) :
    (n = 0 ∧ ∃ doc, Finds c (.resolve o) doc ∧ c.Wrote (doc.toJson (some 2)) d) ∨
      (n = 1 ∧ Reported c d) := by
  unfold resolve at h
  rw [hj] at h
  rcases of_guarded (quiet_loadTable _ _ _ _) h with h | ⟨e, ⟨found, t⟩, hload, hstill, h⟩
  · exact .inr h
  · unfold showResolved at h
    rw [hj] at h
    obtain ⟨hn, doc, hdoc, hwrote⟩ := of_printed _ h hstill.silent
    exact .inl ⟨hn, doc, .resolved hload hdoc, hwrote⟩

theorem reasoned_prepare {o : CompileOptions} {source : String} {s : Session}
    (h : prepare o c = (d, .ok (source, s))) : s.Reasoned := by
  unfold prepare at h
  obtain ⟨c₁, settings, -, h⟩ := Action.bind_eq_ok.mp h
  have rest : ∀ {c₂}, (do
      let source ← Action.readSource o.source
      return (source, ← Session.new settings) : Action (String × Session)) c₂ = (d, .ok (source, s)) →
      s.Reasoned := by
    intro c₂ h
    obtain ⟨c₃, text, -, h⟩ := Action.bind_eq_ok.mp h
    obtain ⟨c₄, s', hs, h⟩ := Action.bind_eq_ok.mp h
    obtain ⟨rfl, hn⟩ := Prod.mk.inj h
    obtain ⟨rfl, rfl⟩ := Prod.mk.inj (Except.ok.inj hn)
    exact .new (FailsOnly.liftFault_eq_ok.mp (Prod.mk.inj hs).2)
  dsimp only at h
  split at h
  · obtain ⟨c₂, -, -, h⟩ := Action.bind_eq_ok.mp h
    exact rest h
  · exact rest h

theorem compile_writes {o : CompileOptions} (hj : o.json = true) (h : compile o c = (d, .ok n)) :
    (n = 0 ∧ ∃ doc, Finds c (.compile o) doc ∧ c.Wrote (doc.toJson (some 2)) d) ∨
      (n = 1 ∧ Reported c d) ∨
      n = 1 ∧ Vanished c (∃ r ∈ c.closing :: c.replies, r.IsAbsence) d := by
  unfold compile at h
  rw [hj] at h
  rcases of_guarded (quiet_prepare hj) h with h | ⟨e, ⟨source, session⟩, hprepare, hstill, h⟩
  · exact .inr (.inl h)
  · have hexpects : c.Expects fun r => r.IsAbsence → ∃ r ∈ c.closing :: c.replies, r.IsAbsence :=
      ⟨fun r hr ha => ⟨r, List.mem_cons_of_mem _ hr, ha⟩, fun ha => ⟨_, List.mem_cons_self, ha⟩⟩
    obtain ⟨hok, herror⟩ := leads_runAll hj source session e
      ⟨hstill.silent, hstill.expects hexpects, reasoned_prepare hprepare, trivial⟩
    obtain ⟨e', ended, hrun, h⟩ := Action.bind_eq_ok.mp h
    unfold Talk.run at hrun
    rcases hjobs : runAll o source session e with ⟨⟨e₁, s₁⟩, r⟩
    rw [hjobs] at hok herror hrun
    -- the session is closed after the jobs, which writes nothing
    rcases r with (p | f) | (_ | s)
    · obtain ⟨hown, hsilent⟩ := herror _ rfl
      dsimp only [settleJobs, Action.tellProblem] at hrun
      rw [hj] at hrun
      obtain ⟨rfl, hended⟩ := Prod.mk.inj hrun
      obtain rfl := Except.ok.inj hended
      obtain ⟨rfl, hn⟩ := Prod.mk.inj h
      exact .inr (.inl ⟨(Except.ok.inj hn).symm, p, (Problem.Own.fixed hown).1, hsilent.wrote _⟩)
    · exact nomatch (Prod.mk.inj hrun).2
    · obtain ⟨rfl, hended⟩ := Prod.mk.inj hrun
      obtain rfl := Except.ok.inj hended
      obtain ⟨rfl, hn⟩ := Prod.mk.inj h
      exact .inr (.inr ⟨(Except.ok.inj hn).symm, hok none rfl⟩)
    · obtain ⟨rfl, hended⟩ := Prod.mk.inj hrun
      obtain rfl := Except.ok.inj hended
      obtain ⟨rfl, hsilent, hi⟩ := hok (some s) rfl
      obtain ⟨found, hfound⟩ := Option.isSome_iff_exists.mp hi
      change showCompiled o s (e₁.tell s.close.2) = (d, .ok n) at h
      unfold showCompiled at h
      rw [hfound, hj] at h
      obtain ⟨hn, doc, hdoc, hwrote⟩ := of_printed (found.toDoc none true) h
        (hsilent.trans (.trans (Console.Still.tell e₁ _).silent (Console.Still.tell _ _).silent))
      exact .inl ⟨hn, doc, .compiled hprepare hjobs hfound hdoc, hwrote⟩

/-! ## Main result -/

/--
**A command that is asked for a document writes one document.** Whatever is in the files and
whatever the service replies: if a run of a command with `--json` ends with a code, then it wrote one
line to the standard output, which is the text of what the command found, and the code is 0; or the
text of a report that says that there was an error, and the code is 1. The exception is `compile`
where the service says that a job it was asked about does not exist: it may then write the line on a
job that vanished, which is no document, and the code is 1.
-/
theorem writes_one_document {args : List String} {i : Invocation} (hread : Invocation.read args = .ok i)
    (hj : i.command.json = true) (h : run args c = (d, .ok n)) :
    (n = 0 ∧ ∃ doc, Finds (openLog i.log c).1 i.command doc ∧ c.Wrote (doc.toJson (some 2)) d) ∨
    (n = 1 ∧ Reported c d) ∨
    n = 1 ∧ (∃ o, i.command = .compile o) ∧
      Vanished c (∃ r ∈ c.closing :: c.replies, r.IsAbsence) d := by
  unfold run at h
  rw [hread] at h
  obtain ⟨e, ⟨⟩, hopen, h⟩ := Action.bind_eq_ok.mp h
  have hstill := (quiet_openLog i.log c).1
  rw [hopen] at hstill ⊢
  have wrote : ∀ {line}, e.Wrote line d → c.Wrote line d := by
    intro line hw
    rw [Console.Wrote, ← hstill.output]
    exact hw
  have reported : Reported e d → Reported c d := fun ⟨p, hp, hw⟩ => ⟨p, hp, wrote hw⟩
  have found : ∀ {command}, (∃ doc, Finds e command doc ∧ e.Wrote (doc.toJson (some 2)) d) →
      ∃ doc, Finds e command doc ∧ c.Wrote (doc.toJson (some 2)) d :=
    fun ⟨doc, hf, hw⟩ => ⟨doc, hf, wrote hw⟩
  cases hi : i.command with
  | annotate o =>
    rw [hi] at h hj
    exact (annotate_writes hj h).imp (And.imp id found) fun h => .inl (h.imp id reported)
  | resolve o =>
    rw [hi] at h hj
    exact (resolve_writes hj h).imp (And.imp id found) fun h => .inl (h.imp id reported)
  | compile o =>
    rw [hi] at h hj
    refine (compile_writes hj h).imp (And.imp id found) (Or.imp (And.imp id reported) ?_)
    rintro ⟨hn, hp, what, hw, hwrote⟩
    rw [hstill.closing, hstill.replies] at hp
    rw [hstill.color] at hwrote
    exact ⟨hn, ⟨o, rfl⟩, hp, what, hw, wrote hwrote⟩

/-- A source that is not there is reported. -/
theorem writes_one_document_absent :
    ∃ i d, Invocation.read ["annotate", "", "", "--json"] = .ok i ∧ i.command.json = true ∧
      run ["annotate", "", "", "--json"] deserted = (d, .ok 1) ∧ Reported deserted d := by
  have hjson : (Invocation.read ["annotate", "", "", "--json"]).toOption.map (·.command.json) =
      some true := by decide +kernel
  have hcode : (run ["annotate", "", "", "--json"] deserted).2.toOption = some 1 := by
    decide +kernel
  cases hi : Invocation.read ["annotate", "", "", "--json"] with
  | error e => rw [hi] at hjson; exact nomatch hjson
  | ok i =>
    rw [hi] at hjson
    rcases hd : run ["annotate", "", "", "--json"] deserted with ⟨d, e | n⟩
    · rw [hd] at hcode
      exact nomatch hcode
    · rw [hd] at hcode
      obtain rfl := Option.some.inj hcode
      refine ⟨i, d, rfl, Option.some.inj hjson, rfl, ?_⟩
      rcases writes_one_document hi (Option.some.inj hjson) hd with ⟨h, -⟩ | ⟨-, h⟩ | ⟨-, -, h, -⟩
      · exact nomatch h
      · exact h
      · obtain ⟨r, hr, response, rfl, -⟩ := h
        exact nomatch List.mem_singleton.mp hr

end AsmLens.CommandLine
