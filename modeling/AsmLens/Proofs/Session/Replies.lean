import AsmLens.Proofs.Service.Client
import AsmLens.Proofs.Session.Failures
import AsmLens.Proofs.Session.Wholeness

/-!
# What conversations keep

In a conversation timers fire while replies are awaited, and their polls take replies of their own.
All that this does to the session is that answers are taken. So what every answer keeps, the whole
conversation keeps, also where it is kept only as long as the replies have a property.

* `Conversation.Keeps`, `Conversation.Within` — what answers keep, and conversations with it
* `Conversation.within_tickWithin`, `Conversation.of_submit` — conversations keep it
* `Session.Reasoned` — every failed job has an error, and every compilation that succeeded is there
* `Session.keeps_reasoned`, `Session.keeps_known` — what answers keep
-/

namespace AsmLens

namespace Conversation

variable {R : Reply → Prop} {I J : Session → Prop}

/-- A conversation in which all replies to come have a property. -/
structure Hears (R : Reply → Prop) (v : Conversation) : Prop where
  script : ∀ e ∈ v.script, R e.reply
  closing : R v.closing

/-- A property of sessions that is kept by the answers in some replies, and where none come. -/
structure Keeps (R : Reply → Prop) (I : Session → Prop) : Prop where
  answer : ∀ {s : Session} {t task request reply a}, R reply →
    s.client.readAnswer request reply = .ok a → I s → I (s.take t task (some a)).1
  silence : ∀ {s : Session} {t task}, I s → I (s.take t task none).1

theorem Keeps.and (hI : Keeps R I) (hJ : Keeps R J) : Keeps R fun s => I s ∧ J s where
  answer hr ha h := ⟨hI.answer hr ha h.1, hJ.answer hr ha h.2⟩
  silence h := ⟨hI.silence h.1, hJ.silence h.2⟩

/-- A conversation whose session has a property, and all replies to come have one, too. -/
structure Within (R : Reply → Prop) (I : Session → Prop) (v : Conversation) : Prop where
  hears : v.Hears R
  session : I v.session

namespace Within

variable {tick : Conversation → Timer → Conversation × Option Fault} {v : Conversation}

theorem tell (h : Within R I v) (notes : List Note) : Within R I (v.tell notes) :=
  ⟨⟨h.hears.script, h.hears.closing⟩, h.session⟩

theorem step {next : Session × List Note} (hv : v.Hears R) (h : I next.1) :
    Within R I (v.step next) :=
  ⟨⟨hv.script, hv.closing⟩, h⟩

theorem fireAll (ht : ∀ v t, Within R I v → Within R I (tick v t).1) (h : Within R I v)
    (is : List Int) : Within R I (fireAll tick v is).1 := by
  induction is generalizing v with
  | nil => exact h
  | cons i is ih =>
    rw [Conversation.fireAll]
    split
    · exact h
    · next t _ =>
      have hv := ht v t h
      split
      · next w hw =>
        rw [hw] at hv
        exact ih hv
      · next w f hw =>
        rw [hw] at hv
        exact hv

/-- The reply is one that was to come, or the exchange broke down. -/
theorem exchange (ht : ∀ v t, Within R I v → Within R I (tick v t).1) (h : Within R I v)
    (r : Request) :
    Within R I (exchange tick v r).1 ∧
      (R (exchange tick v r).2 ∨ ∃ f, (exchange tick v r).2 = .broken f) := by
  unfold Conversation.exchange
  dsimp only
  split
  · exact ⟨⟨⟨h.hears.script, h.hears.closing⟩, h.session⟩, .inl h.hears.closing⟩
  · next e rest hs =>
    have hscript : ∀ d ∈ e :: rest, R d.reply := fun d hd => h.hears.script d (hs ▸ hd)
    have hv := fireAll ht (v := { (Conversation.tell { v with requests := v.requests ++ [r] }
      [Client.requestNote r]) with script := rest })
      ⟨⟨fun d hd => hscript d (List.mem_cons_of_mem e hd), h.hears.closing⟩, h.session⟩ e.fires
    split
    · next w hw =>
      rw [hw] at hv
      exact ⟨hv, .inl (hscript e List.mem_cons_self)⟩
    · next w f hw =>
      rw [hw] at hv
      exact ⟨hv, .inr ⟨f, rfl⟩⟩

theorem answered (hI : Keeps R I) (h : Within R I v) (t : Timer) (task : Doc) (r : Request)
    {reply : Reply} (hr : R reply ∨ ∃ f, reply = .broken f) :
    Within R I (v.answered t task r reply).1 := by
  unfold Conversation.answered
  split
  · next a ha =>
    rcases hr with hr | ⟨f, rfl⟩
    · exact step h.hears (hI.answer hr ha h.session)
    · exact nomatch ha
  · exact step (h.tell _).hears (hI.silence h.session)
  · exact h

/-- **A timer's poll, and all that fires while it waits, keeps what answers keep.** -/
theorem tickWithin (hI : Keeps R I) (rounds : Nat) :
    ∀ v t, Within R I v → Within R I (tickWithin rounds v t).1 := by
  induction rounds with
  | zero => exact fun v t h => h
  | succ rounds ih =>
    intro v t h
    rw [Conversation.tickWithin]
    split
    · exact h
    · next task _ =>
      obtain ⟨hx, hr⟩ := exchange ih h (v.session.client.inquiry t.kind task)
      have ha := answered hI hx t task (v.session.client.inquiry t.kind task) hr
      dsimp only
      split
      · next w f hw =>
        rw [hw] at ha
        exact ha
      · next w hw =>
        rw [hw] at ha
        split
        · exact ih w _ ha
        · exact ha

theorem chase {α : Type} (hI : Keeps R I) (h : Within R I v) (count : Nat) (a : α) :
    Within R I (v.chase count a).1 ∧ FailsOnly Failure.Own (v.chase count a).2 := by
  unfold Conversation.chase
  split
  · exact ⟨h, .ok a⟩
  · next t _ =>
    refine ⟨tickWithin hI _ v t h, ?_⟩
    show FailsOnly _ (outcome a _)
    unfold outcome
    split
    · exact .ok a
    · exact .error trivial

/-- A job handed in and followed: what is kept until it is followed, and what from then on. -/
theorem submit (hI : Keeps R I) (hJ : Keeps R J) {kind : JobKind}
    {follow : Session → String → Session × List Note} (job : Doc)
    (hfollow : ∀ s task, I s → J (follow s task).1) (hv : v.Hears R)
    (h : I (v.session.abandon kind).1) :
    (v.submit kind job follow).1.Hears R ∧ FailsOnly Failure.Own (v.submit kind job follow).2 ∧
      ∀ task, (v.submit kind job follow).2 = .ok task → J (v.submit kind job follow).1.session := by
  unfold Conversation.submit
  dsimp only
  obtain ⟨hx, -⟩ := exchange (tickWithin hI _) (step hv h)
    ((v.step (v.session.abandon kind)).session.client.submission kind job)
  split
  · next e he =>
    exact ⟨hx.hears, .error (Client.fails_readTask _ kind _ e he), fun _ h => (nomatch h)⟩
  · next task _ =>
    have hw := hx.tell [Client.submittedNote kind task]
    obtain ⟨hc, hfails⟩ := chase hJ (Within.step hw.hears (hfollow _ task hw.session)) _ task
    exact ⟨hc.hears, hfails, fun _ _ => hc.session⟩

end Within

end Conversation

/-! ## Pollers -/

namespace Poller

variable {κ : Type} {p : Poller κ}

/-- A poller whose errors are of the program's own, and that has one if its job failed. -/
structure Reasoned (p : Poller κ) : Prop where
  own : ∀ e, p.error = some e → e.Own
  failed : p.status = .failed → p.error ≠ none

namespace Reasoned

theorem new (kind : JobKind) : (Poller.new kind : Poller κ).Reasoned := ⟨nofun, nofun⟩

theorem fail (p : Poller κ) {e : Problem} (he : e.Own) : (p.fail e).Reasoned where
  own := fun _ hd => Option.some.inj hd ▸ he
  failed := nofun

theorem start (p : Poller κ) (ts : Timers) (task : Doc) (context : Option κ) :
    (p.start ts task context).1.Reasoned := ⟨nofun, nofun⟩

theorem cancel (h : p.Reasoned) (ts : Timers) : (p.cancel ts).1.Reasoned where
  own := h.own
  failed := by
    show (if p.status = .running then .idle else p.status) = .failed → p.error ≠ none
    split
    · exact nofun
    · exact h.failed

theorem settle (h : p.Reasoned) (ts : Timers) (loop : Nat) (a : Option JobAnswer) :
    (p.settle ts loop a).1.1.Reasoned := by
  unfold Poller.settle
  split
  · exact h
  · dsimp only
    split
    · exact ⟨h.own, h.failed⟩
    · split
      · exact ⟨h.own, nofun⟩
      · split
        · exact fail _ nofun
        · exact ⟨h.own, h.failed⟩

theorem conclude (h : p.Reasoned) (finished : Nat) (result : Doc) {o : Result Unit}
    (ho : FailsOnly Failure.Own o) : (p.conclude finished result o).1.Reasoned := by
  unfold Poller.conclude
  split
  · next e => exact fail _ (ho _ rfl)
  · exact fail _ nofun
  · split
    · exact h
    · exact ⟨h.own, nofun⟩

end Reasoned

/-- A poller has no job any more because of an answer only if the service does not know the job. -/
theorem settle_idle {ts : Timers} {loop : Nat} {a : Option JobAnswer}
    (h : (p.settle ts loop a).1.1.status = .idle) :
    p.status = .idle ∨ ∃ b, a = some b ∧ b.notFound = true := by
  rcases settle_outcomes p ts loop a with ⟨-, hq⟩ |
    ⟨-, ⟨-, hq⟩ | ⟨b, rfl, -, ⟨hn, -⟩ | ⟨-, e, hq⟩ | ⟨-, -, hq⟩⟩⟩
  · rw [hq] at h
    exact .inl h
  · rw [hq] at h
    exact .inl h
  · exact .inr ⟨b, rfl, hn⟩
  · rw [hq] at h
    exact nomatch h
  · rw [hq] at h
    exact .inl h

theorem conclude_idle {finished : Nat} {result : Doc} {o : Result Unit}
    (h : (p.conclude finished result o).1.status = .idle) : p.status = .idle := by
  unfold conclude at h
  split at h
  · exact nomatch h
  · exact nomatch h
  · split at h
    · exact h
    · exact nomatch h

end Poller

/-! ## Sessions -/

namespace Session

open Conversation (Keeps Within)

/-- What handling an answer and an outcome makes of a poller, taking an answer makes of it. -/
theorem Lane.of_take {κ : Type} {l : Lane κ} {P : Poller κ → Prop} (hl : l.Lawful)
    (hfails : ∀ s r c, FailsOnly Failure.Own (l.apply s r c).outcome) {s : Session} {loop : Nat}
    {a : Option JobAnswer} (task : Doc) (hsettle : P ((l.get s).poller.settle s.timers loop a).1.1)
    (hconclude : ∀ (q : Poller κ) r o, P q → FailsOnly Failure.Own o → P (q.conclude q.loop r o).1) :
    P (l.get (l.take s loop task a).1).poller := by
  rcases Lane.take_cases l s loop task a with ⟨-, he⟩ | ⟨r, c, -, he⟩
  · rw [he, (Lane.follow_frame hl _ _).1, Lane.get_put hl]
    exact hsettle
  · rw [he, (Lane.finish_frame hl _ _ _).1, Lane.get_put hl]
    exact hconclude _ _ _ hsettle (hfails _ _ _).map

/-- A session whose pollers have their reasons, and whose compilation is there if it succeeded. -/
structure Reasoned (s : Session) : Prop where
  compiling : s.compiling.poller.Reasoned
  executing : s.executing.poller.Reasoned
  installed : s.status .compile = .succeeded → s.store.installed.isSome = true

/-- Nothing that an answer does takes the installed compilation away. -/
theorem installed_take (s : Session) (t : Timer) (task : Doc) (a : Option JobAnswer)
    (h : s.store.installed.isSome = true) : (s.take t task a).1.store.installed.isSome = true := by
  rcases s.store_take t task a with he | ⟨text, output, -, hb⟩ |
    ⟨b, document, ms, target, -, -, -, -, -, -, -, hm⟩
  · rw [he]
    exact h
  · obtain ⟨c, -, hc⟩ := Store.build_eq_ok.mp hb
    rw [hc]
    rfl
  · obtain ⟨_, -, hm⟩ := Traced.outcome_bind_eq_ok.mp hm
    obtain ⟨_, -, hm⟩ := Traced.outcome_bind_eq_ok.mp hm
    rw [← Except.ok.inj hm]
    rfl

namespace Reasoned

variable {s : Session}

theorem new {settings : Settings} (h : Session.new settings = .ok s) : s.Reasoned := by
  obtain ⟨client, rfl⟩ := of_new h
  exact ⟨.new _, .new _, nofun⟩

theorem abandon (h : s.Reasoned) (kind : JobKind) : (s.abandon kind).1.Reasoned := by
  cases kind with
  | compile =>
    refine ⟨h.compiling.cancel s.timers, h.executing, fun hs => h.installed ?_⟩
    change (if s.compiling.poller.status = .running then .idle else s.compiling.poller.status) =
      JobStatus.succeeded at hs
    split at hs
    · exact nomatch hs
    · exact hs
  | symexec => exact ⟨h.compiling, h.executing.cancel s.timers, h.installed⟩

theorem beginCompile (h : s.Reasoned) (task source : String) :
    (s.beginCompile task source).1.Reasoned :=
  ⟨.start _ _ _ _, h.executing, nofun⟩

theorem beginSymexec (h : s.Reasoned) (task : String) (target : SymexecTarget) :
    (s.beginSymexec task target).1.Reasoned :=
  ⟨h.compiling, .start _ _ _ _, h.installed⟩

/-- The compilation is there after an answer with which it succeeded. -/
theorem installed_compileTake (h : s.Reasoned) (loop : Nat) (task : Doc) (a : Option JobAnswer)
    (hs : (compileLane.take s loop task a).1.status .compile = .succeeded) :
    (compileLane.take s loop task a).1.store.installed.isSome = true := by
  rcases Lane.take_whole Lane.lawful_compileLane (Lane.Outside.store Lane.lawful_compileLane) s loop
    task a with ⟨b, n, s₁, -, -, -, -, happly, hstore, -⟩ | ⟨hstore, hstatus, -⟩
  · obtain ⟨output, text, store, -, -, hb, rfl⟩ := Lane.of_applyCompile happly
    obtain ⟨c, -, hc⟩ := Store.build_eq_ok.mp hb
    rw [hstore]
    show store.installed.isSome = true
    rw [hc]
    rfl
  · rw [hstore]
    exact h.installed (hstatus hs)

theorem take (h : s.Reasoned) (t : Timer) (task : Doc) (a : Option JobAnswer) :
    (s.take t task a).1.Reasoned := by
  rw [Session.take]
  cases t.kind with
  | compile =>
    refine ⟨?_, ?_, h.installed_compileTake t.loop task a⟩
    · exact Lane.of_take Lane.lawful_compileLane fails_applyCompile task
        (h.compiling.settle _ _ _) fun q r o hq ho => hq.conclude _ _ ho
    · have hp := (Lane.take_frame Lane.lawful_compileLane Lane.lawful_symexecLane
        Lane.apart_symexecLane s t.loop task a).1
      exact hp ▸ h.executing
  | symexec =>
    have hp := (Lane.take_frame Lane.lawful_symexecLane Lane.lawful_compileLane
      Lane.apart_compileLane s t.loop task a).1
    refine ⟨?_, ?_, fun hs => ?_⟩
    · exact hp ▸ h.compiling
    · exact Lane.of_take Lane.lawful_symexecLane fails_applySymexec task
        (h.executing.settle _ _ _) fun q r o hq ho => hq.conclude _ _ ho
    · have hcompiled : s.status .compile = .succeeded := (congrArg Poller.status hp).symm.trans hs
      exact installed_take s ⟨t.delay, .symexec, t.loop, t.cancelled⟩ task a (h.installed hcompiled)

end Reasoned

variable {R : Reply → Prop}

theorem keeps_reasoned : Keeps R Session.Reasoned where
  answer _ _ h := h.take _ _ _
  silence h := h.take _ _ _

theorem keeps_installed : Keeps R fun s => s.store.installed.isSome = true where
  answer _ _ h := installed_take _ _ _ _ h
  silence h := installed_take _ _ _ _ h

/-- A kind of job is dropped because of an answer only if the service does not know the job. -/
theorem idle_take {s : Session} {t : Timer} {task : Doc} {a : Option JobAnswer} {kind : JobKind}
    (h : (s.take t task a).1.status kind = .idle) :
    s.status kind = .idle ∨ ∃ b, a = some b ∧ b.notFound = true := by
  have own : ∀ {κ : Type} {l : Lane κ}, l.Lawful →
      (∀ s r c, FailsOnly Failure.Own (l.apply s r c).outcome) →
      (l.get (l.take s t.loop task a).1).poller.status = .idle →
      (l.get s).poller.status = .idle ∨ ∃ b, a = some b ∧ b.notFound = true := by
    intro κ l hl hfails
    refine Lane.of_take (P := fun p => p.status = .idle → _) hl hfails task Poller.settle_idle ?_
    exact fun q r o hq _ h => hq (Poller.conclude_idle h)
  rw [Session.take] at h
  -- the answer is to a job of this kind, or the poller of this kind is not concerned
  cases ht : t.kind <;> cases kind <;> simp only [ht] at h
  · exact own Lane.lawful_compileLane fails_applyCompile h
  · have hp := (Lane.take_frame Lane.lawful_compileLane Lane.lawful_symexecLane
      Lane.apart_symexecLane s t.loop task a).1
    exact .inl ((congrArg Poller.status hp).symm.trans h)
  · have hp := (Lane.take_frame Lane.lawful_symexecLane Lane.lawful_compileLane
      Lane.apart_compileLane s t.loop task a).1
    exact .inl ((congrArg Poller.status hp).symm.trans h)
  · exact own Lane.lawful_symexecLane fails_applySymexec h

/-- A job is there to ask about unless a reply says that it does not exist. -/
theorem keeps_known (kind : JobKind) (P : Prop) :
    Keeps (fun r => r.IsAbsence → P) fun s => s.status kind = .idle → P where
  answer := by
    intro s t task request reply a hr ha h hidle
    rcases idle_take hidle with hs | ⟨b, hb, hn⟩
    · exact h hs
    · obtain rfl := Option.some.inj hb
      exact hr (Client.isAbsence_of_readAnswer ha hn)
  silence := by
    intro s t task h hidle
    rcases idle_take hidle with hs | ⟨b, hb, -⟩
    · exact h hs
    · exact nomatch hb

/-! ### Operations -/

variable {v : Conversation} {P : Prop}

/-- A compilation that was handed in is known, unless a reply says that it is not. -/
theorem reasoned_compile (hv : v.Hears fun r => r.IsAbsence → P) (h : v.session.Reasoned)
    (source : String) :
    (v.compile source).1.Hears (fun r => r.IsAbsence → P) ∧
      FailsOnly Failure.Own (v.compile source).2 ∧ ∀ task, (v.compile source).2 = .ok task →
        (v.compile source).1.session.Reasoned ∧
          ((v.compile source).1.session.status .compile = .idle → P) :=
  Within.submit keeps_reasoned (keeps_reasoned.and (keeps_known .compile P)) _
    (fun _ task h => ⟨h.beginCompile task source, nofun⟩) hv (h.abandon .compile)

/-- A symbolic execution that was handed in is known, unless a reply says that it is not. -/
theorem reasoned_symexec (hv : v.Hears fun r => r.IsAbsence → P) (h : v.session.Reasoned)
    (hi : v.session.store.installed.isSome = true) (contract : String) (source : Option String) :
    (v.symexec contract source).1.Hears (fun r => r.IsAbsence → P) ∧
      FailsOnly Failure.Own (v.symexec contract source).2 ∧
      ∀ task, (v.symexec contract source).2 = .ok task →
        (v.symexec contract source).1.session.Reasoned ∧
          (v.symexec contract source).1.session.store.installed.isSome = true ∧
          ((v.symexec contract source).1.session.status .symexec = .idle → P) := by
  unfold Conversation.symexec
  split
  · next e he => exact ⟨hv, admits_own.raise (raises_plan _ _ _ e he), fun _ h => (nomatch h)⟩
  · next text target _ =>
    exact Within.submit (keeps_reasoned.and keeps_installed)
      (keeps_reasoned.and (keeps_installed.and (keeps_known .symexec P))) _
      (fun _ task h => ⟨h.1.beginSymexec task target, h.2, nofun⟩) hv ⟨h.abandon .symexec, hi⟩

/-- Waiting for a job gives how it stands, and a job that is waited for has ended well or is gone. -/
theorem wait_outcomes {s : Session} (h : s.Reasoned) (kind : JobKind) (limit : Number) :
    FailsOnly Failure.Own (s.wait kind limit) ∧ ∀ status, s.wait kind limit = .ok status →
      s.status kind = status ∧ (status = .idle ∨ status = .succeeded) := by
  have own : ∀ {κ : Type} (p : Poller κ), p.Reasoned →
      FailsOnly Failure.Own (waitFor p limit) ∧ ∀ status, waitFor p limit = .ok status →
        p.status = status ∧ (status = .idle ∨ status = .succeeded) := by
    intro κ p hp
    unfold waitFor
    split
    · split
      · exact ⟨.error trivial, fun _ h => (nomatch h)⟩
      · exact ⟨admits_own.raise nofun, fun _ h => (nomatch h)⟩
    · next e _ he => exact ⟨admits_own.raise (hp.own e he), fun _ h => (nomatch h)⟩
    · next hrunning hfailed =>
      refine ⟨.ok _, fun status hs => ?_⟩
      obtain rfl := Except.ok.inj hs
      refine ⟨rfl, ?_⟩
      cases hs : p.status with
      | idle => exact .inl rfl
      | succeeded => exact .inr rfl
      | running => exact absurd hs hrunning
      | failed =>
        obtain ⟨e, he⟩ := Option.ne_none_iff_exists'.mp (hp.failed hs)
        exact absurd he (hfailed e hs)
  cases kind with
  | compile => exact own _ h.compiling
  | symexec => exact own _ h.executing

end Session

end AsmLens
