import AsmLens.Proofs.Session.Ticket

/-!
# The gas of a session

Every record of gas in an installed table is one of the measurements of a symbolic execution that
was handed in for the contract of this table while its generation was installed, whatever happened
since.

* `Course.Backed` — that the log says where a record comes from
* `Course.Sound` — the invariant: the log agrees with the pollers, the jobs handed in and the store
* `Course.Sound.run` — every run keeps it
* `Course.gas_is_backed` — the main result
-/

namespace AsmLens

open Deed

namespace Course

open Session.Lane

/-- That a record of gas is one of the measurements that a symbolic execution of a contract brought,
handed in while a generation was installed. -/
def Backed (log : List Deed) (contract : String) (generation : Nat) (k : String) (g : GasRecord) :
    Prop :=
  ∃ ticket task loop a document ms,
    .submitted ticket contract generation ∈ log ∧ .accepted ticket task loop ∈ log ∧
    .symexec (.answered ⟨loop, .text task⟩ (some a)) ∈ log ∧ a.isSuccess = true ∧
    Session.payload .symexec a.result = .ok document ∧ Measurements.read document = .ok ms ∧
    (k, g) ∈ ms.creation ++ ms.runtime

theorem Backed.mono {log log' : List Deed} (hl : ∀ d ∈ log, d ∈ log') {contract : String}
    {generation : Nat} {k : String} {g : GasRecord} (h : Backed log contract generation k g) :
    Backed log' contract generation k g := by
  obtain ⟨ticket, task, loop, a, document, ms, hs, ha, hr, rest⟩ := h
  exact ⟨ticket, task, loop, a, document, ms, hl _ hs, hl _ ha, hl _ hr, rest⟩

/-- The log agrees with the pollers, with the jobs handed in, and with the gas in the store. -/
structure Sound (c : Course) : Prop where
  tracked : Tracked c.session c.flights c.log
  pending : ∀ ticket target, .symexec ticket target ∈ c.pending → Ticketed c.log ticket target
  orderly : Orderly c.log
  stamped : c.session.store.Stamped
  backed : ∀ contract k g, c.session.store.Carries contract k g →
    Backed c.log contract c.session.store.generation k g

namespace Sound

variable {c c' : Course} {d : Deed}

theorem new {settings : Settings} {s : Session} (h : Session.new settings = .ok s) :
    Sound (Course.new s) := by
  have hs : s.store = ∅ := by
    obtain ⟨client, rfl⟩ := Session.of_new h
    rfl
  refine ⟨.new h, fun _ _ hm => absurd hm List.not_mem_nil, .nil, ?_, ?_⟩
  · intro contract t ht
    rw [show (Course.new s).session.store = ∅ from hs] at ht
    exact nomatch ht
  · rintro contract k g ⟨t, ht, -⟩
    rw [show (Course.new s).session.store = ∅ from hs] at ht
    exact nomatch ht

/-- A plain deed, after which the gas is backed again. -/
theorem extend (h : Sound c) (hlog : c'.log = d :: c.log) (hd : Plain d)
    (ht : Tracked c'.session c'.flights c'.log)
    (hp : ∀ ticket target, .symexec ticket target ∈ c'.pending → .symexec ticket target ∈ c.pending)
    (hs : c'.session.store.Stamped)
    (hb : ∀ contract k g, c'.session.store.Carries contract k g →
      Backed c'.log contract c'.session.store.generation k g) : Sound c' := by
  refine ⟨ht, fun ticket target hm => (h.pending _ _ (hp _ _ hm)).mono ?_, ?_, hs, hb⟩
  · rw [hlog]
    exact fun e he => List.mem_cons_of_mem _ he
  · rw [hlog]
    exact h.orderly.plain hd

/-- A plain deed that leaves the store. -/
theorem extend_of_store_eq (h : Sound c) (hlog : c'.log = d :: c.log) (hd : Plain d)
    (ht : Tracked c'.session c'.flights c'.log)
    (hp : ∀ ticket target, .symexec ticket target ∈ c'.pending → .symexec ticket target ∈ c.pending)
    (hs : c'.session.store = c.session.store) : Sound c' := by
  refine h.extend hlog hd ht hp ?_ ?_
  · rw [hs]
    exact h.stamped
  · rw [hs]
    intro contract k g hg
    refine (h.backed contract k g hg).mono fun e he => ?_
    rw [hlog]
    exact List.mem_cons_of_mem _ he

/-! ### Steps -/

/-- The running job of a kind given up. -/
theorem abandon (h : Sound c) (kind : JobKind) : Sound (c.abandon kind) := by
  refine h.extend_of_store_eq rfl (plain_ofKind fun _ _ _ he => nomatch he)
    (h.tracked.abandon kind) (fun _ _ hm => hm) ?_
  cases kind with
  | compile => exact (abandon_frame lawful_compileLane lawful_symexecLane apart_symexecLane _
      .compile 0).2.2
  | symexec => exact (abandon_frame lawful_symexecLane lawful_compileLane apart_compileLane _
      .symexec 0).2.2

/-- What may be asked for is a contract of the installed generation. -/
theorem of_plan {s : Session} {contract text : String} {source : Option String}
    {target : SymexecTarget} (h : s.plan contract source = .ok (text, target)) :
    target = ⟨contract, s.store.generation⟩ := by
  unfold Session.plan at h
  split at h
  · exact nomatch h
  · next text' _ =>
    cases hc : s.store.checkSource text' with
    | error e => rw [hc] at h; exact nomatch h
    | ok u =>
      rw [hc] at h
      cases hf : s.store.find? contract with
      | none => rw [hf] at h; exact nomatch h
      | some t =>
        rw [hf] at h
        exact (Prod.mk.inj (Except.ok.inj h)).2.symm

/-- A symbolic execution handed in, or refused. -/
theorem symexec (h : Sound c) (contract : String) (source : Option String) :
    Sound (c.step (.symexec contract source)) := by
  rw [step]
  cases hp : c.session.plan contract source with
  | error e => exact h
  | ok planned =>
    obtain ⟨text, target⟩ := planned
    obtain rfl := of_plan hp
    -- the ticket is entered before the running job is given up
    have hl : ∀ e ∈ c.log, e ∈ Deed.submitted c.log.length contract c.session.store.generation ::
        c.log := fun e he => List.mem_cons_of_mem _ he
    have hs : Sound { c with
        log := .submitted c.log.length contract c.session.store.generation :: c.log } :=
      ⟨⟨h.tracked.compiling, h.tracked.executing⟩,
        fun ticket target hm => (h.pending _ _ hm).mono hl, h.orderly.submitted _ _, h.stamped,
        fun contract k g hg => (h.backed contract k g hg).mono hl⟩
    have ha := hs.abandon .symexec
    refine ⟨ha.tracked, fun ticket target hm => ?_, ha.orderly, ha.stamped, ha.backed⟩
    rcases List.mem_append.mp hm with hm | hm
    · exact ha.pending ticket target hm
    · obtain ⟨rfl, rfl⟩ := Submission.symexec.inj (List.mem_singleton.mp hm)
      exact ⟨c.session.store.generation, rfl, List.mem_cons_of_mem _ List.mem_cons_self⟩

/-- A job taken by the service. -/
theorem begin (h : Sound c) (task : String) (job : Submission)
    (hj : ∀ ticket target, job = .symexec ticket target → Ticketed c.log ticket target) :
    Sound (c.begin task job) := by
  cases job with
  | compile source =>
    refine h.extend_of_store_eq rfl
      ⟨fun _ _ _ he => (nomatch he), fun _ _ _ he => (nomatch he), fun _ _ _ he => (nomatch he)⟩
      (h.tracked.beginCompile task source) (fun _ _ hm => hm) ?_
    exact (begin_frame lawful_compileLane lawful_symexecLane apart_symexecLane _ task source).2.2
  | symexec ticket target =>
    have hstore : (c.session.beginSymexec task target).1.store = c.session.store :=
      (begin_frame lawful_symexecLane lawful_compileLane apart_compileLane _ task target).2.2
    have hl : ∀ e ∈ c.log, e ∈ (c.begin task (.symexec ticket target)).log :=
      fun e he => List.mem_cons_of_mem _ (List.mem_cons_of_mem _ he)
    refine ⟨h.tracked.beginSymexec task target,
      fun ticket target hm => (h.pending _ _ hm).mono hl,
      h.orderly.begun task _ (hj ticket target rfl), ?_, ?_⟩
    · show (c.session.beginSymexec task target).1.store.Stamped
      rw [hstore]
      exact h.stamped
    · intro contract k g hg
      show Backed _ contract (c.session.beginSymexec task target).1.store.generation k g
      change (c.session.beginSymexec task target).1.store.Carries contract k g at hg
      rw [hstore] at hg ⊢
      exact (h.backed contract k g hg).mono hl

/-- A timer's poll. -/
theorem fire (h : Sound c) (i : Nat) : Sound (c.step (.fire i)) := by
  rw [step]
  cases ht : c.session.timers[i]? with
  | none => exact h
  | some t =>
    cases ha : c.session.asked? t with
    | none => simpa only [ha] using h
    | some task =>
      simp only [ha]
      exact h.extend_of_store_eq rfl (plain_ofKind fun _ _ _ he => nomatch he)
        (h.tracked.poll (List.mem_of_getElem? ht) ha) (fun _ _ hm => hm) rfl

/-- What is known of the loop of a symbolic execution that is asked about: its job was taken, under
the name that is asked for, and the poller remembers its target as long as it has its number. -/
theorem of_flight (h : Sound c) {t : Timer} {task : Doc} (hf : (t, task) ∈ c.flights)
    (hk : t.kind = .symexec) :
    ∃ ticket name target, task = .text name ∧ Ticketed c.log ticket target ∧
      .accepted ticket name t.loop ∈ c.log ∧
      (t.loop = c.session.executing.poller.loop →
        c.session.executing.poller.context = some target) := by
  have hc := h.tracked.executing.poller
  obtain ⟨x, hs⟩ := hc.started_of_flight (mem_flightsOf hf hk)
  obtain ⟨ticket, name, target, rfl, rfl, hticket, ha⟩ :=
    h.orderly.started _ _ _ (mem_symexecs.mp hs)
  exact ⟨ticket, name, target, rfl, hticket, ha, fun hl => (hc.live_of_started hs hl).2.2⟩

/-- An answer taken: what it brings is backed by it. -/
theorem answer (h : Sound c) (j : Nat) (a : Option JobAnswer) : Sound (c.step (.answer j a)) := by
  rw [step]
  cases hf : c.flights[j]? with
  | none => exact h
  | some p =>
    obtain ⟨t, task⟩ := p
    have hmem := List.mem_of_getElem? hf
    have hplain : Plain (.ofKind t.kind (fun _ => .answered ⟨t.loop, task⟩ a)) :=
      plain_ofKind fun _ _ _ he => nomatch he
    have htracked := (h.tracked.take hmem a).eraseIdx j
    have hl : ∀ e ∈ c.log,
        e ∈ .ofKind t.kind (fun _ => .answered ⟨t.loop, task⟩ a) :: c.log :=
      fun e he => List.mem_cons_of_mem _ he
    rcases c.session.store_take t task a with he | ⟨text, output, -, hb⟩ |
      ⟨b, document, ms, target, hk, rfl, hb, hd, hm, hloop, hx, hr⟩
    · exact h.extend_of_store_eq rfl hplain htracked (fun _ _ hm => hm) he
    · -- a compilation was installed, and there is no gas
      obtain ⟨-, hs, hbare⟩ := Store.of_runBuild hb
      exact h.extend rfl hplain htracked (fun _ _ hm => hm) hs fun contract k g hg =>
        absurd hg (hbare contract k g)
    · -- gas was merged, of the job that the live loop follows
      obtain ⟨hgen, hsame, hs, hcarries⟩ := Store.of_runMerge hr
      obtain ⟨ticket, name, target', rfl, ⟨generation, hg', hsub⟩, hacc, hctx⟩ :=
        h.of_flight hmem hk
      obtain rfl : target = target' := Option.some.inj (hx.symm.trans (hctx hloop))
      obtain rfl : generation = c.session.store.generation :=
        Int.natCast_inj.mp (hg'.symm.trans hgen)
      refine h.extend rfl hplain htracked (fun _ _ hm => hm) (hs h.stamped) ?_
      intro contract k g hg
      show Backed _ contract (c.session.take t (.text name) (some b)).1.store.generation k g
      rw [hsame]
      rcases hcarries contract k g hg with hg | ⟨rfl, hin⟩
      · exact (h.backed contract k g hg).mono hl
      · refine ⟨ticket, name, t.loop, b, document, ms, hl _ hsub, hl _ hacc, ?_, hb, hd, hm, hin⟩
        exact List.mem_cons.mpr (.inl (by rw [hk]; rfl))

/-- Every event keeps the log in agreement. -/
theorem step (h : Sound c) (e : Event) : Sound (c.step e) := by
  cases e with
  | compile source =>
    have ha := h.abandon .compile
    refine ⟨ha.tracked, fun ticket target hm => ?_, ha.orderly, ha.stamped, ha.backed⟩
    rcases List.mem_append.mp hm with hm | hm
    · exact ha.pending ticket target hm
    · exact nomatch List.mem_singleton.mp hm
  | symexec contract source => exact h.symexec contract source
  | reply j task =>
    rw [Course.step]
    cases hj : c.pending[j]? with
    | none => exact h
    | some job =>
      have hs : Sound { c with pending := c.pending.eraseIdx j } :=
        ⟨h.tracked, fun ticket target hm => h.pending _ _ (List.mem_of_mem_eraseIdx hm), h.orderly,
          h.stamped, h.backed⟩
      cases task with
      | none => exact hs
      | some task =>
        refine hs.begin task job fun ticket target he => ?_
        exact h.pending ticket target (he ▸ List.mem_of_getElem? hj)
  | fire i => exact h.fire i
  | answer j a => exact h.answer j a
  | broken j =>
    exact ⟨h.tracked.eraseIdx j, h.pending, h.orderly, h.stamped, h.backed⟩
  | close => exact (h.abandon .compile).abandon .symexec

/-- **Every run keeps the log in agreement.** -/
theorem run (h : Sound c) (es : List Event) : Sound (c.run es) := by
  induction es generalizing c with
  | nil => exact h
  | cons e es ih => exact ih (h.step e)

/-- A loop follows one job, and the poller remembers its target while the loop is live. -/
theorem context_of_accepted (h : Sound c) {ticket : Nat} {name contract : String} {l : Nat}
    {generation : Nat} (ha : .accepted ticket name l ∈ c.log)
    (hs : .submitted ticket contract generation ∈ c.log)
    (hl : l = c.session.executing.poller.loop) :
    c.session.executing.poller.context = some ⟨contract, generation⟩ := by
  obtain ⟨target, hstart, g, hg, hsub⟩ := h.orderly.accepted ticket name l ha
  obtain ⟨rfl, rfl⟩ := h.orderly.eq_of_ticket hs hsub
  obtain ⟨-, -, hx⟩ := h.tracked.executing.poller.live_of_started (mem_symexecs.mpr hstart) hl
  rw [← hg]
  exact hx

end Sound

/--
**Gas never crosses a recompilation or a contract.** After any run of a session, a record of gas in
the installed table of a contract is one of the measurements of a symbolic execution that was
handed in for this contract while the generation of the table was installed. The well-formed result
of a live loop whose job was handed in for another generation is refused: a stale generation is
shown, and no table changes.
-/
theorem gas_is_backed {settings : Settings} {s : Session} {es : List Event} {c : Course}
    (h : Session.new settings = .ok s) (hc : (Course.new s).run es = c) :
    (∀ contract t, c.session.store.find? contract = some t →
      t.generation = c.session.store.generation ∧
      ∀ k r g, t.find? k = some r → r.gas = some g →
        Backed c.log contract c.session.store.generation k g) ∧
    (∀ ticket contract generation contract' generation',
      .submitted ticket contract generation ∈ c.log →
      .submitted ticket contract' generation' ∈ c.log →
      contract = contract' ∧ generation = generation') ∧
    ∀ j t task a document ms, c.flights[j]? = some (t, task) → t.kind = .symexec →
      Live (symexecs c.log) t.loop → a.notFound = false → a.isSuccess = true →
      Session.payload .symexec a.result = .ok document → Measurements.read document = .ok ms →
      (∃ ticket name contract generation, task = .text name ∧ .accepted ticket name t.loop ∈ c.log ∧
        .submitted ticket contract generation ∈ c.log) ∧
      ∀ ticket name contract generation, .accepted ticket name t.loop ∈ c.log →
        .submitted ticket contract generation ∈ c.log →
        generation ≠ c.session.store.generation →
        (c.step (.answer j (some a))).session.store = c.session.store ∧
        (c.step (.answer j (some a))).session.executing.error =
          some (.staleGeneration contract generation c.session.store.generation) := by
  have hs : Sound c := hc ▸ (Sound.new h).run es
  refine ⟨fun contract t ht => ⟨hs.stamped contract t ht, fun k r g hr hg => ?_⟩,
    fun _ _ _ _ _ => hs.orderly.eq_of_ticket, ?_⟩
  · exact hs.backed contract k g ⟨t, ht, r, hr, hg⟩
  · intro j t task a document ms hf hk hl hn ha hd hm
    have hmem := List.mem_of_getElem? hf
    have hloop := hs.tracked.executing.poller.live _ hl
    constructor
    · obtain ⟨ticket, name, target, rfl, ⟨generation, -, hsub⟩, hacc, -⟩ := hs.of_flight hmem hk
      exact ⟨ticket, name, _, _, rfl, hacc, hsub⟩
    · intro ticket name contract generation hacc hsub hne
      have hx := hs.context_of_accepted hacc hsub hloop
      obtain ⟨he, hstore⟩ := Session.take_stale task hk hloop hx hn ha hd hm
        fun he => hne (Int.natCast_inj.mp he)
      have hstep : (c.step (.answer j (some a))).session = (c.session.take t task (some a)).1 := by
        rw [step, hf]
      rw [hstep]
      exact ⟨hstore, he⟩

/-- A compiler output with one contract of one instruction. -/
def smallOutput : Doc :=
  let code := .object [("name", .text "STOP"), ("source", .number (.int 0)),
    ("begin", .number (.int 0)), ("end", .number (.int 3))]
  let assembly := .object [(".code", .list [code]), (".data", .object [("0", .object
    [(".code", .list [])])])]
  .object [
    ("contracts", .object [("a.sol", .object [("C", .object
      [("evm", .object [("legacyAssembly", assembly)])])])]),
    ("sources", .object [("a.sol", .object [("ast", .object
      [("nodeType", .text "SourceUnit")])])])]

/-- A source compiled. -/
def smallCompile : List Event :=
  [.compile "abc", .reply 0 (some "first"), .fire 0,
    .answer 0 (some (.known (.text "SUCCESS") smallOutput))]

/-- A symbolic execution taken and asked about, and the source compiled again. -/
def smallRecompile : List Event :=
  [.reply 0 (some "second"), .fire 1, .compile "abc", .reply 0 (some "third"), .fire 2,
    .answer 1 (some (.known (.text "SUCCESS") smallOutput))]

/-- A session with the settings that come without a choice. -/
def smallSession : Session where
  settings := {}
  client := ⟨"http://127.0.0.1:5000", .int 30⟩
  store := ∅
  highlight := .none
  source := none
  compiled := none
  compiling := .new .compile
  executing := .new .symexec
  timers := []

/-- A measurement document without measurements. -/
def smallGas : Doc := .object [("creation", .object []), ("runtime", .object [])]

theorem plan_small : ((Course.new smallSession).run smallCompile).session.plan "C" none =
    .ok ("abc", ⟨"C", 1⟩) := by
  have hsource : ((Course.new smallSession).run smallCompile).session.source = some "abc" := by
    with_unfolding_all rfl
  have hdigest : ((Course.new smallSession).run smallCompile).session.store.digest =
      some (sourceDigest "abc") := by with_unfolding_all rfl
  have hfind : (((Course.new smallSession).run smallCompile).session.store.find? "C").isSome := by
    decide +kernel
  obtain ⟨t, ht⟩ := Option.isSome_iff_exists.mp hfind
  -- the digest of the source is the installed one, whatever it is
  have hcheck : ((Course.new smallSession).run smallCompile).session.store.checkSource "abc" =
      .ok () := if_pos hdigest
  simp only [Session.plan, hsource, Option.or, hcheck, ht]
  with_unfolding_all rfl

theorem run_small :
    (Course.new smallSession).run (smallCompile ++ .symexec "C" none :: smallRecompile) =
      (((Course.new smallSession).run smallCompile).handIn ⟨"C", 1⟩).run smallRecompile := by
  have hstep : ((Course.new smallSession).run smallCompile).step (.symexec "C" none) =
      ((Course.new smallSession).run smallCompile).handIn ⟨"C", 1⟩ := by
    rw [step, plan_small]
  show List.foldl step _ _ = _
  rw [List.foldl_append, List.foldl_cons]
  exact congrArg (fun c => List.foldl step c smallRecompile) hstep

/-- The gas of a symbolic execution comes when its source has been compiled again. -/
theorem gas_is_backed_recompiled :
    ∃ c, c = (Course.new smallSession).run (smallCompile ++ .symexec "C" none :: smallRecompile) ∧
      (c.step (.answer 0 (some (.known (.text "SUCCESS") smallGas)))).session.executing.error =
        some (.staleGeneration "C" 1 2) := by
  have hnew : Session.new {} = .ok smallSession := by with_unfolding_all rfl
  refine ⟨_, run_small.symm, ?_⟩
  obtain ⟨-, -, hstale⟩ := gas_is_backed hnew run_small
  have hlog : symexecs ((((Course.new smallSession).run smallCompile).handIn ⟨"C", 1⟩).run
      smallRecompile).log = [.polled ⟨2, .text "second"⟩,
        .started 2 (.text "second") (some ⟨"C", 1⟩), .cancelled] := by with_unfolding_all rfl
  have hgeneration : ((((Course.new smallSession).run smallCompile).handIn ⟨"C", 1⟩).run
      smallRecompile).session.store.generation = 2 := by with_unfolding_all rfl
  have hlive := (hstale 0 ⟨JobKind.symexec.intervals.1, .symexec, 2, false⟩ (.text "second")
    (.known (.text "SUCCESS") smallGas) smallGas ⟨[], []⟩ (by with_unfolding_all rfl) rfl
    (by rw [hlog]; exact .inr ⟨not_false, .inl rfl⟩) rfl rfl rfl rfl).2
  rw [hgeneration] at hlive
  refine (hlive 4 "second" "C" 1 ?_ ?_ (by decide)).2
  · exact List.mem_of_getElem? (i := 6) (by with_unfolding_all rfl)
  · exact List.mem_of_getElem? (i := 8) (by with_unfolding_all rfl)

end Course

end AsmLens
