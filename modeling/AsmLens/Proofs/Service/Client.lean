import AsmLens.Session.Conversation

/-!
# How requests to the service end

Whatever comes back from a request, the client gives what it was asked for or a problem with the
service, with one exception: it looks members up in the document of a response before it knows
that the document is an object. A response with any other document is a fault, and a fault in a
poll ends the polling, while a poll that fails with a problem is repeated.

* `Reply.Legible`, `Reply.Illegible` — replies by the document in them
* `Client.Answered` — an outcome that is a value or a problem with the service
* `Client.answered_iff_legible` — which outcomes are
-/

namespace AsmLens

/-! ## Replies -/

namespace Reply

/-- The document in a reply. -/
def document? : Reply → Option Doc
  | .response r => r.body
  | _ => none

/-- A reply without a document, or with one whose members can be looked up. -/
def Legible (r : Reply) : Prop := ∀ d, r.document? = some d → ∃ ms, d = .object ms

/-- A reply with a document that has no members. -/
def Illegible (r : Reply) (d : Doc) : Prop := r.document? = some d ∧ ∀ ms, d ≠ .object ms

/-- A reply that says that what was asked for does not exist. -/
def IsAbsence (reply : Reply) : Prop := ∃ r, reply = .response r ∧ r.status = 404

theorem legible_or (r : Reply) : r.Legible ∨ ∃ d, r.Illegible d := by
  cases hd : r.document? with
  | none => exact .inl fun d h => (nomatch hd.symm.trans h)
  | some d =>
    cases d with
    | object ms => exact .inl fun d h => ⟨ms, (Option.some.inj (hd.symm.trans h)).symm⟩
    | _ => exact .inr ⟨_, hd, fun ms => nofun⟩

variable {reply : Reply} {d : Doc}

/-- An illegible reply is a response. -/
theorem Illegible.response (h : reply.Illegible d) :
    ∃ r : Response, reply = .response r ∧ r.body = some d := by
  cases reply with
  | response r => exact ⟨r, rfl, h.1⟩
  | _ => exact nomatch h.1

end Reply

namespace Client

/-- A value, or a problem with the service. -/
inductive Answered {α : Type} : Result α → Prop
  | value (a : α) : Answered (.ok a)
  | problem {p : Problem} (h : p.report.kind = .service) : Answered (.error (.problem p))

/-- The fault of looking members up in a document that has none. -/
def illegible (d : Doc) : Fault := .noAttribute d.shape "get"

theorem not_answered_fault {α : Type} (f : Fault) : ¬Answered (.error (.fault f) : Result α) := nofun

variable {c : Client} {url : String} {reply : Reply} {d : Doc}

/-! ## Documents -/

theorem getMember_illegible (h : ∀ ms, d ≠ .object ms) (name : String) :
    d.getMember name = .error (illegible d) := by
  cases d with
  | object ms => exact absurd rfl (h ms)
  | _ => rfl

theorem refusal_illegible {r : Response} (hd : r.body = some d) (h : ∀ ms, d ≠ .object ms) :
    refusal r = .error (illegible d) := by
  rw [refusal, hd]
  cases d with
  | object ms => exact absurd rfl (h ms)
  | _ => rfl

theorem exists_refusal {r : Response} (h : (Reply.response r).Legible) :
    ∃ reason, refusal r = .ok reason := by
  unfold refusal
  cases hb : r.body with
  | none => exact ⟨_, rfl⟩
  | some d =>
    obtain ⟨ms, rfl⟩ := h d hb
    exact ⟨_, rfl⟩

/-- The document in the reply to a request. -/
def readDocument (c : Client) (url : String) (reply : Reply) : Result Doc :=
  c.readReply url reply >>= readResponse url

/-- A legible reply gives an object, or a problem. -/
theorem readDocument_legible (c : Client) (url : String) (hb : ∀ f, reply ≠ .broken f)
    (hl : reply.Legible) :
    (∃ ms, c.readDocument url reply = .ok (.object ms)) ∨
      ∃ p, p.report.kind = .service ∧ c.readDocument url reply = .error (.problem p) := by
  cases reply with
  | timedOut => exact .inr ⟨_, rfl, rfl⟩
  | unreachable reason => exact .inr ⟨_, rfl, rfl⟩
  | broken f => exact absurd rfl (hb f)
  | response r =>
    show (∃ ms, readResponse url r = _) ∨ ∃ p, _ ∧ readResponse url r = _
    unfold readResponse
    by_cases hs : r.status = 200
    · rw [if_pos hs]
      cases hd : r.body with
      | none => exact .inr ⟨_, rfl, rfl⟩
      | some d =>
        obtain ⟨ms, rfl⟩ := hl d hd
        exact .inl ⟨ms, rfl⟩
    · obtain ⟨reason, hr⟩ := exists_refusal hl
      rw [if_neg hs, hr]
      exact .inr ⟨_, rfl, rfl⟩

/-- An illegible reply gives its document if its status is that of success, and else a fault. -/
theorem readDocument_illegible (c : Client) (url : String) (h : reply.Illegible d) :
    c.readDocument url reply = .ok d ∨
      c.readDocument url reply = .error (.fault (illegible d)) := by
  obtain ⟨r, rfl, hd⟩ := h.response
  show readResponse url r = _ ∨ readResponse url r = _
  unfold readResponse
  by_cases hs : r.status = 200
  · rw [if_pos hs, hd]
    exact .inl rfl
  · rw [if_neg hs, refusal_illegible hd h.2]
    exact .inr rfl

/-! ## Members -/

/-- A member of the document in a reply looked up, and what follows. -/
def readMember {α : Type} (c : Client) (url name : String) (reply : Reply)
    (k : Doc → Doc → Result α) : Result α := do
  let d ← c.readDocument url reply
  k d (← d.getMember name)

variable {α : Type} {k : Doc → Doc → Result α}

theorem answered_readMember (c : Client) (url name : String) (hk : ∀ d v, Answered (k d v))
    (hb : ∀ f, reply ≠ .broken f) (hl : reply.Legible) :
    Answered (c.readMember url name reply k) := by
  unfold readMember
  rcases c.readDocument_legible url hb hl with ⟨ms, h⟩ | ⟨p, hp, h⟩ <;> rw [h]
  · exact hk _ _
  · exact .problem hp

theorem readMember_illegible (c : Client) (url name : String) (h : reply.Illegible d) :
    c.readMember url name reply k = .error (.fault (illegible d)) := by
  unfold readMember
  rcases c.readDocument_illegible url h with hd | hd <;> rw [hd]
  · simp only [bind, Except.bind, getMember_illegible h.2]
    rfl
  · rfl

/-! ## Requests -/

theorem readTask_eq (c : Client) (kind : JobKind) (reply : Reply) :
    c.readTask kind reply = c.readMember (c.address kind) "task_id" reply fun d v =>
      if (v.orElse (d.get "taskId")).isBlank then
        Failure.raise (.noTaskId (path kind) (c.address kind))
      else .ok (v.orElse (d.get "taskId")).display := by
  rw [readTask, readMember, readDocument]
  cases c.readReply (c.address kind) reply <;> rfl

theorem readAnswer_eq (c : Client) (request : Request) (ha : ¬reply.IsAbsence) :
    c.readAnswer request reply = c.readMember request.url "task_status" reply fun d v =>
      .ok (.known v (d.get "task_result")) := by
  rw [readAnswer, readMember, readDocument]
  cases reply with
  | response r =>
    have hs : r.status ≠ 404 := fun hs => ha ⟨r, rfl, hs⟩
    simp only [readReply, bind, Except.bind, if_neg hs]
    rfl
  | _ => rfl

/-- That the service does not know a job is an answer, whatever else the response says. -/
theorem readAnswer_absence (c : Client) (request : Request) (ha : reply.IsAbsence) :
    c.readAnswer request reply = .ok .unknown := by
  obtain ⟨r, rfl, hs⟩ := ha
  simp only [readAnswer, readReply, bind, Except.bind, if_pos hs]
  rfl

/-- Only such a response says that the service does not know a job. -/
theorem isAbsence_of_readAnswer {c : Client} {request : Request} {a : JobAnswer}
    (h : c.readAnswer request reply = .ok a) (hn : a.notFound = true) : reply.IsAbsence := by
  refine Classical.byContradiction fun ha => ?_
  rw [c.readAnswer_eq request ha, readMember] at h
  cases hd : c.readDocument request.url reply with
  | error e =>
    rw [hd] at h
    exact nomatch h
  | ok d =>
    cases hm : d.getMember "task_status" with
    | error f =>
      simp only [hd, bind, Except.bind, hm] at h
      exact nomatch h
    | ok v =>
      simp only [hd, bind, Except.bind, hm] at h
      exact nomatch hn.symm.trans (congrArg JobAnswer.notFound (Except.ok.inj h)).symm

theorem answered_readTask (c : Client) (kind : JobKind) (hb : ∀ f, reply ≠ .broken f)
    (hl : reply.Legible) : Answered (c.readTask kind reply) := by
  rw [readTask_eq]
  refine c.answered_readMember _ _ (fun d v => ?_) hb hl
  split
  · exact .problem rfl
  · exact .value _

theorem answered_readAnswer (c : Client) (request : Request) (hb : ∀ f, reply ≠ .broken f)
    (h : reply.Legible ∨ reply.IsAbsence) : Answered (c.readAnswer request reply) := by
  by_cases ha : reply.IsAbsence
  · rw [c.readAnswer_absence request ha]
    exact .value _
  · rw [c.readAnswer_eq request ha]
    exact c.answered_readMember _ _ (fun d v => .value _) hb (h.resolve_right ha)

theorem readTask_illegible (c : Client) (kind : JobKind) (h : reply.Illegible d) :
    c.readTask kind reply = .error (.fault (illegible d)) := by
  rw [readTask_eq]
  exact c.readMember_illegible _ _ h

theorem readAnswer_illegible (c : Client) (request : Request) (h : reply.Illegible d)
    (ha : ¬reply.IsAbsence) : c.readAnswer request reply = .error (.fault (illegible d)) := by
  rw [c.readAnswer_eq request ha]
  exact c.readMember_illegible _ _ h

/-! ## Polls -/

variable {request : Request}

/-- A poll that fails with a problem counts as one that did not reach the service. -/
theorem session_answered (v : Conversation) (t : Timer) (task : Doc)
    (h : Answered (v.session.client.readAnswer request reply)) :
    (v.answered t task request reply).2 = none ∧
      ∃ a, (v.answered t task request reply).1.session = (v.session.take t task a).1 ∧
        (a = none ↔ ∃ p, v.session.client.readAnswer request reply = .error (.problem p)) := by
  unfold Conversation.answered
  cases hr : v.session.client.readAnswer request reply with
  | ok a => exact ⟨rfl, some a, rfl, fun h => (nomatch h), fun ⟨_, h⟩ => (nomatch h)⟩
  | error e =>
    cases e with
    | problem p => exact ⟨rfl, none, rfl, fun _ => ⟨p, rfl⟩, fun _ => rfl⟩
    | fault f => exact absurd (hr ▸ h) (not_answered_fault f)

/-- A fault ends a poll, and the session does not learn of it. -/
theorem answered_eq_fault (v : Conversation) (t : Timer) (task : Doc) {f : Fault}
    (h : v.session.client.readAnswer request reply = .error (.fault f)) :
    v.answered t task request reply = (v, some f) := by
  rw [Conversation.answered, h]

/--
**Requests fail only with problems of the service, unless the reply is illegible.** Whatever comes
back, handing a job in gives a text or such a problem if the reply has no document or an object;
asking about a job gives an answer or such a problem then, and also if the service says that there
is no such job. Such a poll is taken by the session, and one that fails counts as one that did not
reach the service. With any other document both requests end in the fault of looking members up in
it, and a poll that does leaves everything as it was.
-/
theorem answered_iff_legible (v : Conversation) (kind : JobKind) (request : Request) (reply : Reply)
    (t : Timer) (task : Doc) (hb : ∀ f, reply ≠ .broken f) :
    (Answered (v.session.client.readTask kind reply) ↔ reply.Legible) ∧
    (Answered (v.session.client.readAnswer request reply) ↔ reply.Legible ∨ reply.IsAbsence) ∧
    (reply.Legible ∨ reply.IsAbsence → (v.answered t task request reply).2 = none ∧
      ∃ a, (v.answered t task request reply).1.session = (v.session.take t task a).1 ∧
        (a = none ↔ ∃ p, v.session.client.readAnswer request reply = .error (.problem p))) ∧
    (∀ d, reply.Illegible d →
      v.session.client.readTask kind reply = .error (.fault (illegible d)) ∧
      (¬reply.IsAbsence →
        v.session.client.readAnswer request reply = .error (.fault (illegible d)) ∧
        v.answered t task request reply = (v, some (illegible d)))) := by
  have htask : Answered (v.session.client.readTask kind reply) ↔ reply.Legible := by
    refine ⟨fun h => reply.legible_or.resolve_right ?_, answered_readTask _ kind hb⟩
    rintro ⟨d, hd⟩
    exact not_answered_fault _ (readTask_illegible _ kind hd ▸ h)
  have hanswer : Answered (v.session.client.readAnswer request reply) ↔
      reply.Legible ∨ reply.IsAbsence := by
    refine ⟨fun h => ?_, answered_readAnswer _ request hb⟩
    by_cases ha : reply.IsAbsence
    · exact .inr ha
    · refine .inl (reply.legible_or.resolve_right ?_)
      rintro ⟨d, hd⟩
      exact not_answered_fault _ (readAnswer_illegible _ request hd ha ▸ h)
  refine ⟨htask, hanswer, fun h => session_answered v t task (hanswer.mpr h), fun d hd => ?_⟩
  refine ⟨readTask_illegible _ kind hd, fun ha => ?_⟩
  have h := readAnswer_illegible v.session.client request hd ha
  exact ⟨h, answered_eq_fault v t task h⟩

/-- A conversation that has yet to begin. -/
def opening : Conversation where
  session := {
    settings := {}, client := ⟨"http://127.0.0.1:5000", .int 30⟩, store := ∅, highlight := .none
    source := none, compiled := none, compiling := .new .compile, executing := .new .symexec
    timers := [] }
  script := []
  closing := .timedOut
  prompt := false
  requests := []
  notes := []

/-- A list comes back from a poll; nothing comes back when a job is handed in. -/
theorem answered_iff_legible_opening :
    opening.answered ⟨.int 1, .compile, 1, false⟩ (.text "t")
        (opening.session.client.inquiry .compile (.text "t")) (.response ⟨200, none, some (.list [])⟩) =
      (opening, some (.noAttribute .list "get")) ∧
    Answered (opening.session.client.readTask .compile .timedOut) := by
  have hlist := (answered_iff_legible opening .compile
    (opening.session.client.inquiry .compile (.text "t")) (.response ⟨200, none, some (.list [])⟩)
    ⟨.int 1, .compile, 1, false⟩ (.text "t") nofun).2.2.2 (.list []) ⟨rfl, nofun⟩
  have hnothing := (answered_iff_legible opening .compile
    (opening.session.client.inquiry .compile (.text "t")) .timedOut
    ⟨.int 1, .compile, 1, false⟩ (.text "t") nofun).1
  refine ⟨(hlist.2 ?_).2, hnothing.mpr nofun⟩
  rintro ⟨r, hr, hs⟩
  cases hr
  exact absurd hs (by decide)

end Client

end AsmLens
