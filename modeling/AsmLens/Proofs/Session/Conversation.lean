import AsmLens.Proofs.Session.Course
import AsmLens.Session.Conversation

/-!
# Conversations are courses

A conversation puts the steps of a session together as a program does: it asks, waits, and takes
what comes back, and timers fire while it waits. Whatever the service replies, what a conversation
does to its session is what some events do, one after another. So what holds of every course of a
session holds of every conversation.

* `Conversation.Reaches` — what a conversation did, a course can do
* `Conversation.honest_tickWithin` — a timer's poll, and all that fires while it waits
* `Conversation.reaches_compile`, `reaches_symexec`, `reaches_fire`, `reaches_close` — operations
-/

namespace AsmLens

open Course (Event)

/-- What was added to a list last is found there and taken off again. -/
theorem getElem?_eraseIdx_of_eq_concat {α : Type} {xs ys : List α} {x : α} (h : xs = ys ++ [x]) :
    xs[ys.length]? = some x ∧ xs.eraseIdx ys.length = ys := by
  rw [h, List.getElem?_concat_length, List.eraseIdx_append_of_length_le (Nat.le_refl _),
    Nat.sub_self]
  exact ⟨rfl, List.append_nil _⟩

namespace Course

theorem run_append (c : Course) (es fs : List Event) : c.run (es ++ fs) = (c.run es).run fs :=
  List.foldl_append

/-- An event, what happens meanwhile, and the event that it leads to. -/
theorem run_around (c : Course) (e f : Event) (es : List Event) :
    c.run (e :: (es ++ [f])) = ((c.step e).run es).step f := by
  show (c.step e).run (es ++ [f]) = _
  rw [run_append]
  rfl

end Course

namespace Conversation

/-- A course can go on to a session, and no poll and no job handed in is left open by that. -/
def Reaches (c : Course) (s : Session) : Prop :=
  ∃ es, (c.run es).session = s ∧ (c.run es).flights = c.flights ∧ (c.run es).pending = c.pending

namespace Reaches

variable {c : Course} {s : Session}

theorem of_eq (h : s = c.session) : Reaches c s := ⟨[], h.symm, rfl, rfl⟩

/-- What can be reached from where a course can go. -/
theorem trans {s' : Session} (h : Reaches c s)
    (h' : ∀ d : Course, d.session = s → d.flights = c.flights → d.pending = c.pending →
      Reaches d s') : Reaches c s' := by
  obtain ⟨es, hs, hf, hp⟩ := h
  obtain ⟨fs, hs', hf', hp'⟩ := h' (c.run es) hs hf hp
  refine ⟨es ++ fs, ?_, ?_, ?_⟩
  · rw [Course.run_append, hs']
  · rw [Course.run_append, hf', hf]
  · rw [Course.run_append, hp', hp]

end Reaches

/-- What a timer does that fires: its conversation goes on as a course can. -/
def Honest (tick : Conversation → Timer → Conversation × Option Fault) : Prop :=
  ∀ (v : Conversation) (t : Timer) (c : Course), v.session = c.session → t ∈ c.session.timers →
    Reaches c (tick v t).1.session

/-! ## Exchanges -/

variable {tick : Conversation → Timer → Conversation × Option Fault}

/-- Timers that fire one after another. -/
theorem reaches_fireAll (ht : Honest tick) (is : List Int) (v : Conversation) (c : Course)
    (h : v.session = c.session) : Reaches c (fireAll tick v is).1.session := by
  induction is generalizing v c with
  | nil =>
    exact .of_eq h
  | cons i is ih =>
    rw [fireAll]
    cases hi : (v.session.timers.resolve? i).bind (v.session.timers[·]?) with
    | none => exact .of_eq h
    | some t =>
      obtain ⟨j, -, hj⟩ := Option.bind_eq_some_iff.mp hi
      have hr := ht v t c h (h ▸ List.mem_of_getElem? hj)
      cases hv : tick v t with
      | mk w fault =>
        rw [hv] at hr
        cases fault with
        | some f =>
          simp only [hv]
          exact hr
        | none =>
          simp only [hv]
          exact hr.trans fun d hd _ _ => ih w d hd.symm

/-- A request and its reply. -/
theorem reaches_exchange (ht : Honest tick) (v : Conversation) (r : Request) (c : Course)
    (h : v.session = c.session) : Reaches c (exchange tick v r).1.session := by
  unfold exchange
  dsimp only
  split
  · exact .of_eq h
  · next e rest _ =>
    have hr := reaches_fireAll ht e.fires ({ (tell { v with requests := v.requests ++ [r] }
      [Client.requestNote r]) with script := rest }) c h
    split
    · next w hw =>
      rw [hw] at hr
      exact hr
    · next w f hw =>
      rw [hw] at hr
      exact hr

/-- A poll that was asked about, after what happened meanwhile: its answer is taken, or it broke. -/
theorem reaches_answered {c d : Course} {t : Timer} {task : Doc} (v : Conversation) (r : Request)
    (reply : Reply) (h : v.session = d.session) (hf : d.flights = c.flights ++ [(t, task)])
    (hp : d.pending = c.pending) :
    ∃ e, (d.step e).session = (v.answered t task r reply).1.session ∧
      (d.step e).flights = c.flights ∧ (d.step e).pending = c.pending := by
  obtain ⟨hat, herase⟩ := getElem?_eraseIdx_of_eq_concat hf
  have taken : ∀ a, (d.step (.answer c.flights.length a)).session =
        (v.session.take t task a).1 ∧
      (d.step (.answer c.flights.length a)).flights = c.flights ∧
      (d.step (.answer c.flights.length a)).pending = c.pending := by
    intro a
    rw [Course.step, hat, h]
    exact ⟨rfl, herase, hp⟩
  unfold answered
  split
  · next a _ => exact ⟨.answer c.flights.length (some a), taken (some a)⟩
  · exact ⟨.answer c.flights.length none, taken none⟩
  · exact ⟨.broken c.flights.length, h.symm, herase, hp⟩

/-! ## Polls -/

theorem mem_of_started {v : Conversation} {count : Nat} {t : Timer}
    (h : v.started count = some t) : t ∈ v.session.timers := by
  unfold started at h
  split at h
  · exact List.mem_of_getElem? h
  · exact nomatch h

/-- **A timer's poll, and all that fires while it waits, goes as a course can.** -/
theorem honest_tickWithin (rounds : Nat) : Honest (tickWithin rounds) := by
  induction rounds with
  | zero =>
    intro v t c h _
    exact .of_eq h
  | succ rounds ih =>
    intro v t c h ht
    rw [tickWithin]
    cases ha : v.session.asked? t with
    | none => exact .of_eq h
    | some task =>
      obtain ⟨i, hi⟩ := List.getElem?_of_mem ht
      have hfire : c.step (.fire i) = { c with
          flights := c.flights ++ [(t, task)]
          log := .ofKind t.kind (fun _ => .polled ⟨t.loop, task⟩) :: c.log } := by
        rw [h] at ha
        simp only [Course.step, hi, ha]
      -- the timer fires, the world goes on while the service is asked, and the answer is taken
      cases hx : exchange (tickWithin rounds) v (v.session.client.inquiry t.kind task) with
      | mk w reply =>
        obtain ⟨es, hs, hf, hp⟩ := reaches_exchange ih v (v.session.client.inquiry t.kind task)
          (c.step (.fire i)) (by rw [hfire]; exact h)
        rw [hx] at hs
        obtain ⟨e, he⟩ := reaches_answered (c := c) (d := (c.step (.fire i)).run es) w
          (v.session.client.inquiry t.kind task) reply hs.symm (hf.trans (by rw [hfire]))
          (hp.trans (by rw [hfire]))
        have hr : Reaches c
            (w.answered t task (v.session.client.inquiry t.kind task) reply).1.session := by
          refine ⟨.fire i :: (es ++ [e]), ?_⟩
          rw [Course.run_around]
          exact he
        simp only [hx]
        split
        · next u f hu =>
          rw [hu] at hr
          exact hr
        · next u hu =>
          rw [hu] at hr
          -- in a prompt conversation the timer that was started fires at once
          split
          · next t' ht' =>
            exact hr.trans fun d hd _ _ => ih u t' d hd.symm (hd ▸ mem_of_started ht')
          · exact hr

/-! ## Operations -/

variable {v : Conversation} {c : Course}

theorem reaches_fire (h : v.session = c.session) (i : Int) (force : Bool) :
    Reaches c (v.fire i force).1.session := by
  unfold fire
  split
  · exact .of_eq h
  · next t ht =>
    obtain ⟨j, -, hj⟩ := Option.bind_eq_some_iff.mp ht
    split
    · exact .of_eq h
    · exact honest_tickWithin _ v t c h (h ▸ List.mem_of_getElem? hj)

theorem reaches_close (h : v.session = c.session) : Reaches c v.close.session := by
  refine ⟨[.close], ?_, rfl, rfl⟩
  show _ = v.session.close.1
  rw [h]
  rfl

/-- The timer that was started fires at once, or nothing happens. -/
theorem reaches_chase {α : Type} (h : v.session = c.session) (count : Nat) (a : α) :
    Reaches c (v.chase count a).1.session := by
  unfold chase
  split
  · exact .of_eq h
  · next t ht => exact honest_tickWithin _ v t c h (h ▸ mem_of_started ht)

/-- A job handed in and followed, where an event does the handing in. -/
theorem reaches_submit (first : Event) (sub : Submission) {kind : JobKind} {job : Doc}
    {follow : Session → String → Session × List Note} (h : v.session = c.session)
    (hs : (c.step first).session = (c.session.abandon kind).1)
    (hf : (c.step first).flights = c.flights) (hp : (c.step first).pending = c.pending ++ [sub])
    (hfollow : ∀ (d : Course) task, (d.begin task sub).session = (follow d.session task).1 ∧
      (d.begin task sub).flights = d.flights ∧ (d.begin task sub).pending = d.pending) :
    Reaches c (v.submit kind job follow).1.session := by
  unfold submit
  dsimp only
  have hv : (v.step (v.session.abandon kind)).session = (c.step first).session := by
    rw [hs, ← h]
    rfl
  cases hx : (v.step (v.session.abandon kind)).send
      ((v.step (v.session.abandon kind)).session.client.submission kind job) with
  | mk w reply =>
    obtain ⟨es, hws, hwf, hwp⟩ := reaches_exchange (honest_tickWithin _)
      (v.step (v.session.abandon kind)) _ (c.step first) hv
    rw [show exchange _ _ _ = _ from hx] at hws
    -- what happens meanwhile leaves the job that was handed in at the end of the list
    obtain ⟨hat, herase⟩ := getElem?_eraseIdx_of_eq_concat (hwp.trans hp)
    dsimp only
    split
    · refine ⟨first :: (es ++ [.reply c.pending.length none]), ?_⟩
      rw [Course.run_around, Course.step, hat]
      exact ⟨hws, hwf.trans hf, herase⟩
    · next task _ =>
      obtain ⟨hbs, hbf, hbp⟩ := hfollow { (c.step first).run es with
        pending := ((c.step first).run es).pending.eraseIdx c.pending.length } task
      have hr : Reaches c (follow w.session task).1 := by
        refine ⟨first :: (es ++ [.reply c.pending.length (some task)]), ?_⟩
        rw [Course.run_around, Course.step, hat, ← hws]
        exact ⟨hbs, hbf.trans (hwf.trans hf), hbp.trans herase⟩
      exact hr.trans fun d hd _ _ => reaches_chase hd.symm _ _

/-- **A compilation asked for in a conversation goes as a course can.** -/
theorem reaches_compile (h : v.session = c.session) (source : String) :
    Reaches c (v.compile source).1.session :=
  reaches_submit (.compile source) (.compile source) h rfl rfl rfl
    fun _ _ => ⟨rfl, rfl, rfl⟩

/-- **A symbolic execution asked for in a conversation goes as a course can.** -/
theorem reaches_symexec (h : v.session = c.session) (contract : String) (source : Option String) :
    Reaches c (v.symexec contract source).1.session := by
  unfold symexec
  split
  · exact .of_eq h
  · next text target hplan =>
    rw [h] at hplan
    have hstep : c.step (.symexec contract source) = c.handIn target := by
      rw [Course.step, hplan]
    exact reaches_submit (.symexec contract source) (.symexec c.log.length target) h
      (by rw [hstep]; rfl) (by rw [hstep]; rfl) (by rw [hstep]; rfl) fun _ _ => ⟨rfl, rfl, rfl⟩

end Conversation

end AsmLens
