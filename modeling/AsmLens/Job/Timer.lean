import AsmLens.Job.Kind
import AsmLens.Number.Basic

/-!
# Timers

A timer that was started runs its loop's next poll when it fires, unless it was
cancelled before. Timers are numbered in the order in which they were started. When
they fire is up to the world outside.
-/

namespace AsmLens

/-- A timer that was started for the next poll of a loop. -/
structure Timer where
  delay : Number
  /-- The kind of job whose poll it is for. -/
  kind : JobKind
  /-- The loop that it belongs to. -/
  loop : Nat
  cancelled : Bool
deriving DecidableEq

/-- All timers that were started, oldest first. -/
abbrev Timers := List Timer

namespace Timers

/-- The timers after one of them was cancelled. -/
def cancel (ts : Timers) (i : Nat) : Timers := ts.modify i fun t => { t with cancelled := true }

/-- The timers after one more was started. -/
def arm (ts : Timers) (delay : Number) (kind : JobKind) (loop : Nat) : Timers :=
  ts ++ [⟨delay, kind, loop, false⟩]

@[simp] theorem length_cancel (ts : Timers) (i : Nat) : (cancel ts i).length = ts.length := by
  simp [cancel]

@[simp] theorem length_arm (ts : Timers) (d : Number) (k : JobKind) (l : Nat) :
    (arm ts d k l).length = ts.length + 1 := by
  simp [arm]

/-- The number of a timer, counted from the end if it is negative. -/
def resolve? (ts : Timers) (i : Int) : Option Nat :=
  let j := if i < 0 then i + ts.length else i
  if 0 ≤ j ∧ j < ts.length then some j.toNat else none

end Timers

end AsmLens
