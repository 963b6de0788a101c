import ShardFleet.Scatter.Run

/-!
Callers who cancel at any point of a call.

A caller with an alarm cancels at an instant, before whatever is due then (`Cancellation.due`). Any
other may cancel between any two moves of a call: an operation may reach for its caller and then
return all the same, a task may have set its timer after an invocation has set its own, and where
there are several threads the call does not even wait for its turn. Nothing is known of such a
caller beforehand, so it is told from outside how far the call has got when it cancels.
-/

namespace ShardFleet

/-- When the caller cancels, if not at the instant of an alarm. -/
inductive Interruption where
  | never
  /-- Before the call begins. -/
  | before
  /-- When the call has made so many moves. -/
  | amid (moves : Nat)
  deriving DecidableEq, Repr, Inhabited

variable {σ α : Type}

/-- The caller cancels between two moves. Everything that waits queues. -/
def Run.interrupt (run : Run σ α) : Run σ α :=
  if run.cancellation.hasFired then run else { run with cancellation := .fired }.rouse

/-- The state in which a call ends that is interrupted. -/
def Call.finalUnder (call : Call σ α) (interruption : Interruption) (strays : List ShardId)
    (targets : List Shard) (moment : Moment σ) : Run σ α :=
  match interruption with
  | .never => call.final strays targets moment
  | .before => call.final strays targets { moment with cancellation := .fired }
  | .amid moves =>
      let middle := call.advance moves (call.begin strays targets moment)
      call.advance (call.moveBound targets.length) middle.interrupt

end ShardFleet
