import ShardFleet.Activity.Basic

/-!
An activity on its own, from one moment to another.

The caller may cancel at an instant named beforehand. What the activity does at that instant it
still does; if it then has to wait it is given up (`Activity.run`). So an activity that never
waits is never cancelled once it has begun, even if the caller cancels at the instant at which
it begins.

A caller that will cancel sets an alarm when the call begins. The alarm stays set when the call
is over. It takes a turn when it is set and another when it goes off, ahead of the invocations
that queue for theirs at the same instant; an activity on its own does not queue. Callers who cancel
in other ways than by an alarm interrupt the call (`Interruption`).
-/

namespace ShardFleet

/-- Whether and when the caller cancels. -/
inductive Cancellation where
  | never
  /-- At an instant that may be still to come, after what is under way has gone on. -/
  | due (instant : Nat)
  /-- The caller has cancelled. -/
  | fired
  deriving DecidableEq, Repr, Inhabited

namespace Cancellation

def hasFired (cancellation : Cancellation) : Bool := cancellation = .fired

/-- The instant at which the caller will cancel. -/
def instant? : Cancellation → Option Nat
  | .due instant => some instant
  | .never | .fired => none

/-- What is known of the caller once everyone has had a turn at the instant `now`. -/
def settle (now : Nat) : Cancellation → Cancellation
  | .due instant => if instant ≤ now then .fired else .due instant
  | .never => .never
  | .fired => .fired

/-- Whether the caller cancels while something waits for the instant `wake`. -/
def precedes (wake : Nat) : Cancellation → Bool
  | .due instant => instant < wake
  | .never => false
  | .fired => true

end Cancellation

/-- A world at an instant, and how the caller stands to what is done in it. -/
structure Moment (σ : Type) where
  now : Nat
  world : σ
  cancellation : Cancellation := .never
  /-- The instants for which callers have set alarms, of this call and of those before it. -/
  alarms : List Nat := []
  /-- How many alarms queue for a turn at this instant. -/
  queued : Nat := 0

namespace Moment

variable {σ : Type}

/-- The moment at which a call begins whose caller will cancel after a span. -/
def calledUntil (moment : Moment σ) (span : Duration) : Moment σ :=
  let instant := moment.now + span.sleepTicks
  { moment with
    cancellation := .due instant
    alarms := moment.alarms ++ [instant]
    queued := moment.queued + 1 }

/-- The moment at which the clock shows a later instant, after everyone has had a turn. -/
def moveTo (moment : Moment σ) (instant : Nat) : Moment σ :=
  { moment with now := instant, queued := moment.alarms.count instant }

/-- The moment at which the caller cancels, with what that does to the world. -/
def cancel (moment : Moment σ) (abandon : σ → σ) : Moment σ :=
  { moment with
    now := max moment.now (moment.cancellation.instant?.getD 0)
    world := abandon moment.world
    cancellation := .fired
    queued := 0 }

end Moment

/-- What takes virtual time and changes the world. -/
abbrev Timed (σ : Type) := StateM (Moment σ)

namespace Timed

variable {σ α : Type}

/-- Changes the world at once, and brings a value. -/
def instantly (f : σ → α × σ) : Timed σ α := fun moment =>
  let (value, world) := f moment.world
  (value, { moment with world })

/-- Whether the caller has cancelled. -/
def cancelled : Timed σ Bool := fun moment => (moment.cancellation.hasFired, moment)

/-- One thing after another, from moment to moment. -/
theorem bind_apply {β : Type} (first : Timed σ α) (next : α → Timed σ β) (moment : Moment σ) :
    (first >>= next) moment = next (first moment).1 (first moment).2 :=
  rfl

end Timed

namespace Activity

variable {σ ρ : Type}

/-- Runs an activity to its end, or gives it up when the caller cancels while it waits: then
there is no result. -/
def run : Activity σ ρ → Timed σ (Option ρ)
  | .done result, moment => (some result, moment)
  | .act update next, moment =>
      (next moment.world).run { moment with world := update moment.world }
  | .clock next, moment => (next moment.now).run moment
  | .pause 0 _ next, moment => next.run moment
  | .pause (ticks + 1) abandon next, moment =>
      if moment.cancellation.precedes (moment.now + (ticks + 1)) then
        (none, moment.cancel abandon)
      else next.run (moment.moveTo (moment.now + (ticks + 1)))

end Activity

/-- Runs a job to its end, or gives it up as cancelled. -/
def Job.perform {σ α : Type} (job : Job σ α) : Timed σ (Except Error α) := do
  return (← Activity.run job).getD (.error .cancelled)

end ShardFleet
