import ShardFleet.Fairness
import ShardFleet.Intent.Flow
import ShardFleet.Side

/-!
Running call flows in virtual time.

A spawned course is a task of its own, next to the main flow that everything begins with. A task
has its turn when it is new, when a timer of its own has run out, or when a task it waits for has
ended. In its turn each of its courses goes as far as it comes, up to a limit: so many waits may
end in one turn (`Fairness.allowance`). Once they have, no other wait of the task is looked at in
this turn, so that its timer may not be set yet, and nobody knows that it waits; the task asks for
another turn instead. Two courses side by side take turns at going first, from one turn of their
task to the next, whether or not both can go on.

Tasks queue for their turns. When timers run out at an instant the main flow, if it is among those
concerned, has its turn before the others, which queue in the order in which the timers were set.
Otherwise it has its turn in a recess: when the queue is empty, or after a batch of turns. In a
recess, too, those that have asked for another turn begin to queue for it, whoever asked last in
front. When nobody has anything left to do the clock moves to the next instant at which a timer
runs out. `Schedule.step` gives one turn, and the number of steps is bounded by the number of
actions.
-/

namespace ShardFleet

/-- A course under way. -/
inductive Strand where
  /-- Has not begun. -/
  | fresh (course : Course)
  | ended (shown : List Transcript)
  /-- Goes on at an instant; a timer may be set for it. -/
  | asleep (wake : Nat) (timed : Bool) (next : Course)
  /-- Goes on when a task has ended. -/
  | awaiting (task : Nat) (next : List Transcript → Course)
  /-- Two courses side by side, and which of them goes first in the next turn. -/
  | paired (first : Side) (left right : Strand)
      (next : List Transcript → List Transcript → Course)

/-- What a strand has shown, if it has ended. -/
def Strand.result? : Strand → Option (List Transcript)
  | .ended shown => some shown
  | .fresh _ | .asleep .. | .awaiting .. | .paired .. => none

/-- A spawned course, and the task that waits for it: a number, or the main flow. -/
structure SpawnedTask where
  strand : Strand
  parent : Option Nat
  /-- Whether the parent has looked for its end, and found that it has to wait. -/
  watched : Bool := false

/-- A timer of a task. -/
structure Timer where
  wake : Nat
  task : Option Nat

/-- The main flow and its tasks at an instant. -/
structure Schedule where
  now : Nat := 0
  contexts : Contexts := {}
  main : Strand
  /-- Whether a task that the main flow waits for has ended since its last turn. -/
  mainReady : Bool := false
  /-- How many waits may still end in this turn. -/
  allowance : Nat := Fairness.allowance
  /-- How many tasks have had a turn since the last recess. -/
  turns : Nat := 0
  /-- The tasks by number. -/
  tasks : List SpawnedTask := []
  /-- The tasks that queue for a turn. -/
  ready : List Nat := []
  /-- Those that have asked for another turn, the latest first. -/
  deferred : List (Option Nat) := []
  /-- The timers that have not run out, in the order in which they were set. -/
  timers : List Timer := []

/-- How a wait turns out when it is looked at. -/
inductive Wait where
  | over
  | pending
  /-- It could not be looked at in this turn. -/
  | postponed
  deriving DecidableEq, Repr

/-- What a turn does to the schedule. -/
abbrev Turn := StateM Schedule

namespace Schedule

/-- What a task has shown, if it has ended. -/
def result? (schedule : Schedule) (task : Nat) : Option (List Transcript) :=
  schedule.tasks[task]?.bind (·.strand.result?)

/-- Lets a task queue for a turn, or the main flow for its own. A task that has ended needs no
more turns. -/
def rouse (schedule : Schedule) : Option Nat → Schedule
  | none => { schedule with mainReady := true }
  | some task =>
      if task ∈ schedule.ready ∨ (schedule.result? task).isSome then schedule
      else { schedule with ready := schedule.ready ++ [task] }

/-- Starts a course as a task of its own; the number of the task. -/
def spawn (parent : Option Nat) (body : Course) : Turn Nat := fun schedule =>
  let task := schedule.tasks.length
  let tasks := schedule.tasks ++ [{ strand := .fresh body, parent }]
  (task, { schedule with tasks }.rouse (some task))

/-- Looks at a wait of a task, if this turn allows it; otherwise the task asks for another. -/
def look (task : Option Nat) (isOver : Schedule → Bool) : Turn Wait := fun schedule =>
  match schedule.allowance with
  | 0 => (.postponed, { schedule with deferred := task :: schedule.deferred })
  | left + 1 =>
      if isOver schedule then (.over, { schedule with allowance := left }) else (.pending, schedule)

/-- Looks whether an instant has come. A timer is set if there is none and it is needed. -/
def lookAtClock (task : Option Nat) (wake : Nat) (timed : Bool) : Turn Wait := do
  let wait ← look task fun schedule => wake ≤ schedule.now
  if wait = .pending && !timed then
    modify fun schedule => { schedule with timers := schedule.timers ++ [⟨wake, task⟩] }
  return wait

/-- Looks whether a spawned task has ended, and for what it has shown. If it has not, its parent
is told of its end. -/
def lookAtTask (task : Option Nat) (child : Nat) : Turn (Option (List Transcript)) := do
  match ← look task fun schedule => (schedule.result? child).isSome with
  | .over => return (← get).result? child
  | .pending =>
      modify fun schedule => { schedule with
        tasks := schedule.tasks.modify child fun spawned => { spawned with watched := true } }
      return none
  | .postponed => return none

/-- Changes the contexts; how they were before. -/
def changeContexts (update : Contexts → Contexts) : Turn Contexts := fun schedule =>
  (schedule.contexts, { schedule with contexts := update schedule.contexts })

end Schedule

/-- A course of a task as far as it comes in this turn. -/
def Course.go (task : Option Nat) : Course → Turn Strand
  | .ended shown => return .ended shown
  | .act update next => do
      let before ← Schedule.changeContexts update
      (next before).go task
  | .sleep ticks next => do
      let wake := (← get).now + ticks
      match ← Schedule.lookAtClock task wake false with
      | .over => next.go task
      | .pending => return .asleep wake true next
      | .postponed => return .asleep wake false next
  | .spawn body next => do
      let child ← Schedule.spawn task body
      match ← Schedule.lookAtTask task child with
      | some shown => (next shown).go task
      | none => return .awaiting child next
  | .join left right next => do
      let left ← left.go task
      let right ← right.go task
      match left, right with
      | .ended one, .ended other => (next one other).go task
      | left, right => return .paired .right left right next

/-- A strand of a task as far as it comes in this turn. -/
def Strand.go (task : Option Nat) : Strand → Turn Strand
  | .fresh course => course.go task
  | .ended shown => return .ended shown
  | .asleep wake timed next => do
      match ← Schedule.lookAtClock task wake timed with
      | .over => next.go task
      | .pending => return .asleep wake true next
      | .postponed => return .asleep wake timed next
  | .awaiting child next => do
      match ← Schedule.lookAtTask task child with
      | some shown => (next shown).go task
      | none => return .awaiting child next
  | .paired first left right next => do
      let (left, right) ←
        match first with
        | .left => do
            let left ← left.go task
            let right ← right.go task
            pure (left, right)
        | .right => do
            let right ← right.go task
            let left ← left.go task
            pure (left, right)
      match left, right with
      | .ended one, .ended other => (next one other).go task
      | left, right => return .paired first.other left right next

namespace Schedule

/-- Lets a strand of a task have its turn. -/
def giveTurn (schedule : Schedule) (task : Option Nat) (strand : Strand) : Strand × Schedule :=
  strand.go task { schedule with allowance := Fairness.allowance }

/-- The turn of the main flow. -/
def mainTurn (schedule : Schedule) : Schedule :=
  let (main, after) := { schedule with mainReady := false }.giveTurn none schedule.main
  { after with main }

/-- The turn of a task. When it has ended its parent queues, if it waits for that. -/
def taskTurn (schedule : Schedule) (number : Nat) : Schedule :=
  match schedule.tasks[number]? with
  | none => schedule
  | some task =>
      let (strand, after) := schedule.giveTurn (some number) task.strand
      let kept := { after with tasks := after.tasks.set number { task with strand } }
      match strand.result? with
      | some _ => if task.watched then kept.rouse task.parent else kept
      | none => kept

/-- The main flow has its turn, if it can go on. -/
def attend (schedule : Schedule) : Schedule :=
  if schedule.mainReady then schedule.mainTurn else schedule

/-- Those that have asked for another turn queue for it, the latest to ask in front, and the main
flow is attended to. -/
def recess (schedule : Schedule) : Schedule :=
  (schedule.deferred.foldl rouse { schedule with turns := 0, deferred := [] }).attend

/-- Moves the clock to the next instant at which timers run out. -/
def moveOn (schedule : Schedule) : Schedule :=
  let now := (schedule.timers.map Timer.wake).min?.getD schedule.now
  let (ran, timers) := schedule.timers.partition (·.wake ≤ now)
  ((ran.map Timer.task).foldl rouse { schedule with now, timers, turns := 0 }).attend

/-- Gives one turn, holds a recess, or moves the clock; `none` when the main flow has ended. -/
def step (schedule : Schedule) : Option Schedule :=
  match schedule.main.result? with
  | some _ => none
  | none =>
      match schedule.ready with
      | task :: others =>
          if schedule.turns < Fairness.batch then
            some ({ schedule with ready := others, turns := schedule.turns + 1 }.taskTurn task)
          else some schedule.recess
      | [] =>
          if schedule.mainReady || !schedule.deferred.isEmpty then some schedule.recess
          else some schedule.moveOn

/-- Takes at most `steps` steps. -/
def advance : Nat → Schedule → Schedule
  | 0, schedule => schedule
  | steps + 1, schedule =>
      match schedule.step with
      | none => schedule
      | some next => advance steps next

end Schedule

namespace Flow

/-- A bound on the steps that a body takes. A turn is the first of the body or of a spawned one, or
follows on a timer, on the end of a spawned body, or on a turn in which the allowance was used up;
the clock moves at most once for each timer; and a recess gives the main flow a turn, or follows
on such a turn or on a batch of turns. -/
def stepBound (body : List Flow) : Nat := 3 * sizes body + 3

/-- Runs a body without an ambient context: what it shows, and the contexts at the end. -/
def run (body : List Flow) : List Transcript × Contexts :=
  let begun : Schedule := { main := .fresh (courses none body .ended), mainReady := true }
  let ended := begun.advance (stepBound body)
  (ended.main.result?.getD [], ended.contexts)

end Flow

end ShardFleet
