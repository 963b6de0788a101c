import ShardFleet.Options
import ShardFleet.Activity.Invocation
import ShardFleet.Fairness
import ShardFleet.Scatter.Gathered
import ShardFleet.Topology

/-!
A scatter-gather call, step by step.

The call alternates between two phases. While collecting it hands shards out until the window
is full, notices that the caller has cancelled, and records outcomes in the order in which they
came about. While working it gives invocations their turns: an invocation that is handed out, or
whose timer has run out, queues for one. The call goes back to collecting when the queue is
empty, or after a batch of turns, if there is something to collect by then; when there is nothing
left to do at this instant the clock moves to the next instant at which something is due. Of
invocations due together the one whose timer was set first queues first. Alarms of callers have
their turns ahead of the invocations, and count in the batch.

A call that is called off, by its caller or by a failure it does not tolerate, starts nothing
more. What waits then queues too, in the order in which it was handed out, and is given up when
its turn comes. `Call.step` makes one move, and the number of moves is bounded by the number of
shards and their time limit.

An operation is what is done from its first turn on. How it is made for its shard is left out, and
so is that it might be told that it was called off: it is given up where it waits, whether it looks
or not. The alarm of a caller counts as set when the call begins, ahead of all timers of the call.
A caller who cancels at any other point interrupts the call (`Interruption`).
-/

namespace ShardFleet

/-- What is done on the shards of a call, and under which options. -/
structure Call (σ α : Type) where
  operation : Shard → Operation σ α
  options : ScatterOptions

/-- An invocation that is handed out and has not ended. -/
structure Flight (σ α : Type) where
  shard : ShardId
  /-- The instant at which it goes on. -/
  wake : Nat
  /-- When its timer was set, counted over the timers of the call. -/
  ticket : Nat
  /-- The instant of its time limit. -/
  deadline : Nat
  /-- When the timer of the limit was set, if it has begun. -/
  limitTicket : Option Nat
  /-- What giving it up does to the world. -/
  abandon : σ → σ
  rest : Job σ α

/-- The place of an invocation among those due at one instant. -/
def Flight.turn {σ α : Type} (flight : Flight σ α) : Nat :=
  if flight.wake = flight.deadline then flight.limitTicket.getD flight.ticket else flight.ticket

inductive Phase where
  | collecting
  | working
  deriving DecidableEq, Repr

/-- The state of a call. -/
structure Run (σ α : Type) where
  phase : Phase
  now : Nat
  world : σ
  /-- How the caller stands to the call. -/
  cancellation : Cancellation
  /-- The instants for which alarms are set. -/
  alarms : List Nat
  /-- How many alarms queue for a turn ahead of the first invocation. -/
  queued : Nat
  /-- How many timers were set so far. -/
  tickets : Nat
  /-- Shards not handed out yet. -/
  pending : List Shard
  /-- Handed out and not ended, in the order in which they were handed out. -/
  flights : List (Flight σ α)
  /-- Invocations that queue for a turn, in order. -/
  ready : List ShardId
  /-- Turns given since the call last collected, or since the queue was last empty. -/
  turns : Nat
  /-- Ended and not recorded yet, in the order of their end. -/
  finished : List (Answer α)
  gathered : Gathered α
  /-- Whether handing out has stopped. -/
  halted : Bool
  /-- Whether a failure has called off what is under way. -/
  recalled : Bool

namespace Run

variable {σ α : Type}

/-- How many invocations are handed out and not recorded. -/
def inFlight (run : Run σ α) : Nat := run.flights.length + run.finished.length

/-- Whether what is under way has been called off. -/
def calledOff (run : Run σ α) : Bool := run.recalled || run.cancellation.hasFired

/-- Whether there is something to collect: an outcome, or that the caller has cancelled. -/
def hasNews (run : Run σ α) : Bool :=
  !run.finished.isEmpty || (run.cancellation.hasFired && !run.gathered.callerCancelled)

/-- Lets everything that waits queue for a turn, in the order in which it was handed out. -/
def rouse (run : Run σ α) : Run σ α :=
  let waiting := (run.flights.map Flight.shard).filter fun shard => !run.ready.contains shard
  { run with ready := run.ready ++ waiting }

/-- Lets the caller have its turn at this instant. If it cancels, everything that waits
queues. -/
def hearCaller (run : Run σ α) : Run σ α :=
  let settled := { run with cancellation := run.cancellation.settle run.now }
  if settled.cancellation.hasFired && !run.cancellation.hasFired then settled.rouse else settled

/-- The invocations due at this instant, that whose timer was set first in front. -/
def due (run : Run σ α) : List ShardId :=
  let flights := run.flights.filter (·.wake ≤ run.now)
  (flights.mergeSort fun a b => a.turn ≤ b.turn).map Flight.shard

/-- The next instant at which something is due. -/
def nextInstant (run : Run σ α) : Nat :=
  (run.flights.map Flight.wake ++ run.cancellation.instant?.toList).min?.getD run.now

/-- Moves the clock. The alarms that go off then have their turns first. -/
def moveOn (run : Run σ α) : Run σ α :=
  let now := run.nextInstant
  let moved := { run with now, turns := run.alarms.count now }
  { moved with ready := moved.due }.hearCaller

/-- Ends an invocation. -/
def finish (run : Run σ α) (shard : ShardId) (result : Except Error α) : Run σ α :=
  { run with
    flights := run.flights.filter (·.shard ≠ shard)
    finished := run.finished ++ [⟨shard, result⟩] }

/-- Lets an invocation go on. -/
def resume (run : Run σ α) (flight : Flight σ α) : Run σ α :=
  match Activity.proceed run.now flight.rest run.world with
  | (world, .ended result) => { run with world }.finish flight.shard result
  | (world, .asleep ticks abandon rest) =>
      let waiting := { flight with
        wake := run.now + ticks
        ticket := run.tickets
        limitTicket := some (flight.limitTicket.getD run.tickets)
        abandon
        rest }
      { run with
        world
        tickets := run.tickets + 1
        flights := run.flights.map fun other =>
          if other.shard = flight.shard then waiting else other }

/-- Gives an invocation its turn: it goes on, or is given up if it was called off. -/
def serve (run : Run σ α) (shard : ShardId) : Run σ α :=
  match run.flights.find? (·.shard = shard) with
  | none => run
  | some flight =>
      if run.calledOff then
        { run with world := flight.abandon run.world }.finish shard (.error .cancelled)
      else run.resume flight

/-- Counts a turn; after a batch the call goes back to collecting if there is news. -/
def countTurn (run : Run σ α) : Run σ α :=
  let turns := run.turns + 1
  if turns % Fairness.batch = 0 ∧ run.hasNews then { run with turns := 0, phase := .collecting }
  else { run with turns }

/-- A move while working. -/
def work (run : Run σ α) : Run σ α :=
  match run.ready with
  | shard :: others => ({ run with ready := others }.serve shard).countTurn
  | [] =>
      if run.hasNews || run.flights.isEmpty then { run with turns := 0, phase := .collecting }
      else run.moveOn

/-- Records an outcome; a failure that is not tolerated calls off what is under way. -/
def record (run : Run σ α) (tolerance : Tolerance) (answer : Answer α)
    (others : List (Answer α)) : Run σ α :=
  let recorded := { run with finished := others, gathered := run.gathered.record answer }
  match answer.result with
  | .ok _ | .error .cancelled => recorded
  | .error _ =>
      if tolerance = .failFast ∧ !run.halted then
        { recorded with halted := true, recalled := true }.rouse
      else recorded

end Run

namespace Call

variable {σ α : Type}

/-- How many invocations may be under way at once. -/
def window (call : Call σ α) : Nat := max call.options.maxConcurrency 1

/-- The invocation of a shard under its time limit. -/
def invocation (call : Call σ α) (shard : Shard) : Job σ α :=
  (call.operation shard).within (.shardTimeout shard.id call.options.limit)
    call.options.limit.ticks

/-- Hands a shard out: its invocation queues for its first turn. -/
def handOut (call : Call σ α) (run : Run σ α) (shard : Shard) : Run σ α :=
  let flight := {
    shard := shard.id
    wake := run.now
    ticket := run.tickets
    deadline := run.now + call.options.limit.ticks
    limitTicket := none
    abandon := id
    rest := call.invocation shard }
  { run with flights := run.flights ++ [flight], ready := run.ready ++ [shard.id] }

/-- A move while collecting, after the window has been filled; `none` when the call is over. -/
def collect (call : Call σ α) (run : Run σ α) : Option (Run σ α) :=
  if run.inFlight = 0 then none
  else if run.cancellation.hasFired ∧ !run.gathered.callerCancelled then
    some { run with
      gathered := { run.gathered with callerCancelled := true }
      halted := true }
  else
    match run.finished with
    | answer :: others => some (run.record call.options.tolerance answer others)
    | [] => some { run with phase := .working, turns := run.queued, queued := 0 }.hearCaller

/-- One move of the call; `none` when it is over. -/
def step (call : Call σ α) (run : Run σ α) : Option (Run σ α) :=
  match run.phase with
  | .working => some run.work
  | .collecting =>
      match run.pending with
      | shard :: others =>
          if !run.halted ∧ run.inFlight < call.window then
            some (call.handOut { run with pending := others } shard)
          else call.collect run
      | [] => call.collect run

/-- Makes at most `moves` moves. -/
def advance (call : Call σ α) : Nat → Run σ α → Run σ α
  | 0, run => run
  | moves + 1, run =>
      match call.step run with
      | none => run
      | some next => call.advance moves next

/-- A bound on the moves of a call on `shards` shards. Each shard is handed out, given up and
recorded at most once and takes a turn at most as often as its limit has ticks; the clock moves
at most once for each turn, and the phases alternate at most once per outcome. -/
def moveBound (call : Call σ α) (shards : Nat) : Nat :=
  (shards + 1) * (2 * call.options.limit.ticks + 8)

/-- The state in which a call begins; `strays` are targets that are in no topology. -/
def begin (call : Call σ α) (strays : List ShardId) (targets : List Shard)
    (moment : Moment σ) : Run σ α :=
  let cancelled := moment.cancellation.hasFired
  { phase := .collecting
    now := moment.now
    world := moment.world
    cancellation := moment.cancellation
    alarms := moment.alarms
    queued := moment.queued
    tickets := 0
    pending := targets
    flights := []
    ready := []
    turns := 0
    finished := []
    gathered := {
      answers := strays.map fun id => ⟨id, .error (.unknownShard id.name)⟩
      callerCancelled := cancelled }
    halted := cancelled || (call.options.tolerance = .failFast && !strays.isEmpty)
    recalled := false }

/-- The state in which a call ends. -/
def final (call : Call σ α) (strays : List ShardId) (targets : List Shard)
    (moment : Moment σ) : Run σ α :=
  call.advance (call.moveBound targets.length) (call.begin strays targets moment)

end Call

end ShardFleet
