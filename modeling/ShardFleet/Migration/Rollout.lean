import ShardFleet.Deployment.Connection
import ShardFleet.Migration.Store
import ShardFleet.Scatter.Executor
import ShardFleet.Text.Blank

/-!
Rolling a migration out to all shards, and back.

Each shard is handled by itself: where the migration is in effect already its script is not run
again, where the ledger records another script under its id nothing is run, and a script that
ran is recorded with the time it took. A strategy says in which order shards are visited and
what a failure means for those not visited yet.
-/

namespace ShardFleet

/-- Whether a migration is applied or rolled back. -/
inductive Direction where
  | forward
  | backward
  deriving DecidableEq, Repr, Inhabited

/-- How the shards are visited. -/
inductive RolloutStrategy where
  /-- One at a time in the order of the topology, until one fails. -/
  | sequential
  /-- All at once, as far as the executor's options go. -/
  | parallel
  /-- One shard first; the others all at once, if it succeeds. -/
  | canary (shard : ShardId)
  deriving DecidableEq, Repr, Inhabited

/-- What happened to a migration on one shard. -/
inductive MigrationOutcome where
  /-- Its script ran, in the given time. -/
  | applied (duration : Duration)
  | alreadyApplied
  /-- Its reverse script ran and was recorded, in the given time. -/
  | rolledBack (duration : Duration)
  | notApplied
  deriving DecidableEq, Repr, Inhabited

/-- Whether a script ran. -/
def MigrationOutcome.isChange : MigrationOutcome → Bool
  | .applied _ | .rolledBack _ => true
  | .alreadyApplied | .notApplied => false

/-- What a migration came to on all shards. -/
structure MigrationReport where
  id : String
  gathered : Gathered MigrationOutcome

namespace MigrationReport

/-- Whether the migration succeeded on every shard. -/
def isComplete (report : MigrationReport) : Bool := report.gathered.isComplete

/-- What happened on all shards, if nothing stands against it. -/
def toResult (report : MigrationReport) : Except Error (List (ShardId × MigrationOutcome)) :=
  report.gathered.toResult

/-- The shards on which a script ran, in ascending order. -/
def changedShards (report : MigrationReport) : List ShardId :=
  ShardId.sort ((report.gathered.successes.filter (·.2.isChange)).map Prod.fst)

end MigrationReport

/-! ### One shard -/

/-- Whether an error names what befell a shard by itself. -/
def Error.standsAlone : Error → Bool
  | .cancelled | .unknownShard _ | .shardUnreachable .. | .shardTimeout ..
  | .migrationFailed .. | .rollbackFailed .. => true
  | _ => false

namespace Migration

/-- An error as the failure of a migration on a shard, unless it stands alone. -/
def failure (direction : Direction) (shard : ShardId) (migration : Migration) (error : Error) :
    Error :=
  if error.standsAlone then error
  else
    match direction with
    | .forward => .migrationFailed shard migration.id error.message
    | .backward => .rollbackFailed shard migration.id error.message

/-- The time since an instant. -/
def elapsedSince {σ : Type} (begun : Nat) : Job σ Duration := do
  return Duration.ofMillis ((← Job.time) - begun)

/-- Runs the script of a migration on a shard and records it. -/
def runForward (ledger : LedgerStore Deployment) (shard : ShardId) (migration : Migration) :
    Work MigrationOutcome :=
  Connection.use shard do
    let begun ← Job.time
    let _ ← Connection.execute shard (.plain migration.up)
    let duration ← elapsedSince begun
    ledger.recordApplied shard migration duration
    return .applied duration

/-- Runs the reverse script of a migration on a shard and records it. -/
def runBackward (ledger : LedgerStore Deployment) (shard : ShardId) (migration : Migration) :
    Work MigrationOutcome :=
  Connection.use shard do
    let begun ← Job.time
    let _ ← Connection.execute shard (.plain migration.down)
    ledger.recordRolledBack shard migration.id
    return .rolledBack (← elapsedSince begun)

/-- Applies a migration to a shard where it is not in effect. -/
def applyTo (ledger : LedgerStore Deployment) (shard : ShardId) (migration : Migration) :
    Work MigrationOutcome := do
  ledger.ensure shard
  match ← ledger.active shard migration.id with
  | none => runForward ledger shard migration
  | some record =>
      if record.checksum = migration.checksum then return .alreadyApplied
      else throw (.checksumMismatch migration.id record.checksum migration.checksum)

/-- Rolls a migration back on a shard where it is in effect. -/
def rollBackOn (ledger : LedgerStore Deployment) (shard : ShardId) (migration : Migration) :
    Work MigrationOutcome := do
  ledger.ensure shard
  match ← ledger.active shard migration.id with
  | none => return .notApplied
  | some _ =>
      if Text.isBlank migration.down then
        throw (.statement "migration has no down script")
      else runBackward ledger shard migration

/-- What a migration in a direction does on a shard. -/
def visit (direction : Direction) (ledger : LedgerStore Deployment) (migration : Migration)
    (shard : ShardId) : Work MigrationOutcome :=
  ExceptT.adapt (migration.failure direction shard)
    (match direction with
    | .forward => migration.applyTo ledger shard
    | .backward => migration.rollBackOn ledger shard)

end Migration

/-! ### All shards -/

/-- Rolls migrations out under the options of an executor, and records them in a ledger. -/
structure Rollout where
  executor : Executor
  ledger : LedgerStore Deployment

namespace Rollout

/-- What is done on each shard. -/
def operation (rollout : Rollout) (direction : Direction) (migration : Migration)
    (shard : Shard) : Operation Deployment MigrationOutcome :=
  .ofJob (migration.visit direction rollout.ledger shard.id)

/-- The options under which shards are visited one at a time. -/
def sequentialOptions (rollout : Rollout) : ScatterOptions :=
  { rollout.executor.options with maxConcurrency := 1, tolerance := .failFast }

/-- What is gathered if the first shard fails: the others are never started. -/
def afterFailedCanary (canary : ShardId) (rest : List ShardId) :
    Error → Gathered MigrationOutcome
  | .cancelled => { cancelled := [canary], skipped := rest, callerCancelled := true }
  | error => { answers := [⟨canary, .error error⟩], skipped := rest }

/-- Visits one shard, and the others if that succeeds, for a caller who may interrupt the call on
the others. A caller who cancels just as the visit has succeeded interrupts that call before it
begins. -/
def runCanaryUnder (rollout : Rollout) (interruption : Interruption) (direction : Direction)
    (migration : Migration) (canary : ShardId) :
    Timed Deployment (Gathered MigrationOutcome) := do
  let rest := rollout.executor.topology.ids.filter (· ≠ canary)
  let operation := rollout.operation direction migration
  match ← rollout.executor.on canary operation with
  | .ok outcome =>
      let gathered ← rollout.executor.scatterUnder interruption rollout.executor.options
        (.some rest) operation
      return { gathered with answers := ⟨canary, .ok outcome⟩ :: gathered.answers }
  | .error error => return afterFailedCanary canary rest error

/-- Visits one shard, and the others if that succeeds. -/
def runCanary (rollout : Rollout) : Direction → Migration → ShardId →
    Timed Deployment (Gathered MigrationOutcome) :=
  rollout.runCanaryUnder .never

/-- Takes a migration in a direction on all shards, for a caller who may interrupt the call. It
fails only if the shard to begin with is not known; what happens on a shard is part of the
report. -/
def runUnder (rollout : Rollout) (interruption : Interruption) (direction : Direction)
    (migration : Migration) (strategy : RolloutStrategy) :
    Timed Deployment (Except Error MigrationReport) := do
  let operation := rollout.operation direction migration
  match strategy with
  | .sequential =>
      let gathered ← rollout.executor.scatterUnder interruption rollout.sequentialOptions .all
        operation
      return .ok ⟨migration.id, gathered⟩
  | .parallel =>
      let gathered ← rollout.executor.scatterUnder interruption rollout.executor.options .all
        operation
      return .ok ⟨migration.id, gathered⟩
  | .canary shard =>
      match rollout.executor.topology.get shard with
      | .error error => return .error error
      | .ok _ =>
          let gathered ← rollout.runCanaryUnder interruption direction migration shard
          return .ok ⟨migration.id, gathered⟩

/-- Takes a migration in a direction on all shards. -/
def run (rollout : Rollout) : Direction → Migration → RolloutStrategy →
    Timed Deployment (Except Error MigrationReport) :=
  rollout.runUnder .never

/-- Applies a migration to all shards. -/
def apply (rollout : Rollout) : Migration → RolloutStrategy →
    Timed Deployment (Except Error MigrationReport) :=
  rollout.run .forward

/-- Rolls a migration back on all shards. -/
def rollBack (rollout : Rollout) : Migration → RolloutStrategy →
    Timed Deployment (Except Error MigrationReport) :=
  rollout.run .backward

/-- Applies migrations in the order given, up to the first that is not complete. -/
def applyEach (rollout : Rollout) (strategy : RolloutStrategy) :
    List Migration → Timed Deployment (Except Error (List MigrationReport))
  | [] => return .ok []
  | migration :: rest => do
      match ← rollout.apply migration strategy with
      | .error error => return .error error
      | .ok report =>
          if report.isComplete then
            return (← rollout.applyEach strategy rest).map (report :: ·)
          else return .ok [report]

/-- Applies migrations in the order of their ids, up to the first that is not complete. -/
def applyAll (rollout : Rollout) (migrations : List Migration) (strategy : RolloutStrategy) :
    Timed Deployment (Except Error (List MigrationReport)) :=
  rollout.applyEach strategy (Migration.sort migrations)

/-- The migrations in effect on every shard. -/
def applied (rollout : Rollout) : Timed Deployment (Gathered (List String)) :=
  rollout.executor.scatter .all (fun shard => .ofJob (rollout.ledger.applied shard.id))

end Rollout

end ShardFleet
