import ShardFleet.Distinct
import ShardFleet.Router
import ShardFleet.Scatter.Interruption

/-!
Running operations on one, several or all shards of a topology.

Targets are taken once each, in the order given. A target that is in no topology counts as a
failure of its own; the others are invoked under the options of the call.
-/

namespace ShardFleet

/-- The shards that a call targets. -/
inductive Targets where
  | all
  /-- The named shards; a name given twice counts once. -/
  | some (ids : List ShardId)
  deriving DecidableEq, Repr

namespace Targets

/-- The owners of keys, each once. -/
def ofKeys (router : Router) (keys : List ShardKey) : Except Error Targets :=
  return .some (← router.groupByShard keys).keys

/-- The targets by name, each once. -/
def ids (targets : Targets) (topology : Topology) : List ShardId :=
  match targets with
  | .all => topology.ids
  | .some ids => distinct ids

end Targets

/-- Runs operations on the shards of a topology. -/
structure Executor where
  topology : Topology
  options : ScatterOptions

namespace Executor

variable {σ α : Type}

/-- An executor, if its options can be used. -/
def new (topology : Topology) (options : ScatterOptions) : Except Error Executor := do
  options.check
  return ⟨topology, options⟩

/-- An executor under the default options. -/
def withDefaults (topology : Topology) : Executor := ⟨topology, {}⟩

/-- Runs an operation on the targets, under the given options, for a caller who may interrupt. -/
def scatterUnder (executor : Executor) (interruption : Interruption) (options : ScatterOptions)
    (targets : Targets) (operation : Shard → Operation σ α) : Timed σ (Gathered α) := fun moment =>
  let ids := targets.ids executor.topology
  let strays := ids.filter fun id => !executor.topology.contains id
  let known := ids.filterMap executor.topology.find?
  let call : Call σ α := ⟨operation, options⟩
  let run := call.finalUnder interruption strays known moment
  let ended := { moment with
    now := run.now
    world := run.world
    cancellation := run.cancellation
    queued := run.queued }
  ({ run.gathered with skipped := run.pending.map Shard.id }, ended)

/-- Runs an operation on the targets, under the given options. -/
def scatterWith (executor : Executor) : ScatterOptions → Targets →
    (Shard → Operation σ α) → Timed σ (Gathered α) :=
  executor.scatterUnder .never

/-- Runs an operation on the targets, under the executor's options. -/
def scatter (executor : Executor) (targets : Targets) (operation : Shard → Operation σ α) :
    Timed σ (Gathered α) :=
  executor.scatterWith executor.options targets operation

/-- The invocation of an operation on one shard under the executor's time limit. -/
def invocation (executor : Executor) (operation : Shard → Operation σ α) (shard : Shard) :
    Job σ α :=
  (operation shard).within (.shardTimeout shard.id executor.options.limit)
    executor.options.limit.ticks

/-- An operation on one shard as a job: it needs a known shard, and is not begun if the caller has
cancelled. -/
def attempt (executor : Executor) (id : ShardId) (operation : Shard → Operation σ α)
    (cancelled : Bool) : Job σ α := do
  let shard ← executor.topology.get id
  if cancelled then throw .cancelled
  executor.invocation operation shard

/-- Runs an operation on one shard. -/
def on (executor : Executor) (id : ShardId) (operation : Shard → Operation σ α) :
    Timed σ (Except Error α) := do
  (executor.attempt id operation (← Timed.cancelled)).perform

end Executor

end ShardFleet
