import ShardFleet.Reference.Store
import ShardFleet.Scatter.Executor

/-!
Keeping reference tables alike on all shards.

One shard is the source. Replication reads a table there and writes its rows on every other
shard; rows that only a target holds stay. Drift detection compares the digest of the table on
every shard with that on the source.
-/

namespace ShardFleet

/-- Copies reference tables from a source shard to all others. -/
structure Replicator (σ : Type) where
  executor : Executor
  store : TableStore σ
  source : ShardId
  known : executor.topology.contains source = true

/-- What a replication brought about. -/
structure ReplicationReport where
  source : ShardId
  /-- The digest of the rows that were replicated. -/
  hash : String
  /-- How many rows were replicated. -/
  rows : Nat
  /-- Rows affected on each target. -/
  gathered : Gathered Nat

/-- The digests of a table on all shards. -/
structure DriftReport where
  table : String
  source : ShardId
  /-- The digest on the source. -/
  expected : String
  /-- The digest on every shard that could be read, the source included. -/
  hashes : OrderedMap ShardId String
  /-- Shards that could not be read. -/
  failures : List ShardFailure

namespace DriftReport

/-- Shards whose digest is not that of the source, in ascending order. -/
def drifted (report : DriftReport) : List ShardId :=
  (report.hashes.filter fun _ hash => hash ≠ report.expected).keys

/-- Whether every shard was read and holds what the source holds, as far as the report says. -/
def isConsistent (report : DriftReport) : Bool :=
  report.drifted.isEmpty && report.failures.isEmpty

/-- The error of a shard in a list of failures; without one the shard was called off. -/
def errorOf (failures : List ShardFailure) (shard : ShardId) : Error :=
  ((failures.find? (·.shard = shard)).map ShardFailure.error).getD .cancelled

/-- The report on digests that came in. Without the digest of the source there is nothing to
compare with. -/
def ofGathered (table : String) (source : ShardId) (gathered : Gathered String) :
    Except Error DriftReport :=
  if gathered.callerCancelled then .error .cancelled
  else
    let hashes := OrderedMap.ofList gathered.successes
    let failures := gathered.failures.map fun entry => ⟨entry.1, entry.2⟩
    match hashes.get? source with
    | some expected => .ok { table, source, expected, hashes, failures }
    | none => .error (errorOf failures source)

end DriftReport

namespace Replicator

variable {σ : Type}

/-- A replicator; its source must be a known shard. -/
def new (executor : Executor) (store : TableStore σ) (source : ShardId) :
    Except Error (Replicator σ) :=
  if known : executor.topology.contains source = true then .ok { executor, store, source, known }
  else .error (.unknownShard source.name)

/-- The shards that rows are copied to. -/
def targets (replicator : Replicator σ) : List ShardId :=
  replicator.executor.topology.ids.filter (· ≠ replicator.source)

/-- Reads a table on the source. -/
def readSource (replicator : Replicator σ) (table : ReferenceTable) :
    Timed σ (Except Error Dataset) := do
  let rows ← replicator.executor.on replicator.source
    (fun shard => .ofJob (replicator.store.readAll shard.id table))
  return rows.map Dataset.ofRows

/-- Writes rows on every shard but the source. -/
def spread (replicator : Replicator σ) (table : ReferenceTable) (rows : List Row) :
    Timed σ (Gathered Nat) :=
  replicator.executor.scatter (.some replicator.targets)
    (fun shard => .ofJob (replicator.store.upsert shard.id table rows))

/-- Copies a table from the source to all other shards. It fails only if the table has no key or
cannot be read on the source; what happens on a target is part of the report. -/
def replicate (replicator : Replicator σ) (table : ReferenceTable) :
    Timed σ (Except Error ReplicationReport) :=
  match table.check with
  | .error error => return .error error
  | .ok () => do
      match ← replicator.readSource table with
      | .error error => return .error error
      | .ok dataset =>
          let gathered ← replicator.spread table dataset.rows
          return .ok ⟨replicator.source, dataset.hash, dataset.rows.length, gathered⟩

/-- Compares a table on all shards with that on the source. -/
def detectDrift (replicator : Replicator σ) (table : ReferenceTable) :
    Timed σ (Except Error DriftReport) := do
  let gathered ← replicator.executor.scatter .all
    (fun shard => .ofJob (replicator.store.contentHash shard.id table))
  return DriftReport.ofGathered table.name replicator.source gathered.sort

end Replicator

end ShardFleet
