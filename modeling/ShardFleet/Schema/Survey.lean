import ShardFleet.Activity.Pair
import ShardFleet.Scatter.Executor
import ShardFleet.Schema.Diff

/-!
Comparing the schemas of live shards.

Schemas are read where they live and are never changed. Two shards are read side by side; a
survey reads the baseline first and then compares every other shard with it.
-/

namespace ShardFleet

/-- How the schema of a shard is read in a world `σ`. -/
abbrev Introspector (σ : Type) := ShardId → Job σ ShardSchema

/-- Compares live schemas. -/
structure Surveyor (σ : Type) where
  executor : Executor
  introspect : Introspector σ

/-- What comparing all shards with a baseline brought to light. -/
structure SurveyReport where
  baseline : ShardId
  /-- The differences of shards that have any. -/
  drifted : List SchemaDiff
  /-- Shards without differences. -/
  consistent : List ShardId
  /-- Shards that could not be read. -/
  failures : List ShardFailure

namespace SurveyReport

/-- Whether no shard differs and none failed, as far as the report says. -/
def isConsistent (report : SurveyReport) : Bool :=
  report.drifted.isEmpty && report.failures.isEmpty

def driftedShards (report : SurveyReport) : List ShardId := report.drifted.map SchemaDiff.shard

/-- The report on differences that came in. -/
def ofGathered (baseline : ShardId) (gathered : Gathered SchemaDiff) :
    Except Error SurveyReport :=
  if gathered.callerCancelled then .error .cancelled
  else .ok {
    baseline
    drifted := gathered.values.filter (!·.isEmpty)
    consistent := (gathered.values.filter (·.isEmpty)).map SchemaDiff.shard
    failures := gathered.failures.map fun entry => ⟨entry.1, entry.2⟩ }

end SurveyReport

namespace Surveyor

variable {σ : Type}

/-- An error as the failure to compare a shard; a failed comparison and a cancellation stay as
they are. -/
def comparisonFailed (shard : ShardId) : Error → Error
  | .schemaComparisonFailed failed reason => .schemaComparisonFailed failed reason
  | .cancelled => .cancelled
  | error => .schemaComparisonFailed shard error.message

/-- Reads the schema of a shard under the executor's time limit. -/
def snapshot (surveyor : Surveyor σ) (shard : ShardId) (cancelled : Bool) :
    Job σ ShardSchema :=
  ExceptT.adapt (comparisonFailed shard)
    (surveyor.executor.attempt shard (fun shard => .ofJob (surveyor.introspect shard.id))
      cancelled)

/-- The differences of a shard from a baseline, read side by side. The first to fail gives the
error. -/
def compare (surveyor : Surveyor σ) (shard baseline : ShardId) :
    Timed σ (Except Error SchemaDiff) := do
  let cancelled ← Timed.cancelled
  Job.perform do
    let (actual, expected) ←
      Job.both (surveyor.snapshot shard cancelled) (surveyor.snapshot baseline cancelled)
    return .between actual expected

/-- Compares a shard with a schema read before. -/
def compareWith (surveyor : Surveyor σ) (expected : ShardSchema) (shard : Shard) :
    Operation σ SchemaDiff :=
  .ofJob do
    let actual ← ExceptT.adapt (comparisonFailed shard.id) (surveyor.introspect shard.id)
    return .between actual expected

/-- Compares every other shard with a baseline. It fails only if the baseline cannot be read or
the caller cancels; what happens on another shard is part of the report. -/
def compareAll (surveyor : Surveyor σ) (baseline : ShardId) :
    Timed σ (Except Error SurveyReport) := do
  match ← (surveyor.snapshot baseline (← Timed.cancelled)).perform with
  | .error error => return .error error
  | .ok expected =>
      let targets := surveyor.executor.topology.ids.filter (· ≠ baseline)
      let gathered ← surveyor.executor.scatter (.some targets) (surveyor.compareWith expected)
      return SurveyReport.ofGathered baseline gathered.sort

end Surveyor

end ShardFleet
