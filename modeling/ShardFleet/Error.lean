import ShardFleet.Duration
import ShardFleet.ShardId

/-!
What can go wrong when work is spread over shards.

An error says its cause as data; its wording is one function. A partial failure lists what went
wrong shard by shard, and may be nested.
-/

namespace ShardFleet

/-- A cause of failure. -/
inductive Error where
  /-- The shard is not in the topology, or a key belongs to no shard. -/
  | unknownShard (what : String)
  | shardUnreachable (shard : ShardId) (reason : String)
  | shardTimeout (shard : ShardId) (limit : Duration)
  /-- Some shards of a call failed, others succeeded. -/
  | partialFailure (succeeded : Nat) (failures : List (ShardId × Error))
  | schemaComparisonFailed (shard : ShardId) (reason : String)
  | migrationFailed (shard : ShardId) (migration reason : String)
  | rollbackFailed (shard : ShardId) (migration reason : String)
  /-- The ledger records another script under the migration's id. -/
  | checksumMismatch (migration recorded expected : String)
  | cancelled
  | config (reason : String)
  | statement (reason : String)
  | serialization (reason : String)
  | internal (reason : String)
  deriving Repr, Inhabited

namespace Error

/-- The error that stands for work that broke down without a result. -/
def breakdown : Error := .internal "shard invocation panicked"

mutual

/-- The wording of an error. -/
def message : Error → String
  | .unknownShard what => "unknown shard: " ++ what
  | .shardUnreachable shard reason => "shard " ++ shard.name ++ " unreachable: " ++ reason
  | .shardTimeout shard limit => "shard " ++ shard.name ++ " timed out after " ++ limit.text
  | .partialFailure succeeded failures =>
      toString failures.length ++ " of " ++ toString (failures.length + succeeded) ++
        " shards failed: " ++ "; ".intercalate (failureTexts failures)
  | .schemaComparisonFailed shard reason =>
      "schema comparison failed on shard " ++ shard.name ++ ": " ++ reason
  | .migrationFailed shard migration reason =>
      "migration " ++ migration ++ " failed on shard " ++ shard.name ++ ": " ++ reason
  | .rollbackFailed shard migration reason =>
      "rollback of " ++ migration ++ " failed on shard " ++ shard.name ++ ": " ++ reason
  | .checksumMismatch migration recorded expected =>
      "checksum mismatch for migration " ++ migration ++ ": recorded " ++ recorded ++
        ", expected " ++ expected
  | .cancelled => "operation cancelled"
  | .config reason => "config error: " ++ reason
  | .statement reason => "statement error: " ++ reason
  | .serialization reason => "serialization error: " ++ reason
  | .internal reason => "internal error: " ++ reason
  termination_by structural error => error

/-- Failures in a row, each after the name of its shard. -/
def failureTexts : List (ShardId × Error) → List String
  | [] => []
  | (shard, error) :: rest => (shard.name ++ ": " ++ error.message) :: failureTexts rest
  termination_by structural failures => failures

end

/-- Whether the error says that the work was cancelled. -/
def isCancelled : Error → Bool
  | .cancelled => true
  | _ => false

/-- Whether a shard took longer than its limit. -/
def isTimeout : Error → Bool
  | .shardTimeout .. => true
  | _ => false

/-- The shard that the error speaks of. -/
def shard? : Error → Option ShardId
  | .shardUnreachable shard _ | .shardTimeout shard _ | .schemaComparisonFailed shard _
  | .migrationFailed shard _ _ | .rollbackFailed shard _ _ => some shard
  | _ => none

end Error

/-- Something that went wrong on one shard. -/
structure ShardFailure where
  shard : ShardId
  error : Error
  deriving Repr, Inhabited

def ShardFailure.text (failure : ShardFailure) : String :=
  failure.shard.name ++ ": " ++ failure.error.message

end ShardFleet
