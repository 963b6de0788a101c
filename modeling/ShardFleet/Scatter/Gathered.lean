import ShardFleet.Error

/-!
What a scatter-gather call brought back.

Every shard that ran to an outcome has an answer, in the order in which they came in. Shards
whose invocation was called off are listed apart from shards that were never started.
-/

namespace ShardFleet

/-- The outcome of one shard. -/
structure Answer (α : Type) where
  shard : ShardId
  result : Except Error α

/-- What a scatter-gather call brought back. -/
structure Gathered (α : Type) where
  /-- Outcomes in the order in which they came in. -/
  answers : List (Answer α) := []
  /-- Shards whose invocation was called off. -/
  cancelled : List ShardId := []
  /-- Shards that were never started. -/
  skipped : List ShardId := []
  /-- Whether the caller cancelled during the call. -/
  callerCancelled : Bool := false

namespace Gathered

variable {α : Type}

/-- The values that came in, each with its shard. -/
def successes (gathered : Gathered α) : List (ShardId × α) :=
  gathered.answers.filterMap fun answer =>
    match answer.result with
    | .ok value => some (answer.shard, value)
    | .error _ => none

/-- The failures that came in, each with its shard. -/
def failures (gathered : Gathered α) : List (ShardId × Error) :=
  gathered.answers.filterMap fun answer =>
    match answer.result with
    | .ok _ => none
    | .error error => some (answer.shard, error)

def values (gathered : Gathered α) : List α := gathered.successes.map Prod.snd

/-- Every shard ran and succeeded. -/
def isComplete (gathered : Gathered α) : Bool :=
  gathered.failures.isEmpty && gathered.cancelled.isEmpty && gathered.skipped.isEmpty

/-- Some shards succeeded and some failed. -/
def isPartial (gathered : Gathered α) : Bool :=
  !gathered.successes.isEmpty && !gathered.failures.isEmpty

/-- All values, if nothing stands against it: failures first, then a call cut short. -/
def toResult (gathered : Gathered α) : Except Error (List (ShardId × α)) :=
  if !gathered.failures.isEmpty then
    .error (.partialFailure gathered.successes.length gathered.failures)
  else if gathered.callerCancelled || !gathered.cancelled.isEmpty || !gathered.skipped.isEmpty then
    .error .cancelled
  else .ok gathered.successes

/-- Orders each list by shard. -/
def sort (gathered : Gathered α) : Gathered α :=
  { gathered with
    answers := gathered.answers.mergeSort fun a b => (compare a.shard b.shard).isLE
    cancelled := ShardId.sort gathered.cancelled
    skipped := ShardId.sort gathered.skipped }

/-- Takes an outcome in; one that was called off is only listed. -/
def record (gathered : Gathered α) (answer : Answer α) : Gathered α :=
  match answer.result with
  | .error .cancelled => { gathered with cancelled := gathered.cancelled ++ [answer.shard] }
  | _ => { gathered with answers := gathered.answers ++ [answer] }

end Gathered

end ShardFleet
