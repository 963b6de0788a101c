import ShardFleet.Activity.Invocation
import ShardFleet.Topology

/-!
Scripted operations, to rehearse scatter-gather calls.

A script waits and then ends in one of the ways in which an operation can end. The stage on
which scripts play notes which shards began, and how many were playing at once.
-/

namespace ShardFleet

/-- How a script ends after its delay. -/
inductive Finale where
  | succeed (value : Option String)
  | fail (error : Error)
  | crash
  | hang
  deriving Repr, Inhabited

/-- What the operation on a shard does. -/
structure Script where
  delay : Duration := ⟨0⟩
  finale : Finale := .succeed none
  deriving Repr, Inhabited

/-- What is seen of the scripts that play. -/
structure Stage where
  /-- Shards whose script began, in order. -/
  started : List ShardId := []
  playing : Nat := 0
  /-- The most scripts that were playing at once. -/
  peak : Nat := 0
  deriving DecidableEq, Repr, Inhabited

def Stage.enter (stage : Stage) (shard : ShardId) : Stage :=
  { started := stage.started ++ [shard]
    playing := stage.playing + 1
    peak := max stage.peak (stage.playing + 1) }

def Stage.leave (stage : Stage) : Stage := { stage with playing := stage.playing - 1 }

/-- The operation of a script. A success without a value of its own brings the address of the
shard. -/
def Script.operation (script : Script) (shard : Shard) : Operation Stage String :=
  let ending : Ending Stage String :=
    match script.finale with
    | .succeed value => .returned (.ok (value.getD shard.endpoint))
    | .fail error => .returned (.error error)
    | .crash => .crashed
    | .hang => .hung id
  .act (·.enter shard.id) fun _ =>
    Operation.guarded Stage.leave (.pause script.delay.sleepTicks id (.done ending))

end ShardFleet
