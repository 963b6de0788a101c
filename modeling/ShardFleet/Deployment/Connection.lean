import ShardFleet.Activity.Basic
import ShardFleet.Deployment.Basic

/-!
Connections to simulated shards.

A connection counts as open from the moment it is granted until the work on it ends or is given
up, whichever comes first (`Connection.use`). A statement takes the time that its shard takes,
is noted when that time is over, and then fails or succeeds as the shard is scripted.
-/

namespace ShardFleet

/-- Work on a deployment. -/
abbrev Work (α : Type) := Job Deployment α

namespace Connection

/-- Opens a connection to a shard, unless the network refuses it. -/
def acquire (id : ShardId) : Work Unit :=
  Job.transact fun world =>
    match world.network.refusal? id with
    | some error => .error error
    | none => .ok (world.onShard id .connect, ())

/-- Gives a connection to a shard back. -/
def release (id : ShardId) : Deployment → Deployment := Deployment.onShard id .disconnect

/-- Does work on a shard over a connection of its own. -/
def use {α : Type} (id : ShardId) (work : Work α) : Work α := do
  acquire id
  Activity.guarded (release id) work

/-- Waits as long as a statement takes on a shard. -/
def await (id : ShardId) : Work Unit := do
  let latency ← Job.look fun world => .ok (world.shard id).latency
  Job.sleep latency

/-- Sends a statement to a shard, which takes its time and notes it. -/
def send (id : ShardId) (statement : Statement) : Work Unit := do
  await id
  Job.change (Deployment.onShard id (·.receive statement))
  Job.look fun world => (world.shard id).verdict statement

/-- Executes a statement without rows; how many rows it affected. -/
def execute (id : ShardId) (statement : Statement) : Work Nat := do
  send id statement
  Job.look fun world => .ok (world.shard id).affected

/-- The rows that answer a query. -/
def query (id : ShardId) (statement : Statement) : Work (List Row) := do
  send id statement
  Job.look fun world => .ok ((world.shard id).response statement)

/-- The most rows that can be counted: a count has 64 bits. -/
def mostRows : Nat := UInt64.size - 1

/-- Executes statements in order after `counted` rows were affected, stopping at the first that
fails; rows affected in all. The work breaks down when they can no longer be counted. -/
def batchAfter (id : ShardId) (counted : Nat) : List Statement → Work Nat
  | [] => return counted
  | statement :: rest => do
      let affected ← execute id statement
      if counted + affected ≤ mostRows then batchAfter id (counted + affected) rest
      else throw .breakdown

/-- Executes statements in order, stopping at the first that fails; rows affected in all. -/
def batch (id : ShardId) : List Statement → Work Nat := batchAfter id 0

end Connection

end ShardFleet
