import ShardFleet.Deployment.Connection

/-!
Connections that are held by number.

Connections are numbered in the order in which they were opened, and a number is not used again
once its connection has been given back. Each connection can be given back only once.
-/

namespace ShardFleet

/-- Connections by number. -/
structure Handles where
  /-- The shard that the connection of each number leads to, as long as it is held. -/
  shards : List (Option ShardId) := []
  deriving DecidableEq, Repr, Inhabited

namespace Handles

/-- How many connections were opened; the next one has this number. -/
def size (handles : Handles) : Nat := handles.shards.length

/-- The shard that a connection leads to, if it is held. -/
def shard? (handles : Handles) (number : Nat) : Option ShardId := handles.shards.getD number none

/-- Holds a connection to a shard under the next number. -/
def hold (handles : Handles) (id : ShardId) : Handles := ⟨handles.shards ++ [some id]⟩

/-- Lets go of a connection. -/
def forget (handles : Handles) (number : Nat) : Handles := ⟨handles.shards.set number none⟩

/-- What giving a connection back does to the world: nothing, unless it is held. -/
def giveBack (handles : Handles) (number : Nat) : Deployment → Deployment :=
  ((handles.shard? number).map Connection.release).getD id

end Handles

end ShardFleet
