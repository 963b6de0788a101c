import ShardFleet.Migration.Ledger
import ShardFleet.Network.Basic
import ShardFleet.Reference.TableBook
import ShardFleet.Schema.Basic

/-!
The world of a simulation: the network of shards, and what is kept in memory beside it.
-/

namespace ShardFleet

/-- A simulated network with the ledger, the reference tables and the schemas kept in memory. -/
structure Deployment where
  network : Network
  ledger : Ledger := Ledger.empty
  tables : TableBook := TableBook.empty
  schemas : OrderedMap ShardId (List TableSchema) := OrderedMap.empty
  /-- Milliseconds since the epoch, as the clocks of the shards show them. -/
  wallClock : UInt64
  deriving DecidableEq

namespace Deployment

/-- Changes the network. -/
def onNetwork (f : Network → Network) (world : Deployment) : Deployment :=
  { world with network := f world.network }

/-- Changes a shard of the network. -/
def onShard (id : ShardId) (f : SimulatedShard → SimulatedShard) : Deployment → Deployment :=
  onNetwork (·.update id f)

/-- What holds of a shard, an absent one counting as a new one. -/
def shard (world : Deployment) (id : ShardId) : SimulatedShard := (world.network.shard? id).getD {}

/-- Replaces the tables that the schema of a shard has. -/
def setTables (world : Deployment) (id : ShardId) (tables : List TableSchema) : Deployment :=
  { world with schemas := world.schemas.insert id tables }

/-- Removes the row of a key from a table in memory; whether there was one. -/
def deleteRow (world : Deployment) (id : ShardId) (table : ReferenceTable) (key : List Value) :
    Bool × Deployment :=
  let (found, tables) := world.tables.delete id table key
  (found, { world with tables })

/-- The schema of a shard, if its tables are known. -/
def schemaOf (world : Deployment) (id : ShardId) : Except Error ShardSchema :=
  match world.schemas.get? id with
  | some tables => .ok (.new id tables)
  | none => .error (.unknownShard id.name)

end Deployment

end ShardFleet
