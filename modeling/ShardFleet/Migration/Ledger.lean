import ShardFleet.Distinct
import ShardFleet.Migration.Basic

/-!
The ledger of migrations, shard by shard, kept in memory.

The ledger only grows: applying a migration appends a record, rolling it back stamps the latest
active record of it. A migration applied again after a rollback gets a record of its own.
-/

namespace ShardFleet

/-- The histories of the shards, oldest record first. -/
structure Ledger where
  histories : OrderedMap ShardId (List MigrationRecord)
  deriving DecidableEq

namespace Ledger

def empty : Ledger := ⟨OrderedMap.empty⟩

instance : Inhabited Ledger := ⟨empty⟩

/-- Every record of a shard, oldest first. -/
def history (ledger : Ledger) (shard : ShardId) : List MigrationRecord :=
  ledger.histories.getD shard []

/-- Opens the history of a shard, if it is not open. -/
def ensure (ledger : Ledger) (shard : ShardId) : Ledger :=
  ⟨ledger.histories.alter shard [] id⟩

/-- The migrations in effect on a shard, each once, in the order of their first active record. -/
def applied (ledger : Ledger) (shard : ShardId) : List String :=
  distinct (((ledger.history shard).filter (·.isActive)).map MigrationRecord.id)

/-- The latest active record of a migration on a shard. -/
def active? (ledger : Ledger) (shard : ShardId) (id : String) : Option MigrationRecord :=
  MigrationRecord.latestActive? (ledger.history shard) id

/-- Appends a record to the history of a shard. -/
def append (ledger : Ledger) (shard : ShardId) (record : MigrationRecord) : Ledger :=
  ⟨ledger.histories.alter shard [] (· ++ [record])⟩

/-- Stamps the first active record of a migration, in a history with the latest record first. -/
def stampFirst (id : String) (instant : UInt64) :
    List MigrationRecord → Option (List MigrationRecord)
  | [] => none
  | record :: rest =>
      if record.isActiveOf id then some ({ record with rolledBackAt := some instant } :: rest)
      else (stampFirst id instant rest).map (record :: ·)

/-- That a migration is not in effect on a shard, so it cannot be rolled back. -/
def notApplied (shard : ShardId) (id : String) : Error :=
  .rollbackFailed shard id "migration is not applied"

/-- Stamps the latest active record of a migration on a shard. -/
def rollBack (ledger : Ledger) (shard : ShardId) (id : String) (instant : UInt64) :
    Except Error Ledger :=
  match stampFirst id instant (ledger.history shard).reverse with
  | some stamped => .ok ⟨ledger.histories.insert shard stamped.reverse⟩
  | none => .error (notApplied shard id)

end Ledger

end ShardFleet
