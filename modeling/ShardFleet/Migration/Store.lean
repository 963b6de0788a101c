import ShardFleet.Activity.Basic
import ShardFleet.Migration.Basic

/-! Where the ledger of migrations is kept, shard by shard. -/

namespace ShardFleet

/-- How the ledger is written and read in a world `σ`. -/
structure LedgerStore (σ : Type) where
  /-- Sees to it that the shard has a ledger. -/
  ensure : ShardId → Job σ Unit
  /-- The migrations in effect, in the order in which they were applied. -/
  applied : ShardId → Job σ (List String)
  /-- Appends a record of a migration whose script took the given time. -/
  recordApplied : ShardId → Migration → Duration → Job σ Unit
  /-- Stamps the active record of a migration, or fails if there is none. -/
  recordRolledBack : ShardId → String → Job σ Unit
  /-- Every record, oldest first. -/
  history : ShardId → Job σ (List MigrationRecord)

/-- The active record of a migration on a shard. -/
def LedgerStore.active {σ : Type} (store : LedgerStore σ) (shard : ShardId) (id : String) :
    Job σ (Option MigrationRecord) := do
  let records ← store.history shard
  return MigrationRecord.latestActive? records id

end ShardFleet
