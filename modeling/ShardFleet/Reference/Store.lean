import ShardFleet.Activity.Basic
import ShardFleet.Reference.ContentHash
import ShardFleet.Reference.Table

/-! Where the rows of reference tables are kept, shard by shard. -/

namespace ShardFleet

/-- How the rows of reference tables are written and read in a world `σ`. -/
structure TableStore (σ : Type) where
  /-- Writes rows under their keys; how many were affected. Writing rows twice changes no more
  than writing them once. -/
  upsert : ShardId → ReferenceTable → List Row → Job σ Nat
  /-- All rows of a table on a shard. -/
  readAll : ShardId → ReferenceTable → Job σ (List Row)

/-- The digest of what a table holds on a shard. -/
def TableStore.contentHash {σ : Type} (store : TableStore σ) (shard : ShardId)
    (table : ReferenceTable) : Job σ String := do
  let rows ← store.readAll shard table
  return ContentHash.ofRows rows

end ShardFleet
