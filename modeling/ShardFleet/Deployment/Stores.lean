import ShardFleet.Deployment.Connection
import ShardFleet.Migration.LedgerTable
import ShardFleet.Migration.Store
import ShardFleet.Reference.Store
import ShardFleet.Reference.Upsert
import ShardFleet.Schema.Catalog
import ShardFleet.Schema.Survey

/-!
The stores of a deployment: each is kept in memory, where nothing takes time and shards need not
be reached, or on the shards, where everything is said in statements over connections.
-/

namespace ShardFleet

namespace TableStore

/-- Reference tables in memory. -/
def inMemory : TableStore Deployment where
  upsert shard table rows := Job.transact fun world => do
    let tables ← world.tables.upsert shard table rows
    return ({ world with tables }, rows.length)
  readAll shard table := Job.look fun world => .ok (world.tables.readAll shard table)

/-- Reference tables on the shards. Statements are made before a connection is asked for, and
without statements none is. -/
def onShards (options : StatementOptions) : TableStore Deployment where
  upsert shard table rows := do
    let statements ← Upsert.statements options table rows
    if statements.isEmpty then return 0
    else Connection.use shard (Connection.batch shard statements)
  readAll shard table := do
    let statement ← Upsert.selectStatement table
    Connection.use shard (Connection.query shard statement)

end TableStore

namespace LedgerStore

/-- The ledger in memory. -/
def inMemory : LedgerStore Deployment where
  ensure shard := Job.change fun world => { world with ledger := world.ledger.ensure shard }
  applied shard := Job.look fun world => .ok (world.ledger.applied shard)
  recordApplied shard migration duration := Job.change fun world =>
    let record := MigrationRecord.applied migration world.wallClock duration
    { world with ledger := world.ledger.append shard record }
  recordRolledBack shard id := Job.transact fun world => do
    let ledger ← world.ledger.rollBack shard id world.wallClock
    return ({ world with ledger }, ())
  history shard := Job.look fun world => .ok (world.ledger.history shard)

/-- The time that the clocks of the shards show. -/
def wallTime : Work UInt64 := Job.look fun world => .ok world.wallClock

/-- The ledger in a table on every shard. -/
def onShards (table : LedgerTable) : LedgerStore Deployment where
  ensure shard := Connection.use shard do
    let _ ← Connection.execute shard table.createStatement
  applied shard := Connection.use shard do
    let rows ← Connection.query shard table.appliedStatement
    LedgerTable.idsOf rows
  recordApplied shard migration duration := do
    let statement := table.insertStatement migration (← wallTime) duration
    Connection.use shard do
      let _ ← Connection.execute shard statement
  recordRolledBack shard id := do
    let statement := table.stampStatement id (← wallTime)
    Connection.use shard do
      if (← Connection.execute shard statement) = 0 then throw (Ledger.notApplied shard id)
  history shard := Connection.use shard do
    let rows ← Connection.query shard table.historyStatement
    LedgerTable.recordsOf rows

end LedgerStore

namespace Introspector

/-- Schemas in memory. -/
def inMemory : Introspector Deployment := fun shard => Job.look (·.schemaOf shard)

/-- Schemas in the catalogs of the shards. -/
def onShards (catalog : Catalog) : Introspector Deployment := fun shard =>
  Connection.use shard do
    let rows ← Connection.query shard catalog.statement
    catalog.parse shard rows

end Introspector

end ShardFleet
