import ShardFleet.Distinct
import ShardFleet.Migration.Ledger
import ShardFleet.Options

/-!
The ledger of migrations as a table on every shard: the statements that keep it, and how its
rows are read back.
-/

namespace ShardFleet

/-- A ledger table, by its quoted name, and how its placeholders are written. -/
structure LedgerTable where
  name : String
  style : PlaceholderStyle
  deriving DecidableEq, Repr, Inhabited

namespace LedgerTable

/-- The name of the ledger table where nothing else is asked for. -/
def defaultName : String := "__shardwise_migrations"

/-- A ledger table under options that can be used and a name that is plain. -/
def new (options : StatementOptions) (name : String) : Except Error LedgerTable := do
  options.check
  return ⟨← Identifier.quote name, options.style⟩

/-! ### Statements -/

def createStatement (table : LedgerTable) : Statement :=
  .plain ("CREATE TABLE IF NOT EXISTS " ++ table.name ++ " (" ++
    "migration_id VARCHAR(255) NOT NULL, " ++
    "description TEXT NOT NULL, " ++
    "checksum VARCHAR(64) NOT NULL, " ++
    "applied_at_ms BIGINT NOT NULL, " ++
    "duration_ms BIGINT NOT NULL, " ++
    "rolled_back_at_ms BIGINT NULL, " ++
    "PRIMARY KEY (migration_id, applied_at_ms))")

def appliedStatement (table : LedgerTable) : Statement :=
  .plain ("SELECT migration_id FROM " ++ table.name ++
    " WHERE rolled_back_at_ms IS NULL ORDER BY applied_at_ms, migration_id")

def insertStatement (table : LedgerTable) (migration : Migration) (instant : UInt64)
    (duration : Duration) : Statement :=
  ⟨"INSERT INTO " ++ table.name ++
      " (migration_id, description, checksum, applied_at_ms, duration_ms) VALUES (" ++
      table.style.placeholders 0 5 ++ ")",
    [.text migration.id, .text migration.description, .text migration.checksum, .ofWord instant,
      .ofWord (UInt64.ofNat duration.wholeMillis)]⟩

def stampStatement (table : LedgerTable) (id : String) (instant : UInt64) : Statement :=
  ⟨"UPDATE " ++ table.name ++ " SET rolled_back_at_ms = " ++ table.style.placeholder 0 ++
      " WHERE migration_id = " ++ table.style.placeholder 1 ++ " AND rolled_back_at_ms IS NULL",
    [.ofWord instant, .text id]⟩

def historyStatement (table : LedgerTable) : Statement :=
  .plain ("SELECT migration_id, description, checksum, applied_at_ms, duration_ms, " ++
    "rolled_back_at_ms FROM " ++ table.name ++ " ORDER BY applied_at_ms, migration_id")

/-! ### Rows -/

/-- A count in a column; a negative one reads as zero. -/
def count? (row : Row) (column : String) : Option UInt64 :=
  ((row.get? column).bind Value.int?).map fun n => if n < 0 then 0 else n.toUInt64

def textOf (row : Row) (column : String) : Except Error String :=
  match (row.get? column).bind Value.text? with
  | some s => .ok s
  | none => .error (.statement ("history row has no text column " ++ column))

def countOf (row : Row) (column : String) : Except Error UInt64 :=
  match count? row column with
  | some n => .ok n
  | none => .error (.statement ("history row has no integer column " ++ column))

/-- The record that a row of the ledger table holds. -/
def recordOf (row : Row) : Except Error MigrationRecord := do
  let id ← textOf row "migration_id"
  let description ← textOf row "description"
  let checksum ← textOf row "checksum"
  let appliedAt ← countOf row "applied_at_ms"
  let duration ← countOf row "duration_ms"
  return ⟨id, description, checksum, appliedAt, duration, count? row "rolled_back_at_ms"⟩

/-- The records that rows hold. -/
def recordsOf (rows : List Row) : Except Error (List MigrationRecord) := rows.mapM recordOf

/-- The migration that a row names. -/
def idOf (row : Row) : Except Error String :=
  match (row.get? "migration_id").bind Value.text? with
  | some id => .ok id
  | none => .error (.statement "history row has no migration_id")

/-- The migrations that rows name, each once. -/
def idsOf (rows : List Row) : Except Error (List String) := return distinct (← rows.mapM idOf)

end LedgerTable

end ShardFleet
