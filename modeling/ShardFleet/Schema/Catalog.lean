import ShardFleet.Migration.LedgerTable
import ShardFleet.Schema.Basic

/-!
Schemas read from a catalog: the statement that asks for the columns of all tables, and how its
rows are grouped into tables.

The ledger table is never part of a schema, so keeping a ledger is no difference.
-/

namespace ShardFleet

/-- Which schema of the catalog is read, and which of its tables are left out. -/
structure Catalog where
  style : PlaceholderStyle := .numbered
  schemaName : String := "public"
  excluded : List String := [LedgerTable.defaultName]
  deriving DecidableEq, Repr, Inhabited

namespace Catalog

/-- The statement that asks for all columns, in the order of tables and of columns. -/
def statement (catalog : Catalog) : Statement :=
  ⟨"SELECT table_name, column_name, data_type, is_nullable, column_default " ++
      "FROM information_schema.columns WHERE table_schema = " ++ catalog.style.placeholder 0 ++
      " ORDER BY table_name, ordinal_position",
    [.text catalog.schemaName]⟩

/-- That a catalog row lacks something. -/
def malformed (shard : ShardId) (column : String) : Error :=
  .schemaComparisonFailed shard ("catalog row has no " ++ column)

def textOf (shard : ShardId) (row : Row) (column : String) : Except Error String :=
  match (row.get? column).bind Value.text? with
  | some s => .ok s
  | none => .error (malformed shard column)

def flagOf (shard : ShardId) (row : Row) (column : String) : Except Error Bool :=
  match (row.get? column).bind Value.bool? with
  | some b => .ok b
  | none => .error (malformed shard column)

/-- The column that a row describes. -/
def columnOf (shard : ShardId) (row : Row) : Except Error ColumnSchema := do
  let nullable ← flagOf shard row "is_nullable"
  let name ← textOf shard row "column_name"
  let dataType ← textOf shard row "data_type"
  return ⟨name, dataType, nullable, (row.get? "column_default").bind Value.text?⟩

/-- Takes a row into the tables read so far. -/
def addRow (catalog : Catalog) (shard : ShardId)
    (tables : OrderedMap String (List ColumnSchema)) (row : Row) :
    Except Error (OrderedMap String (List ColumnSchema)) := do
  let table ← textOf shard row "table_name"
  if table ∈ catalog.excluded then return tables
  else
    let column ← columnOf shard row
    return tables.alter table [] (· ++ [column])

/-- The schema that catalog rows describe. -/
def parse (catalog : Catalog) (shard : ShardId) (rows : List Row) : Except Error ShardSchema := do
  let tables ← rows.foldlM (catalog.addRow shard) OrderedMap.empty
  return .new shard (tables.entries.map fun entry => ⟨entry.1, entry.2⟩)

end Catalog

end ShardFleet
