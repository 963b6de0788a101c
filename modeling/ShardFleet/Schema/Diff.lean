import ShardFleet.Schema.Basic

/-!
Structural differences between two schemas.

Type names compare without regard to the case of ASCII letters; default expressions do not
count.
-/

namespace ShardFleet

/-- A column that both sides have and define differently. -/
structure ColumnMismatch where
  table : String
  column : String
  /-- The definition on the baseline. -/
  expected : ColumnSchema
  /-- The definition on the compared shard. -/
  actual : ColumnSchema
  deriving DecidableEq, Repr, Inhabited

/-- The differences of a shard from a baseline. -/
structure SchemaDiff where
  shard : ShardId
  baseline : ShardId
  /-- On the baseline only. -/
  missingTables : List String
  /-- On the shard only. -/
  extraTables : List String
  missingColumns : List (String × String)
  extraColumns : List (String × String)
  mismatchedColumns : List ColumnMismatch
  deriving DecidableEq, Repr, Inhabited

/-- Whether two columns are defined alike. -/
def ColumnSchema.alike (a b : ColumnSchema) : Bool :=
  a.dataType.toLower = b.dataType.toLower && a.nullable = b.nullable

namespace SchemaDiff

/-- Whether the schemas are structurally the same. -/
def isEmpty (diff : SchemaDiff) : Bool :=
  diff.missingTables.isEmpty && diff.extraTables.isEmpty && diff.missingColumns.isEmpty &&
    diff.extraColumns.isEmpty && diff.mismatchedColumns.isEmpty

/-- The tables of one schema that are not in another. -/
def tablesOutside (schema other : ShardSchema) : List String :=
  (schema.tables.filter fun table => (other.table? table.name).isNone).map TableSchema.name

/-- The columns of one table that are not in another, each with the table's name. -/
def columnsOutside (table other : TableSchema) : List (String × String) :=
  (table.columns.filter fun column => (other.column? column.name).isNone).map fun column =>
    (table.name, column.name)

/-- The columns of a table that another defines differently. -/
def mismatches (expected actual : TableSchema) : List ColumnMismatch :=
  expected.columns.filterMap fun column =>
    match actual.column? column.name with
    | some found =>
        if found.alike column then none
        else some ⟨expected.name, column.name, column, found⟩
    | none => none

/-- The tables of the baseline that the shard has too, each with the shard's. -/
def commonTables (shard baseline : ShardSchema) : List (TableSchema × TableSchema) :=
  baseline.tables.filterMap fun expected =>
    (shard.table? expected.name).map fun actual => (expected, actual)

/-- The differences of a shard from a baseline. -/
def between (shard baseline : ShardSchema) : SchemaDiff :=
  let common := commonTables shard baseline
  { shard := shard.shard
    baseline := baseline.shard
    missingTables := tablesOutside baseline shard
    extraTables := tablesOutside shard baseline
    missingColumns := common.flatMap fun pair => columnsOutside pair.1 pair.2
    extraColumns := common.flatMap fun pair => columnsOutside pair.2 pair.1
    mismatchedColumns := common.flatMap fun pair => mismatches pair.1 pair.2 }

end SchemaDiff

end ShardFleet
