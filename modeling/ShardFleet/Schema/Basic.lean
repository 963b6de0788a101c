import ShardFleet.ShardId

/-! Schemas of shards: tables in order of their names, each with its columns in order. -/

namespace ShardFleet

/-- A column as a catalog reports it. -/
structure ColumnSchema where
  name : String
  dataType : String
  nullable : Bool
  /-- The default expression. -/
  default : Option String
  deriving DecidableEq, Repr, Inhabited

/-- A table and its columns. -/
structure TableSchema where
  name : String
  columns : List ColumnSchema
  deriving DecidableEq, Repr, Inhabited

/-- The column of a name. -/
def TableSchema.column? (table : TableSchema) (name : String) : Option ColumnSchema :=
  table.columns.find? (·.name = name)

/-- The schema of a shard. -/
structure ShardSchema where
  shard : ShardId
  tables : List TableSchema
  deriving DecidableEq, Repr, Inhabited

namespace ShardSchema

/-- A schema of the given tables, put in order. -/
def new (shard : ShardId) (tables : List TableSchema) : ShardSchema :=
  ⟨shard, tables.mergeSort fun a b => (compare a.name b.name).isLE⟩

/-- The table of a name. -/
def table? (schema : ShardSchema) (name : String) : Option TableSchema :=
  schema.tables.find? (·.name = name)

end ShardSchema

end ShardFleet
