import ShardFleet.Wire.Value

/-!
Reference tables: small tables that every shard holds a copy of.

A row is identified by its primary key values, and keys are compared by their binary form.
-/

namespace ShardFleet

open ShardFleet.Digest (Bytes)

/-- The definition of a reference table. -/
structure ReferenceTable where
  /-- The table's name, with its schema if it has one. -/
  name : String
  primaryKey : List String
  /-- All columns in statement order, those of the primary key included. -/
  columns : List String
  deriving DecidableEq, Repr, Inhabited

namespace ReferenceTable

/-- A table whose columns are those of the primary key, then the others given, each once. -/
def new (name : String) (primaryKey columns : List String) : ReferenceTable :=
  ⟨name, primaryKey,
    columns.foldl (fun all column => if column ∈ all then all else all ++ [column]) primaryKey⟩

/-- The columns that are not part of the primary key. -/
def valueColumns (table : ReferenceTable) : List String :=
  table.columns.filter (· ∉ table.primaryKey)

/-- Rows of a table without a primary key cannot be told apart. -/
def check (table : ReferenceTable) : Except Error Unit :=
  if table.primaryKey.isEmpty then
    .error (.config ("reference table " ++ table.name ++ " has no primary key"))
  else .ok ()

/-- The value of a row in a key column. -/
def keyValue (table : ReferenceTable) (row : Row) (column : String) : Except Error Value :=
  match (row.get? column).filter (!·.isNull) with
  | some value => .ok value
  | none =>
      .error (.statement
        ("row of " ++ table.name ++ " has no value for key column " ++ column))

/-- The primary key values of a row, in key order. -/
def keyOf (table : ReferenceTable) (row : Row) : Except Error (List Value) :=
  table.primaryKey.mapM (table.keyValue row)

/-- The binary form of the primary key of a row. -/
def rowKey (table : ReferenceTable) (row : Row) : Except Error Bytes :=
  return Wire.write (← table.keyOf row)

/-- Rows with their keys. -/
def keyed (table : ReferenceTable) (rows : List Row) : Except Error (List (Bytes × Row)) :=
  rows.mapM fun row => return (← table.rowKey row, row)

end ReferenceTable

instance : Wire.Form ReferenceTable where
  write table := Wire.write table.name ++ Wire.write table.primaryKey ++ Wire.write table.columns
  read := do
    let name ← Wire.read
    let primaryKey ← Wire.read
    let columns ← Wire.read
    return ⟨name, primaryKey, columns⟩

end ShardFleet
