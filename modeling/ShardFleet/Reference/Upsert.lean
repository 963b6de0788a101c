import ShardFleet.Options
import ShardFleet.Reference.Table

/-!
Statements that write and read a reference table.

Rows are written by one insert per chunk that turns into an update where the key is taken. One
such statement must not touch a key twice, so of several rows with one key only the last is
bound, at the place of the first. A chunk holds as many rows as the limit on bound values
allows.
-/

namespace ShardFleet.Upsert

open ShardFleet.Digest (Bytes)

/-- Splits a list into pieces of `size` members, the last one possibly shorter. -/
def chunks {α : Type} (size : Nat) (list : List α) : List (List α) :=
  if size = 0 ∨ list = [] then []
  else list.take size :: chunks size (list.drop size)
  termination_by list.length
  decreasing_by
    next h =>
      have : list.length ≠ 0 := by simp_all
      simp only [List.length_drop]
      omega

/-- Puts a row at the place of the row with its key, or at the end. -/
def keepLast (key : Bytes) (row : Row) : List (Bytes × Row) → List (Bytes × Row)
  | [] => [(key, row)]
  | (other, kept) :: rest =>
      if other = key then (key, row) :: rest else (other, kept) :: keepLast key row rest

/-- One row per key, the last one given, in the order in which the keys first appear. -/
def onePerKey (keyed : List (Bytes × Row)) : List (Bytes × Row) :=
  keyed.foldl (fun kept entry => keepLast entry.1 entry.2 kept) []

/-- How many rows of a table one statement binds. -/
def rowsPerStatement (options : StatementOptions) (table : ReferenceTable) : Except Error Nat :=
  let width := table.columns.length
  if width = 0 ∨ options.maxParameters < width then
    .error (.config ("table " ++ table.name ++ " has " ++ toString width ++
      " columns, limit is " ++ toString options.maxParameters ++ " parameters per statement"))
  else .ok (options.maxParameters / width)

/-- Names in double quotes, separated by commas. -/
def quotedList (names : List String) : Except Error String :=
  return ", ".intercalate (← names.mapM Identifier.quote)

/-- What an insert does where the key is taken: update the other columns, if there are any. -/
def conflictAction (table : ReferenceTable) : Except Error String := do
  let names ← table.valueColumns.mapM Identifier.quote
  if names.isEmpty then return "DO NOTHING"
  else
    return "DO UPDATE SET " ++
      ", ".intercalate (names.map fun name => name ++ " = EXCLUDED." ++ name)

/-- The text of an upsert, apart from the placeholders of its rows. -/
structure Frame where
  name : String
  columns : String
  key : String
  action : String
  /-- Values per row. -/
  width : Nat

/-- The frame of a table's upserts; its names must be plain. -/
def frame (table : ReferenceTable) : Except Error Frame := do
  let name ← Identifier.quote table.name
  let columns ← quotedList table.columns
  let key ← quotedList table.primaryKey
  let action ← conflictAction table
  return ⟨name, columns, key, action, table.columns.length⟩

/-- The placeholders of the row at `index` of a statement, in brackets. -/
def tuple (style : PlaceholderStyle) (width index : Nat) : String :=
  "(" ++ style.placeholders (index * width) width ++ ")"

/-- The text of an upsert of `count` rows. -/
def Frame.sql (frame : Frame) (style : PlaceholderStyle) (count : Nat) : String :=
  "INSERT INTO " ++ frame.name ++ " (" ++ frame.columns ++ ") VALUES " ++
    ", ".intercalate ((List.range count).map (tuple style frame.width)) ++
    " ON CONFLICT (" ++ frame.key ++ ") " ++ frame.action

/-- The values of a row, a missing column as null. -/
def rowValues (table : ReferenceTable) (row : Row) : List Value :=
  table.columns.map fun column => row.getD column .null

/-- The upsert of a chunk of rows. -/
def chunkStatement (frame : Frame) (style : PlaceholderStyle) (table : ReferenceTable)
    (rows : List Row) : Statement :=
  ⟨frame.sql style rows.length, rows.flatMap (rowValues table)⟩

/-- The statements that upsert rows, one per chunk. -/
def statements (options : StatementOptions) (table : ReferenceTable) (rows : List Row) :
    Except Error (List Statement) := do
  table.check
  let size ← rowsPerStatement options table
  let frame ← frame table
  let kept := (onePerKey (← table.keyed rows)).map Prod.snd
  return (chunks size kept).map (chunkStatement frame options.style table)

/-- The statement that reads a whole table in key order. -/
def selectStatement (table : ReferenceTable) : Except Error Statement := do
  let columns ← quotedList table.columns
  let key ← quotedList table.primaryKey
  let name ← Identifier.quote table.name
  let order := if table.primaryKey.isEmpty then "" else " ORDER BY " ++ key
  return .plain ("SELECT " ++ columns ++ " FROM " ++ name ++ order)

end ShardFleet.Upsert
