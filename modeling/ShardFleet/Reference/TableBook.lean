import ShardFleet.Reference.Table

/-!
Reference tables kept in memory, shard by shard.

The rows of a table stand under the binary form of their keys, so writing the same rows again
changes nothing.
-/

namespace ShardFleet

open ShardFleet.Digest (Bytes)

/-- The rows of one table, by key. -/
abbrev KeyedRows := OrderedMap Bytes Row

/-- The tables of all shards, by name. -/
structure TableBook where
  shards : OrderedMap ShardId (OrderedMap String KeyedRows)
  deriving DecidableEq

namespace TableBook

def empty : TableBook := ⟨OrderedMap.empty⟩

instance : Inhabited TableBook := ⟨empty⟩

/-- The rows of a table on a shard, by key. -/
def rowsOf (book : TableBook) (shard : ShardId) (table : String) : KeyedRows :=
  (book.shards.getD shard OrderedMap.empty).getD table OrderedMap.empty

/-- Replaces the rows of a table on a shard. -/
def put (book : TableBook) (shard : ShardId) (table : String) (rows : KeyedRows) : TableBook :=
  ⟨book.shards.alter shard OrderedMap.empty (·.insert table rows)⟩

/-- Writes rows under their keys. -/
def store (rows : KeyedRows) (keyed : List (Bytes × Row)) : KeyedRows :=
  keyed.foldl (fun rows entry => rows.insert entry.1 entry.2) rows

/-- Writes rows, all of which must have their keys. -/
def upsert (book : TableBook) (shard : ShardId) (table : ReferenceTable) (rows : List Row) :
    Except Error TableBook := do
  table.check
  let keyed ← table.keyed rows
  return book.put shard table.name (store (book.rowsOf shard table.name) keyed)

/-- All rows of a table, in the order of their keys. -/
def readAll (book : TableBook) (shard : ShardId) (table : ReferenceTable) : List Row :=
  (book.rowsOf shard table.name).values

/-- Removes the row of a key; whether there was one. -/
def delete (book : TableBook) (shard : ShardId) (table : ReferenceTable) (key : List Value) :
    Bool × TableBook :=
  let rows := book.rowsOf shard table.name
  let form := Wire.write key
  if rows.contains form then (true, book.put shard table.name (rows.erase form))
  else (false, book)

def rowCount (book : TableBook) (shard : ShardId) (table : ReferenceTable) : Nat :=
  (book.rowsOf shard table.name).size

end TableBook

end ShardFleet
