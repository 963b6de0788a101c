import ShardFleet.Proofs.Attempts
import ShardFleet.Proofs.OrderedMap
import ShardFleet.Reference.TableBook

/-!
Reference tables kept in memory, under one definition of the table.

The rows of a table are told by their keys: `ReferenceTable.keyed` pairs rows with them, and
writing puts them over what is there (`TableBook.upsert_eq_ok_iff`). As long as every write to a
table goes by one definition (`TableBook.WrittenBy`), each of its rows stands under its own key
(`WrittenBy.keyed`). So all that a shard holds of the table can be written elsewhere as it is
(`Keyed.keyed_values`), and what is there then is the rows of the shard over those that were there
before (`get?_store_entries`).
-/

namespace ShardFleet

open ShardFleet.Digest (Bytes)

namespace ReferenceTable

variable {table : ReferenceTable} {row : Row} {rows : List Row} {entries : List (Bytes × Row)}
  {key : Bytes}

theorem check_eq_ok_iff : table.check = .ok () ↔ table.primaryKey ≠ [] := by
  unfold check
  cases table.primaryKey <;> simp

/-- Rows with their keys: each row once, in order, beside the key that it has. -/
theorem keyed_eq_ok_iff :
    table.keyed rows = .ok entries ↔
      entries.map Prod.snd = rows ∧ ∀ entry ∈ entries, table.rowKey entry.2 = .ok entry.1 := by
  have one (row : Row) (entry : Bytes × Row) :
      (do return (← table.rowKey row, row) : Except Error (Bytes × Row)) = .ok entry ↔
        entry.2 = row ∧ table.rowKey entry.2 = .ok entry.1 := by
    obtain ⟨key, other⟩ := entry
    rw [bind_eq_ok_iff]
    constructor
    · rintro ⟨own, named, paired⟩
      obtain ⟨rfl, rfl⟩ := Prod.mk.inj (Except.ok.inj paired)
      exact ⟨rfl, named⟩
    · rintro ⟨rfl, named⟩
      exact ⟨key, named, rfl⟩
  rw [keyed, mapM_eq_ok_iff]
  simp only [one]
  constructor
  · intro paired
    induction paired with
    | nil => simp
    | cons first _ ih =>
        exact ⟨congrArg₂ List.cons first.1 ih.1, List.forall_mem_cons.mpr ⟨first.2, ih.2⟩⟩
  · rintro ⟨rfl, named⟩
    induction entries with
    | nil => exact .nil
    | cons entry rest ih =>
        obtain ⟨first, later⟩ := List.forall_mem_cons.mp named
        exact .cons ⟨rfl, first⟩ (ih later)

end ReferenceTable

namespace TableBook

variable {table other : ReferenceTable} {book after : TableBook} {shard : ShardId}
  {rows : List Row} {entries : List (Bytes × Row)} {key : Bytes}

theorem rowsOf_put (book : TableBook) (shard id : ShardId) (name table : String)
    (rows : KeyedRows) :
    (book.put shard table rows).rowsOf id name =
      if id = shard ∧ name = table then rows else book.rowsOf id name := by
  simp only [put, rowsOf, OrderedMap.getD_alter]
  by_cases here : id = shard
  · simp [here]
  · simp [here]

theorem upsert_eq_ok_iff :
    book.upsert shard table rows = .ok after ↔
      table.check = .ok () ∧ ∃ entries, table.keyed rows = .ok entries ∧
        after = book.put shard table.name (store (book.rowsOf shard table.name) entries) := by
  rw [upsert, bind_eq_ok_iff]
  constructor
  · rintro ⟨⟨⟩, checked, ended⟩
    obtain ⟨entries, keyed, ended⟩ := bind_eq_ok_iff.mp ended
    exact ⟨checked, entries, keyed, (Except.ok.inj ended).symm⟩
  · rintro ⟨checked, entries, keyed, rfl⟩
    exact ⟨(), checked, bind_eq_ok_iff.mpr ⟨entries, keyed, rfl⟩⟩

/-- What is found after rows were written: the last one written under the key, or what was there
before. -/
theorem get?_store (rows : KeyedRows) (entries : List (Bytes × Row)) (key : Bytes) :
    (store rows entries).get? key =
      ((entries.reverse.find? fun entry => entry.1 = key).map Prod.snd).or (rows.get? key) :=
  OrderedMap.get?_foldl_insert_entries entries rows key

/-- The rows of one map lie over those of another in which they were written. -/
theorem get?_store_entries (upper lower : KeyedRows) (key : Bytes) :
    (store lower upper.entries).get? key = (upper.get? key).or (lower.get? key) :=
  OrderedMap.get?_foldl_insert_map upper lower key

/-- Every row of the table stands under its own key. -/
def Keyed (table : ReferenceTable) (book : TableBook) : Prop :=
  ∀ shard key row, (book.rowsOf shard table.name).get? key = some row → table.rowKey row = .ok key

/-- What came about by writing and deleting, where every write to the table goes by one definition
of it. -/
inductive WrittenBy (table : ReferenceTable) : TableBook → Prop
  | empty : WrittenBy table .empty
  | upsert {book after : TableBook} {shard : ShardId} {other : ReferenceTable} {rows : List Row}
      (written : WrittenBy table book) (one : other.name = table.name → other = table)
      (wrote : book.upsert shard other rows = .ok after) : WrittenBy table after
  | delete {book : TableBook} {shard : ShardId} {other : ReferenceTable} {key : List Value}
      (written : WrittenBy table book) : WrittenBy table (book.delete shard other key).2

theorem Keyed.upsert (keyed : book.Keyed table) (one : other.name = table.name → other = table)
    (wrote : book.upsert shard other rows = .ok after) : after.Keyed table := by
  obtain ⟨-, entries, named, rfl⟩ := upsert_eq_ok_iff.mp wrote
  intro id key row found
  rw [rowsOf_put] at found
  split at found
  · next here =>
      obtain rfl := one here.2.symm
      rw [get?_store] at found
      rcases Option.or_eq_some_iff.mp found with new | ⟨-, old⟩
      · obtain ⟨entry, last, rfl⟩ := Option.map_eq_some_iff.mp new
        have mem := List.mem_reverse.mp (List.mem_of_find?_eq_some last)
        have under : entry.1 = key := by simpa using List.find?_some last
        exact under ▸ (ReferenceTable.keyed_eq_ok_iff.mp named).2 entry mem
      · exact keyed shard key row old
  · exact keyed id key row found

theorem Keyed.delete (keyed : book.Keyed table) (shard : ShardId) (other : ReferenceTable)
    (key : List Value) : (book.delete shard other key).2.Keyed table := by
  unfold TableBook.delete
  dsimp only
  split
  · intro id form row found
    rw [rowsOf_put] at found
    split at found
    · next here =>
        rw [OrderedMap.erase, OrderedMap.get?_filter_eq_some, ← here.2] at found
        exact keyed shard form row found.1
    · exact keyed id form row found
  · exact keyed

theorem WrittenBy.keyed (written : book.WrittenBy table) : book.Keyed table := by
  induction written with
  | empty =>
      intro shard key row found
      cases found
  | upsert _ one wrote ih => exact ih.upsert one wrote
  | delete _ ih => exact ih.delete _ _ _

/-- All that a shard holds of the table has its keys. -/
theorem Keyed.keyed_values (keyed : book.Keyed table) (shard : ShardId) :
    table.keyed (book.rowsOf shard table.name).values =
      .ok (book.rowsOf shard table.name).entries :=
  ReferenceTable.keyed_eq_ok_iff.mpr
    ⟨rfl, fun entry mem => keyed shard entry.1 entry.2 (OrderedMap.mem_entries.mp mem)⟩

end TableBook

end ShardFleet
