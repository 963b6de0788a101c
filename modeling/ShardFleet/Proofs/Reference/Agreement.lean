import ShardFleet.Proofs.Reference.Relations

/-!
A table behind statements holds what a table in memory holds.

One upsert does the same to both (`upsert_step`): the rows of a call are bound once per key, chunk
by chunk, and each chunk is executed as its rows are written (`execute_chunks`). So after any calls
the tuples are the rows in the columns of the table, key by key, and the last call made again
changes neither (`TableBook.upsert_again`).
-/

namespace ShardFleet

open ShardFleet.Digest (Bytes)

namespace Relation

/-- Upserts rows by the statements for them, one after the other. -/
def upsert (options : StatementOptions) (table : ReferenceTable) (relation : Relation)
    (rows : List Row) : Except Error Relation := do
  match (← Upsert.statements options table rows).foldlM execute relation with
  | some after => return after
  | none => .error (.statement "statement refused")

/-- Upserts the rows of several calls. -/
def upsertAll (options : StatementOptions) (table : ReferenceTable) (relation : Relation)
    (calls : List (List Row)) : Except Error Relation :=
  calls.foldlM (upsert options table) relation

end Relation

namespace TableBook

/-- Upserts the rows of several calls. -/
def upsertAll (book : TableBook) (shard : ShardId) (table : ReferenceTable)
    (calls : List (List Row)) : Except Error TableBook :=
  calls.foldlM (fun book rows => book.upsert shard table rows) book

variable {book after : TableBook} {shard : ShardId} {table : ReferenceTable} {call : List Row}
  {entries : List (Bytes × Row)}

theorem put_put (book : TableBook) (shard : ShardId) (table : String) (rows others : KeyedRows) :
    (book.put shard table rows).put shard table others = book.put shard table others := by
  simp only [put, OrderedMap.alter, OrderedMap.getD_insert, if_true, OrderedMap.insert_insert]

theorem store_store (rows : KeyedRows) (entries : List (Bytes × Row)) :
    store (store rows entries) entries = store rows entries := by
  refine OrderedMap.ext_get? fun key => ?_
  rw [get?_store, get?_store, ← Option.or_assoc, Option.or_self]

/-- A call that was made before changes nothing. -/
theorem upsert_again (wrote : book.upsert shard table call = .ok after) :
    after.upsert shard table call = .ok after := by
  obtain ⟨checked, entries, keyed, rfl⟩ := upsert_eq_ok_iff.mp wrote
  refine upsert_eq_ok_iff.mpr ⟨checked, entries, keyed, ?_⟩
  rw [rowsOf_put, if_pos ⟨rfl, rfl⟩, put_put, store_store]

end TableBook

namespace ReferenceTable

variable {table : ReferenceTable} {row : Row} {key : Bytes} {rows : KeyedRows}
  {entries : List (Bytes × Row)} {options : StatementOptions} {frame : Upsert.Frame} {size : Nat}

theorem Identifies.rowKey (has : table.Identifies row key) : table.rowKey row = .ok key := by
  obtain ⟨values, keyed, -, rfl⟩ := has
  exact bind_eq_ok_iff.mpr ⟨values, keyed, rfl⟩

/-- Rows that have their keys are paired with them. -/
theorem exists_keyed {call : List Row}
    (identified : ∀ row ∈ call, ∃ key, table.Identifies row key) :
    ∃ entries, table.keyed call = .ok entries ∧
      ∀ entry ∈ entries, table.Identifies entry.2 entry.1 := by
  obtain ⟨entries, keyed⟩ : ∃ entries, table.keyed call = .ok entries := by
    refine exists_mapM_eq_ok fun row mem => ?_
    obtain ⟨key, has⟩ := identified row mem
    exact ⟨(key, row), bind_eq_ok_iff.mpr ⟨key, has.rowKey, rfl⟩⟩
  obtain ⟨given, named⟩ := keyed_eq_ok_iff.mp keyed
  refine ⟨entries, keyed, fun entry mem => ?_⟩
  obtain ⟨key, has⟩ := identified entry.2 (given ▸ List.mem_map_of_mem mem)
  have same : key = entry.1 := Except.ok.inj (has.rowKey.symm.trans (named entry mem))
  exact same ▸ has

/-- The chunks of rows with different keys, executed one after the other. -/
theorem execute_chunks (ready : table.Ready options frame size) (holds : table.Holds rows)
    {pieces : List (List (Bytes × Row))}
    (each : ∀ entry ∈ pieces.flatten, table.Identifies entry.2 entry.1)
    (filled : ∀ piece ∈ pieces, piece ≠ []) (distinct : (pieces.flatten.map Prod.fst).Nodup) :
    (pieces.map fun piece =>
        Upsert.chunkStatement frame options.style table (piece.map Prod.snd)).foldlM
        Relation.execute (table.relation rows) =
      some (table.relation (TableBook.store rows pieces.flatten)) := by
  induction pieces generalizing rows with
  | nil => rfl
  | cons piece rest ih =>
      rw [List.flatten_cons] at each distinct ⊢
      rw [List.map_append, List.nodup_append] at distinct
      obtain ⟨first, later⟩ := List.forall_mem_append.mp each
      obtain ⟨some, others⟩ := List.forall_mem_cons.mp filled
      rw [List.map_cons, List.foldlM_cons,
        execute_chunkStatement ready holds first some distinct.1]
      refine (ih (holds.store first) later others distinct.2.1).trans ?_
      rw [TableBook.store, TableBook.store, TableBook.store, List.foldl_append]

/-- The statements of a call do to the tuples what the call does to the rows. -/
theorem upsert_relation (ready : table.Ready options frame size) (holds : table.Holds rows)
    {call : List Row} (paired : table.keyed call = .ok entries)
    (each : ∀ entry ∈ entries, table.Identifies entry.2 entry.1) :
    (table.relation rows).upsert options table call =
      .ok (table.relation (TableBook.store rows entries)) := by
  let pieces := Upsert.chunks size (Upsert.onePerKey entries)
  have whole : pieces.flatten = Upsert.onePerKey entries :=
    Upsert.flatten_chunks (Upsert.size_ne_zero ready.admits) _
  have statements : Upsert.statements options table call =
      .ok (pieces.map fun piece =>
        Upsert.chunkStatement frame options.style table (piece.map Prod.snd)) := by
    refine Upsert.statements_eq_ok_iff.mpr
      ⟨check_eq_ok_iff.mpr ready.keyed, size, frame, entries, ready.admits, ready.framed, paired,
        ?_⟩
    rw [Upsert.map_chunks, List.map_map]
    rfl
  have kept : ∀ entry ∈ pieces.flatten, table.Identifies entry.2 entry.1 := fun entry mem =>
    each entry (Upsert.onePerKey_subset (whole ▸ mem))
  have executed := execute_chunks ready holds kept
    (fun piece mem => Upsert.ne_nil_of_mem_chunks mem) (whole ▸ Upsert.nodup_onePerKey entries)
  rw [whole, Upsert.store_onePerKey] at executed
  refine bind_eq_ok_iff.mpr ⟨_, statements, ?_⟩
  rw [executed]
  rfl

/-- One call, made to a table behind statements and to one in memory that hold the same. -/
theorem upsert_step (ready : table.Ready options frame size) {book : TableBook} {shard : ShardId}
    (holds : table.Holds (book.rowsOf shard table.name)) {call : List Row}
    (identified : ∀ row ∈ call, ∃ key, table.Identifies row key) :
    ∃ after, book.upsert shard table call = .ok after ∧
      (table.relation (book.rowsOf shard table.name)).upsert options table call =
        .ok (table.relation (after.rowsOf shard table.name)) ∧
      table.Holds (after.rowsOf shard table.name) := by
  obtain ⟨entries, paired, each⟩ := exists_keyed identified
  let after := book.put shard table.name
    (TableBook.store (book.rowsOf shard table.name) entries)
  have held : after.rowsOf shard table.name =
      TableBook.store (book.rowsOf shard table.name) entries := by
    rw [TableBook.rowsOf_put, if_pos ⟨rfl, rfl⟩]
  have wrote : book.upsert shard table call = .ok after :=
    TableBook.upsert_eq_ok_iff.mpr ⟨check_eq_ok_iff.mpr ready.keyed, entries, paired, rfl⟩
  refine ⟨after, wrote, ?_, held ▸ holds.store each⟩
  rw [held]
  exact upsert_relation ready holds paired each

/-- Any number of calls. -/
theorem upsertAll_run (ready : table.Ready options frame size) {book : TableBook}
    {shard : ShardId} (holds : table.Holds (book.rowsOf shard table.name)) {calls : List (List Row)}
    (identified : ∀ call ∈ calls, ∀ row ∈ call, ∃ key, table.Identifies row key) :
    ∃ after, book.upsertAll shard table calls = .ok after ∧
      (table.relation (book.rowsOf shard table.name)).upsertAll options table calls =
        .ok (table.relation (after.rowsOf shard table.name)) ∧
      table.Holds (after.rowsOf shard table.name) := by
  induction calls generalizing book with
  | nil => exact ⟨book, rfl, rfl, holds⟩
  | cons call calls ih =>
      obtain ⟨first, later⟩ := List.forall_mem_cons.mp identified
      obtain ⟨middle, wrote, executed, kept⟩ := upsert_step ready holds first
      obtain ⟨after, others, alsoExecuted, final⟩ := ih kept later
      refine ⟨after, ?_, ?_, final⟩
      · exact bind_eq_ok_iff.mpr ⟨middle, wrote, others⟩
      · exact bind_eq_ok_iff.mpr ⟨_, executed, alsoExecuted⟩

/-! ### Tables with a key and without -/

theorem primaryKey_subset_columns (name : String) (primaryKey columns : List String) :
    (new name primaryKey columns).primaryKey ⊆ (new name primaryKey columns).columns := by
  have grows (listed others : List String) : listed ⊆ others.foldl
      (fun all column => if column ∈ all then all else all ++ [column]) listed := by
    induction others generalizing listed with
    | nil => exact List.Subset.refl _
    | cons column others ih =>
        refine List.Subset.trans ?_ (ih _)
        dsimp only
        split
        · exact List.Subset.refl _
        · exact List.subset_append_left _ _
  exact grows primaryKey columns

theorem exists_frame (within : table.primaryKey ⊆ table.columns)
    (plain : ∀ id ∈ table.name :: table.columns, ∃ quoted, Identifier.quote id = .ok quoted) :
    ∃ frame, Upsert.frame table = .ok frame := by
  have list {ids : List String} (listed : ids ⊆ table.columns) :
      ∃ quotes, ids.mapM Identifier.quote = .ok quotes :=
    exists_mapM_eq_ok fun id mem => plain id (List.mem_cons_of_mem _ (listed mem))
  obtain ⟨name, nameQuoted⟩ := plain table.name List.mem_cons_self
  obtain ⟨columns, columnsQuoted⟩ := list (List.Subset.refl _)
  obtain ⟨key, keyQuoted⟩ := list within
  obtain ⟨values, valuesQuoted⟩ := list fun column mem => (mem_valueColumns.mp mem).1
  exact ⟨⟨name, _, _, _, table.columns.length⟩, Upsert.frame_eq_ok_iff.mpr
    ⟨nameQuoted, Upsert.quotedList_eq_ok_iff.mpr ⟨columns, columnsQuoted, rfl⟩,
      Upsert.quotedList_eq_ok_iff.mpr ⟨key, keyQuoted, rfl⟩,
      Upsert.conflictAction_eq_ok_iff.mpr ⟨values, valuesQuoted, rfl⟩, rfl⟩⟩

/-- Without a key every upsert is refused, in one way by both. -/
theorem upsert_of_no_key (unkeyed : table.primaryKey = []) (options : StatementOptions)
    (shard : ShardId) (relation : Relation) (book : TableBook) (rows : List Row) :
    ∃ error, relation.upsert options table rows = .error error ∧
      book.upsert shard table rows = .error error := by
  cases checked : table.check with
  | ok done => exact absurd unkeyed (check_eq_ok_iff.mp checked)
  | error error =>
      refine ⟨error, ?_, ?_⟩
      · rw [Relation.upsert, Upsert.statements, checked]
        rfl
      · rw [TableBook.upsert, checked]
        rfl

/-- What is there after the calls of upserts to a table of the given definition, to a relation by
the statements for them and to a book as they are. -/
structure Agreement (table : ReferenceTable) (options : StatementOptions) (shard : ShardId)
    (calls : List (List Row)) (relation : Relation) (book : TableBook) : Prop where
  executed : (table.relation .empty).upsertAll options table calls = .ok relation
  written : TableBook.empty.upsertAll shard table calls = .ok book
  /-- The tuples stand under the keys of the rows. -/
  keys : relation.tuples.keys = (book.rowsOf shard table.name).keys
  /-- The tuples are the rows that are read, in the columns of the table. -/
  tuples : relation.tuples.values = (book.readAll shard table).map table.tuple
  /-- The last call changes nothing if it is made again. -/
  relation_again : ∀ rows ∈ calls.getLast?, relation.upsert options table rows = .ok relation
  book_again : ∀ rows ∈ calls.getLast?, book.upsert shard table rows = .ok book

theorem Ready.exists_agreement (ready : table.Ready options frame size) (shard : ShardId)
    {calls : List (List Row)}
    (identified : ∀ call ∈ calls, ∀ row ∈ call, ∃ key, table.Identifies row key) :
    ∃ relation book, table.Agreement options shard calls relation book := by
  have nothing : table.Holds (TableBook.empty.rowsOf shard table.name) :=
    fun _ _ absurd => nomatch absurd
  obtain ⟨book, written, executed, holds⟩ := upsertAll_run ready nothing identified
  have bookAgain : ∀ rows ∈ calls.getLast?, book.upsert shard table rows = .ok book := by
    intro rows last
    obtain ⟨earlier, rfl⟩ := List.getLast?_eq_some_iff.mp last
    rw [TableBook.upsertAll, List.foldlM_append] at written
    obtain ⟨before, -, ended⟩ := bind_eq_ok_iff.mp written
    obtain ⟨after, wrote, same⟩ := bind_eq_ok_iff.mp ended
    obtain rfl := Except.ok.inj same
    exact TableBook.upsert_again wrote
  refine ⟨table.relation (book.rowsOf shard table.name), book, executed, written, ?_, ?_, ?_,
    bookAgain⟩
  · exact List.map_map
  · rw [TableBook.readAll, OrderedMap.values, OrderedMap.values, List.map_map]
    exact List.map_map
  · intro rows last
    obtain ⟨after, wrote, same, -⟩ :=
      upsert_step ready holds (identified rows (List.mem_of_getLast? last))
    obtain rfl : book = after := Except.ok.inj ((bookAgain rows last).symm.trans wrote)
    exact same

/-- Upserts of rows that have their keys leave the same under every key, whether they are executed
as statements, in any style and under any limit that admits the table, or written in memory. A
table without a key takes no rows in either way. -/
theorem upserts_agree (name : String) (primaryKey columns : List String)
    (options : StatementOptions) (shard : ShardId) (calls : List (List Row))
    (plain : ∀ id ∈ name :: (new name primaryKey columns).columns,
      ∃ quoted, Identifier.quote id = .ok quoted)
    (admits : ∃ size, Upsert.rowsPerStatement options (new name primaryKey columns) = .ok size)
    (identified : ∀ call ∈ calls, ∀ row ∈ call,
      ∃ key, (new name primaryKey columns).Identifies row key) :
    (primaryKey ≠ [] → ∃ relation book,
      (new name primaryKey columns).Agreement options shard calls relation book) ∧
    (primaryKey = [] → ∀ (relation : Relation) (book : TableBook) (rows : List Row), ∃ error,
      relation.upsert options (new name primaryKey columns) rows = .error error ∧
        book.upsert shard (new name primaryKey columns) rows = .error error) := by
  obtain ⟨size, admits⟩ := admits
  refine ⟨fun keyed => ?_, fun unkeyed relation book rows => ?_⟩
  · have within := primaryKey_subset_columns name primaryKey columns
    obtain ⟨frame, framed⟩ := exists_frame within plain
    have ready : (new name primaryKey columns).Ready options frame size :=
      ⟨keyed, within, framed, admits⟩
    exact ready.exists_agreement shard identified
  · exact upsert_of_no_key unkeyed options shard relation book rows

/-- Two calls that give regions more than once, with two rows to a statement. -/
theorem upserts_agree_rates :
    let table := new "geo.rates" ["region"] ["rate", "note"]
    let row := fun (region : String) (rate : Int64) =>
      (OrderedMap.ofList [("region", .text region), ("rate", .int rate)] : Row)
    let calls := [[row "north" 1, row "south" 2, row "north" 3, row "east" 4], [row "south" 5]]
    let options : StatementOptions := ⟨.numbered, 6⟩
    (∀ call ∈ calls, ∀ row ∈ call, ∃ key, table.Identifies row key) ∧
      ∃ relation book, table.Agreement options ⟨"eu-1"⟩ calls relation book := by
  intro table row calls options
  have plain : ∀ id ∈ "geo.rates" :: table.columns, ∃ quoted, Identifier.quote id = .ok quoted := by
    refine List.forall_mem_cons.mpr ⟨⟨_, rfl⟩, List.forall_mem_cons.mpr ⟨⟨_, rfl⟩,
      List.forall_mem_cons.mpr ⟨⟨_, rfl⟩, List.forall_mem_singleton.mpr ⟨_, rfl⟩⟩⟩⟩
  have identified : ∀ call ∈ calls, ∀ row ∈ call, ∃ key, table.Identifies row key := by
    have has (region : String) (rate : Int64)
        (short : (Text.utf8 region).length < UInt64.size) :
        ∃ key, table.Identifies (row region rate) key := by
      refine ⟨_, [.text region], keyOf_eq_ok_iff.mpr ⟨?_, by simp [Value.isNull]⟩,
        List.forall_mem_singleton.mpr short, rfl⟩
      simp [table, row, new, OrderedMap.ofList]
    simp only [calls, List.forall_mem_cons]
    refine ⟨⟨has _ _ ?_, has _ _ ?_, has _ _ ?_, has _ _ ?_, List.forall_mem_nil _⟩,
      ⟨has _ _ ?_, List.forall_mem_nil _⟩, List.forall_mem_nil _⟩ <;> decide
  refine ⟨identified, ?_⟩
  exact (upserts_agree "geo.rates" ["region"] ["rate", "note"] options ⟨"eu-1"⟩ calls plain
    ⟨2, Upsert.rowsPerStatement_eq_ok_iff.mpr (by decide)⟩ identified).1 (by decide)

end ReferenceTable

end ShardFleet
