import ShardFleet.Proofs.Reference.Insertions
import ShardFleet.Proofs.Wire.Reading

/-!
Tables that hold one tuple per key, and what statements do to them.

`Relation.execute` runs the text of an insertion with its bound values: a tuple whose key is free
is added, and where the key is taken the insertion says what becomes of the tuple that is there.
A reference table gives a relation by its definition, whose tuples are the rows of the table in
its columns (`ReferenceTable.relation`). One statement of an upsert does to it what a book does
when it takes the bound rows (`execute_chunkStatement`), since two rows with one key agree in the
key columns and an update sets all others (`resolve_tuple`).
-/

namespace ShardFleet

open ShardFleet.Digest (Bytes)

/-- A table that holds one tuple per key. -/
structure Relation where
  name : String
  columns : List String
  /-- The columns of the key. -/
  key : List String
  /-- The tuples, under the binary forms of their keys. -/
  tuples : OrderedMap Bytes Row
  deriving DecidableEq

namespace Resolution

/-- What stands under a key after another tuple was offered for it. -/
def resolve (old offered : Row) : Resolution → Row
  | .keep => old
  | .update assignments =>
      assignments.foldl (fun tuple (target, source) =>
        tuple.insert target (offered.getD source .null)) old

/-- The columns that are set or read. -/
def columns : Resolution → List String
  | .keep => []
  | .update assignments => assignments.map Prod.fst ++ assignments.map Prod.snd

end Resolution

namespace Relation

/-- The values as a tuple, with the binary form of its key: one value for each column, and none
that is null for a column of the key. -/
def keyed? (relation : Relation) (values : List Value) : Option (Bytes × Row) :=
  let tuple : Row := OrderedMap.ofList (relation.columns.zip values)
  let key := relation.key.map fun column => tuple.getD column .null
  if values.length = relation.columns.length ∧ ∀ value ∈ key, !value.isNull then
    some (Wire.write key, tuple)
  else none

/-- Adds a tuple, or resolves it with the one that has its key. -/
def offer (resolution : Resolution) (tuples : OrderedMap Bytes Row) (entry : Bytes × Row) :
    OrderedMap Bytes Row :=
  tuples.insert entry.1
    (match tuples.get? entry.1 with
    | none => entry.2
    | some old => resolution.resolve old entry.2)

/-- Whether the insertion is one into the relation. -/
def Admits (relation : Relation) (insertion : Insertion) : Prop :=
  insertion.table = relation.name ∧ insertion.columns = relation.columns ∧
    insertion.key = relation.key ∧ insertion.resolution.columns ⊆ relation.columns

instance (relation : Relation) (insertion : Insertion) : Decidable (relation.Admits insertion) :=
  inferInstanceAs (Decidable (_ ∧ _ ∧ _ ∧ ∀ column ∈ _, column ∈ _))

/-- Runs a statement, unless it is refused: its text must be an insertion into the relation, its
values must make tuples, and if it updates it must not touch a key twice. -/
def execute (relation : Relation) (statement : Statement) : Option Relation := do
  let insertion ← Insertion.ofText statement.sql
  guard (relation.Admits insertion)
  let entries ← (← insertion.values? statement.params).mapM relation.keyed?
  guard (insertion.resolution = .keep ∨ (entries.map Prod.fst).Nodup)
  return { relation with tuples := entries.foldl (offer insertion.resolution) relation.tuples }

theorem execute_eq_some {relation : Relation} {sql : String} {params : List Value}
    {insertion : Insertion} {values : List (List Value)} {entries : List (Bytes × Row)}
    (text : Insertion.ofText sql = some insertion) (admits : relation.Admits insertion)
    (bound : insertion.values? params = some values)
    (made : values.mapM relation.keyed? = some entries)
    (once : insertion.resolution = .keep ∨ (entries.map Prod.fst).Nodup) :
    relation.execute ⟨sql, params⟩ = some { relation with
      tuples := entries.foldl (offer insertion.resolution) relation.tuples } := by
  rw [execute, text, Option.bind_eq_bind, Option.bind_some, guard, if_pos admits, bound]
  simp only [pure_bind, Option.bind_eq_bind, Option.bind_some, made, guard, if_pos once]
  rfl

end Relation

namespace ReferenceTable

variable {table : ReferenceTable}

/-- A row in the columns of the table, a missing one as null. -/
def tuple (table : ReferenceTable) (row : Row) : Row :=
  OrderedMap.ofList (table.columns.map fun column => (column, row.getD column .null))

/-- The rows of the table as tuples under their keys. -/
def relation (table : ReferenceTable) (rows : KeyedRows) : Relation :=
  ⟨table.name, table.columns, table.primaryKey, rows.mapValues fun _ row => table.tuple row⟩

/-- The row has the key, by values whose lengths fit into a word, as those of values in memory
do. -/
def Identifies (table : ReferenceTable) (row : Row) (key : Bytes) : Prop :=
  ∃ values, table.keyOf row = .ok values ∧ (∀ value ∈ values, value.Fits) ∧ key = Wire.write values

theorem get?_tuple (table : ReferenceTable) (row : Row) (column : String) :
    (table.tuple row).get? column =
      if column ∈ table.columns then some (row.getD column .null) else none := by
  rw [tuple, OrderedMap.ofList, List.foldl_map]
  exact OrderedMap.get?_foldl_insert_keys table.columns _ _ column

/-! ### Keys -/

variable {row old : Row} {key : Bytes} {values others : List Value}

theorem keyValue_eq_ok_iff {column : String} {value : Value} :
    table.keyValue row column = .ok value ↔ value = row.getD column .null ∧ !value.isNull := by
  unfold keyValue OrderedMap.getD
  cases present : row.get? column with
  | none =>
      refine ⟨fun absurd => (nomatch absurd), ?_⟩
      rintro ⟨rfl, some⟩
      cases some
  | some other =>
      cases null : other.isNull with
      | true =>
          rw [Option.filter_some_neg (by simpa using null)]
          refine ⟨fun absurd => (nomatch absurd), ?_⟩
          rintro ⟨rfl, some⟩
          simp [null] at some
      | false =>
          rw [Option.filter_some_pos (by simpa using null)]
          constructor
          · rintro ⟨⟩
            exact ⟨rfl, by simpa using null⟩
          · rintro ⟨rfl, -⟩
            rfl

/-- A row has a key if it has a value for each key column. -/
theorem keyOf_eq_ok_iff :
    table.keyOf row = .ok values ↔
      values = table.primaryKey.map (fun column => row.getD column .null) ∧
        ∀ value ∈ values, !value.isNull := by
  rw [keyOf, mapM_eq_ok_iff]
  simp only [keyValue_eq_ok_iff]
  generalize table.primaryKey = columns
  constructor
  · intro each
    induction each with
    | nil => simp
    | cons first _ ih =>
        exact ⟨congrArg₂ List.cons first.1 ih.1, List.forall_mem_cons.mpr ⟨first.2, ih.2⟩⟩
  · rintro ⟨rfl, some⟩
    rw [List.forall₂_map_right_iff]
    exact List.forall₂_same.mpr fun column mem => ⟨rfl, some _ (List.mem_map_of_mem mem)⟩

/-- Lists of one length with the same form are equal. -/
theorem eq_of_write (fits : ∀ value ∈ values, value.Fits) (also : ∀ value ∈ others, value.Fits)
    (lengths : values.length = others.length) (same : Wire.write values = Wire.write others) :
    values = others := by
  have forms : values.flatMap Wire.write = others.flatMap Wire.write :=
    (List.append_inj same (congrArg (fun n => (Wire.writeLength n).length) lengths)).2
  have read := Wire.readMany_append (fun value mem => Wire.recovers_value (fits value mem)) []
  rw [forms, lengths, Wire.readMany_append fun value mem => Wire.recovers_value (also value mem)]
    at read
  exact (congrArg Prod.fst (Except.ok.inj read)).symm

/-- Rows with one key agree in its columns. -/
theorem Identifies.agree (has : table.Identifies row key) (also : table.Identifies old key)
    {column : String} (mem : column ∈ table.primaryKey) :
    old.getD column .null = row.getD column .null := by
  obtain ⟨values, keyed, fits, rfl⟩ := has
  obtain ⟨others, alsoKeyed, alsoFit, same⟩ := also
  obtain ⟨rfl, -⟩ := keyOf_eq_ok_iff.mp keyed
  obtain ⟨rfl, -⟩ := keyOf_eq_ok_iff.mp alsoKeyed
  have equal := eq_of_write alsoFit fits (by simp) same.symm
  exact List.map_eq_map_iff.mp equal column mem

/-! ### Tuples -/

theorem mem_valueColumns {column : String} :
    column ∈ table.valueColumns ↔ column ∈ table.columns ∧ column ∉ table.primaryKey := by
  simp [valueColumns]

theorem get?_resolve (table : ReferenceTable) (old offered : Row) (column : String) :
    ((Insertion.resolutionOf table).resolve old offered).get? column =
      if column ∈ table.valueColumns then some (offered.getD column .null)
      else old.get? column := by
  unfold Insertion.resolutionOf
  split
  · next none =>
      rw [none, if_neg List.not_mem_nil]
      rfl
  · next =>
      rw [Resolution.resolve, List.foldl_map]
      exact OrderedMap.get?_foldl_insert_keys _ _ _ _

/-- Where a key is taken, the tuple of the new row takes the place of the one of the old row. -/
theorem resolve_tuple (has : table.Identifies row key) (also : table.Identifies old key) :
    (Insertion.resolutionOf table).resolve (table.tuple old) (table.tuple row) =
      table.tuple row := by
  refine OrderedMap.ext_get? fun column => ?_
  rw [get?_resolve, OrderedMap.getD, get?_tuple, get?_tuple]
  by_cases named : column ∈ table.columns
  · by_cases ofKey : column ∈ table.primaryKey
    · have kept : column ∉ table.valueColumns := fun mem => (mem_valueColumns.mp mem).2 ofKey
      rw [if_neg kept, has.agree also ofKey]
    · rw [if_pos (mem_valueColumns.mpr ⟨named, ofKey⟩), if_pos named]
      rfl
  · have elsewhere : column ∉ table.valueColumns := fun mem => named (mem_valueColumns.mp mem).1
    rw [if_neg elsewhere, if_neg named, if_neg named]

/-- The values that are bound for a row make its tuple under its key. -/
theorem keyed?_rowValues (within : table.primaryKey ⊆ table.columns)
    (has : table.Identifies row key) (rows : KeyedRows) :
    (table.relation rows).keyed? (Upsert.rowValues table row) = some (key, table.tuple row) := by
  obtain ⟨values, keyed, -, rfl⟩ := has
  obtain ⟨rfl, some⟩ := keyOf_eq_ok_iff.mp keyed
  have paired : table.columns.zip (Upsert.rowValues table row) =
      table.columns.map fun column => (column, row.getD column .null) := by
    rw [Upsert.rowValues]
    nth_rewrite 1 [← List.map_id table.columns]
    exact List.zip_map'
  have ofKey : (table.primaryKey.map fun column => (table.tuple row).getD column .null) =
      table.primaryKey.map fun column => row.getD column .null := by
    refine List.map_congr_left fun column mem => ?_
    rw [OrderedMap.getD, get?_tuple, if_pos (within mem)]
    rfl
  have wide : (Upsert.rowValues table row).length = table.columns.length := by
    rw [Upsert.rowValues, List.length_map]
  unfold Relation.keyed? relation
  dsimp only
  rw [paired, ← tuple, ofKey]
  exact if_pos ⟨wide, some⟩

/-! ### Rows under their keys -/

/-- Every row has the key that it stands under. -/
def Holds (table : ReferenceTable) (rows : KeyedRows) : Prop :=
  ∀ key row, rows.get? key = some row → table.Identifies row key

variable {rows : KeyedRows} {entries : List (Bytes × Row)}

theorem Holds.insert (holds : table.Holds rows) (has : table.Identifies row key) :
    table.Holds (rows.insert key row) := by
  intro other found present
  rw [OrderedMap.get?_insert] at present
  split at present
  · next same =>
      cases present
      exact same ▸ has
  · exact holds other found present

theorem Holds.store (holds : table.Holds rows)
    (each : ∀ entry ∈ entries, table.Identifies entry.2 entry.1) :
    table.Holds (TableBook.store rows entries) := by
  induction entries generalizing rows with
  | nil => exact holds
  | cons entry rest ih =>
      obtain ⟨first, later⟩ := List.forall_mem_cons.mp each
      exact ih (holds.insert first) later

/-- Offering the tuple of a row does what writing the row does. -/
theorem offer_tuple (holds : table.Holds rows) (has : table.Identifies row key) :
    Relation.offer (Insertion.resolutionOf table) (table.relation rows).tuples
      (key, table.tuple row) = (table.relation (rows.insert key row)).tuples := by
  refine OrderedMap.ext_get? fun other => ?_
  simp only [Relation.offer, relation, OrderedMap.get?_insert, OrderedMap.get?_mapValues]
  by_cases same : other = key
  · rw [if_pos same, if_pos same]
    cases present : rows.get? key with
    | none => rfl
    | some old => exact congrArg some (resolve_tuple has (holds key old present))
  · rw [if_neg same, if_neg same]

theorem foldl_offer (holds : table.Holds rows)
    (each : ∀ entry ∈ entries, table.Identifies entry.2 entry.1) :
    (entries.map fun entry => (entry.1, table.tuple entry.2)).foldl
        (Relation.offer (Insertion.resolutionOf table)) (table.relation rows).tuples =
      (table.relation (TableBook.store rows entries)).tuples := by
  induction entries generalizing rows with
  | nil => rfl
  | cons entry rest ih =>
      obtain ⟨first, later⟩ := List.forall_mem_cons.mp each
      rw [List.map_cons, List.foldl_cons, offer_tuple holds first, ih (holds.insert first) later]
      rfl

/-! ### Statements -/

/-- Upserts of the table can be stated: it has a key in its columns, its names can be quoted, and
one statement may bind a number of rows. -/
structure Ready (table : ReferenceTable) (options : StatementOptions) (frame : Upsert.Frame)
    (size : Nat) : Prop where
  keyed : table.primaryKey ≠ []
  within : table.primaryKey ⊆ table.columns
  framed : Upsert.frame table = .ok frame
  admits : Upsert.rowsPerStatement options table = .ok size

theorem admits_ofTable (rows : KeyedRows) (style : PlaceholderStyle) (count : Nat) :
    (table.relation rows).Admits (Insertion.ofTable table style count) := by
  refine ⟨rfl, rfl, rfl, fun column mem => ?_⟩
  change column ∈ (Insertion.resolutionOf table).columns at mem
  unfold Insertion.resolutionOf at mem
  split at mem
  · cases mem
  · have listed : column ∈ table.valueColumns := by simpa [Resolution.columns] using mem
    exact (mem_valueColumns.mp listed).1

/-- A statement of an upsert does what writing the bound rows does. -/
theorem execute_chunkStatement {options : StatementOptions} {frame : Upsert.Frame} {size : Nat}
    (ready : table.Ready options frame size) (holds : table.Holds rows)
    (each : ∀ entry ∈ entries, table.Identifies entry.2 entry.1) (filled : entries ≠ [])
    (distinct : (entries.map Prod.fst).Nodup) :
    (table.relation rows).execute
        (Upsert.chunkStatement frame options.style table (entries.map Prod.snd)) =
      some (table.relation (TableBook.store rows entries)) := by
  have columned : table.columns ≠ [] := (Upsert.rowsPerStatement_eq_ok_iff.mp ready.admits).1
  have some : (entries.map Prod.snd).length ≠ 0 := by simpa using filled
  have tuples : ((entries.map Prod.snd).map (Upsert.rowValues table)).mapM
      (table.relation rows).keyed? =
        .some (entries.map fun entry => (entry.1, table.tuple entry.2)) := by
    rw [List.map_map, List.mapM_map]
    exact mapM_eq_some_map fun entry mem => keyed?_rowValues ready.within (each entry mem) rows
  have keys : (entries.map fun entry => (entry.1, table.tuple entry.2)).map Prod.fst =
      entries.map Prod.fst := by
    rw [List.map_map]
    rfl
  have text := Insertion.ofText_sql ready.framed ready.keyed columned options.style some
  have ran := Relation.execute_eq_some text (admits_ofTable rows options.style _)
    (Insertion.values?_ofTable options.style _) tuples (.inr (keys ▸ distinct))
  have resolution (count : Nat) :
      (Insertion.ofTable table options.style count).resolution = Insertion.resolutionOf table := rfl
  rw [resolution, foldl_offer holds each] at ran
  exact ran

end ReferenceTable

end ShardFleet
