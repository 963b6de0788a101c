import Mathlib.Data.List.Forall2
import ShardFleet.Proofs.Attempts
import ShardFleet.Proofs.OrderedMap
import ShardFleet.Schema.Catalog

/-!
How the rows of a catalog are grouped into tables.

A row names a table and describes a column of it (`Catalog.Describes`), unless it is malformed.
Rows are taken in one after the other, and what has been read of each table at any time is what the
rows describe that name it (`Catalog.Groups`). So reading succeeds exactly if no row is malformed,
and the tables that are read are determined by the rows, table by table
(`Catalog.parse_eq_ok_iff`, `Catalog.Regroups.unique`). Whatever the order in which tables take
turns, rows that list some tables are read as these tables (`Catalog.parse_regroups`).
-/

namespace ShardFleet

namespace Catalog

variable {catalog : Catalog} {shard : ShardId} {row : Row} {rows others : List Row} {table : String}
  {column : ColumnSchema}

/-! ### Rows -/

/-- The text of a row in a column of the catalog. -/
def text? (row : Row) (column : String) : Option String := (row.get? column).bind Value.text?

/-- The flag of a row in a column of the catalog. -/
def flag? (row : Row) (column : String) : Option Bool := (row.get? column).bind Value.bool?

/-- The table that a row names. -/
def table? (row : Row) : Option String := text? row "table_name"

/-- The rows that name a table, in their order. -/
def rowsOf (table : String) (rows : List Row) : List Row := rows.filter (table? · = some table)

/-- The row describes the column. -/
structure Describes (row : Row) (column : ColumnSchema) : Prop where
  name : text? row "column_name" = some column.name
  dataType : text? row "data_type" = some column.dataType
  nullable : flag? row "is_nullable" = some column.nullable
  default : text? row "column_default" = column.default

/-- The row names no table, or it names one that counts and describes no column. -/
def Malformed (catalog : Catalog) (row : Row) : Prop :=
  table? row = none ∨ ∃ table, table? row = some table ∧ table ∉ catalog.excluded ∧
    (text? row "column_name" = none ∨ text? row "data_type" = none ∨
      flag? row "is_nullable" = none)

theorem Describes.unique {other : ColumnSchema} (first : Describes row column)
    (second : Describes row other) : column = other := by
  obtain ⟨_, _, _, _⟩ := column
  obtain ⟨_, _, _, _⟩ := other
  obtain ⟨name, dataType, nullable, default⟩ := first
  obtain ⟨alsoName, alsoDataType, alsoNullable, alsoDefault⟩ := second
  obtain rfl := Option.some.inj (name.symm.trans alsoName)
  obtain rfl := Option.some.inj (dataType.symm.trans alsoDataType)
  obtain rfl := Option.some.inj (nullable.symm.trans alsoNullable)
  obtain rfl := default.symm.trans alsoDefault
  rfl

/-- Rows describe columns in one way. -/
theorem describes_unique {columns alsoColumns : List ColumnSchema}
    (first : List.Forall₂ Describes rows columns)
    (second : List.Forall₂ Describes rows alsoColumns) : columns = alsoColumns := by
  induction first generalizing alsoColumns with
  | nil => exact (List.forall₂_nil_left_iff.mp second).symm
  | cons here _ ih =>
      obtain ⟨_, _, also, later, rfl⟩ := List.forall₂_cons_left_iff.mp second
      rw [here.unique also, ih later]

theorem textOf_eq (shard : ShardId) (row : Row) (column : String) :
    textOf shard row column = (text? row column).elim (.error (malformed shard column)) .ok := by
  unfold textOf text?
  cases (row.get? column).bind Value.text? <;> rfl

theorem flagOf_eq (shard : ShardId) (row : Row) (column : String) :
    flagOf shard row column = (flag? row column).elim (.error (malformed shard column)) .ok := by
  unfold flagOf flag?
  cases (row.get? column).bind Value.bool? <;> rfl

/-- A row that names a table that counts is read as the column that it describes. -/
theorem columnOf_cases (shard : ShardId) (row : Row) :
    (∃ column, Describes row column ∧ columnOf shard row = .ok column) ∨
      (text? row "column_name" = none ∨ text? row "data_type" = none ∨
        flag? row "is_nullable" = none) ∧
      ∃ missing, columnOf shard row = .error (malformed shard missing) := by
  unfold columnOf
  rw [flagOf_eq, textOf_eq, textOf_eq]
  cases nullable : flag? row "is_nullable" with
  | none => exact .inr ⟨.inr (.inr rfl), _, rfl⟩
  | some nullable =>
      cases name : text? row "column_name" with
      | none => exact .inr ⟨.inl rfl, _, rfl⟩
      | some name =>
          cases dataType : text? row "data_type" with
          | none => exact .inr ⟨.inr (.inl rfl), _, rfl⟩
          | some dataType => exact .inl ⟨_, ⟨‹_›, ‹_›, ‹_›, rfl⟩, rfl⟩

theorem not_malformed (named : table? row = some table) (described : Describes row column) :
    ¬ Malformed catalog row := by
  rintro (unnamed | ⟨_, _, _, missing⟩)
  · exact nomatch named.symm.trans unnamed
  · obtain none' | none' | none' := missing
    · exact nomatch described.name.symm.trans none'
    · exact nomatch described.dataType.symm.trans none'
    · exact nomatch described.nullable.symm.trans none'

/-- What taking in a row comes to. -/
theorem addRow_cases (catalog : Catalog) (shard : ShardId)
    (tables : OrderedMap String (List ColumnSchema)) (row : Row) :
    (Malformed catalog row ∧
      ∃ missing, catalog.addRow shard tables row = .error (malformed shard missing)) ∨
      ¬ Malformed catalog row ∧ ∃ table, table? row = some table ∧
        (table ∈ catalog.excluded ∧ catalog.addRow shard tables row = .ok tables ∨
          table ∉ catalog.excluded ∧ ∃ column, Describes row column ∧
            catalog.addRow shard tables row = .ok (tables.alter table [] (· ++ [column]))) := by
  unfold addRow
  rw [textOf_eq]
  cases named : text? row "table_name" with
  | none => exact .inl ⟨.inl named, _, rfl⟩
  | some table =>
      by_cases left : table ∈ catalog.excluded
      · refine .inr ⟨?_, table, named, .inl ⟨left, if_pos left⟩⟩
        rintro (unnamed | ⟨other, alsoNamed, counts, -⟩)
        · exact nomatch named.symm.trans unnamed
        · exact counts (Option.some.inj (named.symm.trans alsoNamed) ▸ left)
      · obtain ⟨column, described, read⟩ | ⟨lacking, missing, off⟩ := columnOf_cases shard row
        · refine .inr ⟨not_malformed named described, table, named, .inr ?_⟩
          refine ⟨left, column, described, ?_⟩
          exact (if_neg left).trans (by rw [read]; rfl)
        · refine .inl ⟨.inr ⟨table, named, left, lacking⟩, missing, ?_⟩
          exact (if_neg left).trans (by rw [off]; rfl)

/-! ### Rows one after the other -/

/-- What has been read of each table is what the rows describe that name it. -/
structure Groups (catalog : Catalog) (rows : List Row)
    (tables : OrderedMap String (List ColumnSchema)) : Prop where
  described : ∀ table ∉ catalog.excluded,
    List.Forall₂ Describes (rowsOf table rows) (tables.getD table [])
  counted : ∀ table columns, tables.get? table = some columns →
    table ∉ catalog.excluded ∧ columns ≠ []

theorem Groups.empty (catalog : Catalog) : Groups catalog [] .empty :=
  ⟨fun _ _ => .nil, nofun⟩

theorem rowsOf_append (table : String) (rows : List Row) (row : Row) :
    rowsOf table (rows ++ [row]) =
      rowsOf table rows ++ if table? row = some table then [row] else [] := by
  rw [rowsOf, List.filter_append, List.filter_singleton]
  split <;> simp_all [rowsOf]

/-- A row of a table that does not count changes nothing. -/
theorem Groups.skip {tables : OrderedMap String (List ColumnSchema)}
    (groups : Groups catalog rows tables) (named : table? row = some table)
    (left : table ∈ catalog.excluded) : Groups catalog (rows ++ [row]) tables := by
  refine ⟨fun other counts => ?_, groups.counted⟩
  have different : table? row ≠ some other := by
    intro same
    exact counts (Option.some.inj (named.symm.trans same) ▸ left)
  rw [rowsOf_append, if_neg different, List.append_nil]
  exact groups.described other counts

/-- A row adds the column that it describes to the table that it names. -/
theorem Groups.add {tables : OrderedMap String (List ColumnSchema)}
    (groups : Groups catalog rows tables) (named : table? row = some table)
    (counts : table ∉ catalog.excluded) (described : Describes row column) :
    Groups catalog (rows ++ [row]) (tables.alter table [] (· ++ [column])) := by
  refine ⟨fun other others => ?_, fun other columns found => ?_⟩
  · rw [rowsOf_append, OrderedMap.getD_alter]
    by_cases same : other = table
    · subst same
      rw [if_pos named, if_pos rfl]
      exact List.rel_append (groups.described other counts) (.cons described .nil)
    · have different : table? row ≠ some other :=
        fun also => same (Option.some.inj (also.symm.trans named))
      rw [if_neg different, if_neg same, List.append_nil]
      exact groups.described other others
  · rw [OrderedMap.alter, OrderedMap.get?_insert] at found
    split at found
    · next same =>
        cases found
        exact ⟨same ▸ counts, by simp⟩
    · exact groups.counted other columns found

/-- Rows are all taken in unless one of them is malformed. -/
theorem foldlM_addRow_cases (shard : ShardId) {before : List Row}
    {tables : OrderedMap String (List ColumnSchema)} (groups : Groups catalog before tables)
    (rows : List Row) :
    ((∃ row ∈ rows, Malformed catalog row) ∧
      ∃ missing, rows.foldlM (catalog.addRow shard) tables = .error (malformed shard missing)) ∨
      (∀ row ∈ rows, ¬ Malformed catalog row) ∧
        ∃ after, rows.foldlM (catalog.addRow shard) tables = .ok after ∧
          Groups catalog (before ++ rows) after := by
  induction rows generalizing before tables with
  | nil => exact .inr ⟨nofun, tables, rfl, by simpa using groups⟩
  | cons row rest ih =>
      rw [List.foldlM_cons]
      obtain ⟨bad, missing, off⟩ | ⟨good, table, named, here⟩ :=
        addRow_cases catalog shard tables row
      · exact .inl ⟨⟨row, List.mem_cons_self, bad⟩, missing, by rw [off]; rfl⟩
      · obtain ⟨next, taken, also⟩ : ∃ next, catalog.addRow shard tables row = .ok next ∧
            Groups catalog (before ++ [row]) next := by
          obtain ⟨left, taken⟩ | ⟨counts, column, described, taken⟩ := here
          · exact ⟨tables, taken, groups.skip named left⟩
          · exact ⟨_, taken, groups.add named counts described⟩
        have onward : ∀ result, rest.foldlM (catalog.addRow shard) next = result →
            (catalog.addRow shard tables row >>= fun next =>
              rest.foldlM (catalog.addRow shard) next) = result := by
          rintro _ rfl
          rw [taken]
          rfl
        obtain ⟨⟨other, mem, bad⟩, missing, off⟩ | ⟨later, after, ended, all⟩ := ih also
        · exact .inl ⟨⟨other, List.mem_cons_of_mem _ mem, bad⟩, missing, onward _ off⟩
        · refine .inr ⟨List.forall_mem_cons.mpr ⟨good, later⟩, after, onward _ ended, ?_⟩
          rwa [List.append_assoc] at all

/-! ### Tables -/

/-- The tables are those that the rows name and that count, in order of their names, and each has
the columns that its rows describe, in the order of these. -/
structure Regroups (catalog : Catalog) (rows : List Row) (tables : List TableSchema) : Prop where
  ascending : tables.Pairwise fun a b => compare a.name b.name = .lt
  named : ∀ name, name ∈ tables.map TableSchema.name ↔
    name ∉ catalog.excluded ∧ ∃ row ∈ rows, table? row = some name
  described : ∀ table ∈ tables, List.Forall₂ Describes (rowsOf table.name rows) table.columns

theorem rowsOf_eq_nil_iff :
    rowsOf table rows = [] ↔ ¬ ∃ row ∈ rows, table? row = some table := by
  simp [rowsOf, List.filter_eq_nil_iff]

theorem Regroups.mem_of_mem {tables alsoTables : List TableSchema} {table : TableSchema}
    (first : Regroups catalog rows tables) (second : Regroups catalog rows alsoTables)
    (mem : table ∈ tables) : table ∈ alsoTables := by
  have known := (first.named _).mp (List.mem_map_of_mem mem)
  obtain ⟨other, also, same⟩ := List.mem_map.mp ((second.named _).mpr known)
  have columns : other.columns = table.columns :=
    describes_unique (second.described other also) (same ▸ first.described table mem)
  have whole : other = table := by
    cases other
    cases table
    simp_all
  exact whole ▸ also

/-- Rows regroup in one way. -/
theorem Regroups.unique {tables alsoTables : List TableSchema}
    (first : Regroups catalog rows tables) (second : Regroups catalog rows alsoTables) :
    tables = alsoTables :=
  eq_of_ascending TableSchema.name first.ascending second.ascending fun _ =>
    ⟨first.mem_of_mem second, second.mem_of_mem first⟩

theorem Groups.regroups {tables : OrderedMap String (List ColumnSchema)}
    (groups : Groups catalog rows tables) :
    Regroups catalog rows (tables.entries.map fun entry => ⟨entry.1, entry.2⟩) := by
  refine ⟨List.pairwise_map.mpr tables.ascending, fun name => ?_, fun table mem => ?_⟩
  · rw [List.map_map]
    constructor
    · intro mem
      obtain ⟨⟨other, columns⟩, also, same⟩ := List.mem_map.mp mem
      obtain rfl : other = name := same
      have found := OrderedMap.mem_entries.mp also
      obtain ⟨counts, some'⟩ := groups.counted _ _ found
      refine ⟨counts, by_contra fun none' => some' ?_⟩
      have described := groups.described _ counts
      rw [OrderedMap.getD, found, rowsOf_eq_nil_iff.mpr none'] at described
      exact List.forall₂_nil_left_iff.mp described
    · rintro ⟨counts, known⟩
      cases found : tables.get? name with
      | some columns => exact List.mem_map_of_mem (OrderedMap.mem_entries.mpr found)
      | none =>
          have described := groups.described name counts
          rw [OrderedMap.getD, found] at described
          exact absurd known (rowsOf_eq_nil_iff.mp (List.forall₂_nil_right_iff.mp described))
  · obtain ⟨⟨name, columns⟩, also, rfl⟩ := List.mem_map.mp mem
    have found := OrderedMap.mem_entries.mp also
    have described := groups.described name (groups.counted _ _ found).1
    rwa [OrderedMap.getD, found] at described

theorem new_of_ascending {tables : List TableSchema}
    (ascending : tables.Pairwise fun a b => compare a.name b.name = .lt) (shard : ShardId) :
    ShardSchema.new shard tables = ⟨shard, tables⟩ := by
  rw [ShardSchema.new, List.mergeSort_of_pairwise]
  refine ascending.imp ?_
  intro a b below
  rw [below]
  rfl

/-- Rows are read unless one of them is malformed, and they are read as what they regroup to. -/
theorem parse_cases (catalog : Catalog) (shard : ShardId) (rows : List Row) :
    ((∃ row ∈ rows, Malformed catalog row) ∧
      ∃ missing, catalog.parse shard rows = .error (malformed shard missing)) ∨
      (∀ row ∈ rows, ¬ Malformed catalog row) ∧
        ∃ tables, catalog.parse shard rows = .ok ⟨shard, tables⟩ ∧
          Regroups catalog rows tables := by
  unfold parse
  obtain ⟨bad, missing, off⟩ | ⟨good, tables, ended, groups⟩ :=
    foldlM_addRow_cases shard (Groups.empty catalog) rows
  · exact .inl ⟨bad, missing, by rw [off]; rfl⟩
  · have regroups := groups.regroups
    refine .inr ⟨good, _, ?_, regroups⟩
    rw [ended]
    exact congrArg Except.ok (new_of_ascending regroups.ascending shard)

theorem parse_eq_ok_iff {schema : ShardSchema} :
    catalog.parse shard rows = .ok schema ↔
      (∀ row ∈ rows, ¬ Malformed catalog row) ∧ schema.shard = shard ∧
        Regroups catalog rows schema.tables := by
  obtain ⟨⟨row, mem, bad⟩, missing, off⟩ | ⟨good, tables, read, regroups⟩ :=
    parse_cases catalog shard rows
  · rw [off]
    exact ⟨nofun, fun ⟨good, _⟩ => absurd bad (good row mem)⟩
  · rw [read]
    constructor
    · intro same
      cases same
      exact ⟨good, rfl, regroups⟩
    · rintro ⟨-, rfl, also⟩
      obtain ⟨shard, others⟩ := schema
      rw [regroups.unique also]

/-! ### Rows in another order -/

/-- The same rows in an order in which those of any one table stand as before. -/
structure Reorders (rows others : List Row) : Prop where
  perm : rows.Perm others
  kept : ∀ table, rowsOf table rows = rowsOf table others

theorem Regroups.reorders {tables : List TableSchema} (regroups : Regroups catalog rows tables)
    (reorders : Reorders rows others) : Regroups catalog others tables := by
  refine ⟨regroups.ascending, fun name => ?_, fun table mem => ?_⟩
  · rw [regroups.named, exists_congr fun row => and_congr_left fun _ => reorders.perm.mem_iff]
  · exact reorders.kept table.name ▸ regroups.described table mem

theorem parse_reorders (reorders : Reorders rows others) :
    (catalog.parse shard others).toOption = (catalog.parse shard rows).toOption := by
  obtain ⟨⟨row, mem, bad⟩, missing, off⟩ | ⟨good, tables, read, regroups⟩ :=
    parse_cases catalog shard rows
  · obtain ⟨_, alsoMissing, alsoOff⟩ | ⟨good, _⟩ := parse_cases catalog shard others
    · rw [off, alsoOff]
      rfl
    · exact absurd bad (good row (reorders.perm.mem_iff.mp mem))
  · have also : catalog.parse shard others = .ok ⟨shard, tables⟩ :=
      parse_eq_ok_iff.mpr ⟨fun row mem => good row (reorders.perm.mem_iff.mpr mem), rfl,
        regroups.reorders reorders⟩
    rw [read, also]

/-! ### Rows of given tables -/

/-- What a catalog has on a column of a table. -/
def cellsFor (table : String) (column : ColumnSchema) : List (String × Value) :=
  [("table_name", .text table), ("column_name", .text column.name),
    ("data_type", .text column.dataType),
    ("is_nullable", .text (if column.nullable then "YES" else "NO")),
    ("column_default", column.default.elim .null .text)]

/-- The row that a catalog has for a column of a table. -/
def rowFor (table : String) (column : ColumnSchema) : Row := .ofList (cellsFor table column)

/-- The rows that a catalog has for a table. -/
def rowsFor (table : TableSchema) : List Row := table.columns.map (rowFor table.name)

theorem get?_rowFor {key : String} {value : Value} (mem : (key, value) ∈ cellsFor table column) :
    (rowFor table column).get? key = some value := by
  have keys : (cellsFor table column).map Prod.fst =
      ["table_name", "column_name", "data_type", "is_nullable", "column_default"] := rfl
  exact (OrderedMap.get?_ofList_eq_some_iff (keys ▸ by decide)).mpr mem

theorem text?_rowFor {key text : String} (mem : (key, .text text) ∈ cellsFor table column) :
    text? (rowFor table column) key = some text := by
  rw [text?, get?_rowFor mem]
  rfl

theorem table?_rowFor (table : String) (column : ColumnSchema) :
    table? (rowFor table column) = some table :=
  text?_rowFor (by simp [cellsFor])

theorem bool?_yes : Value.bool? (.text "YES") = some true := by decide +kernel

theorem bool?_no : Value.bool? (.text "NO") = some false := by decide +kernel

theorem flag?_rowFor (table : String) (column : ColumnSchema) :
    flag? (rowFor table column) "is_nullable" = some column.nullable := by
  have held : (rowFor table column).get? "is_nullable" =
      some (.text (if column.nullable then "YES" else "NO")) :=
    get?_rowFor (by simp [cellsFor])
  rw [flag?, held]
  cases column.nullable
  · exact bool?_no
  · exact bool?_yes

theorem default_rowFor (table : String) (column : ColumnSchema) :
    text? (rowFor table column) "column_default" = column.default := by
  have held : (rowFor table column).get? "column_default" =
      some (column.default.elim .null .text) :=
    get?_rowFor (by simp [cellsFor])
  rw [text?, held]
  cases column.default <;> rfl

/-- A row of a column tells all that is kept of it. -/
theorem describes_rowFor (table : String) (column : ColumnSchema) :
    Describes (rowFor table column) column :=
  ⟨text?_rowFor (by simp [cellsFor]), text?_rowFor (by simp [cellsFor]), flag?_rowFor table column,
    default_rowFor table column⟩

theorem rowsOf_rowsFor (name : String) (table : TableSchema) :
    rowsOf name (rowsFor table) = if table.name = name then rowsFor table else [] := by
  split
  · next same =>
      refine List.filter_eq_self.mpr fun row mem => ?_
      obtain ⟨column, -, rfl⟩ := List.mem_map.mp mem
      exact decide_eq_true (same ▸ table?_rowFor _ column)
  · next different =>
      refine List.filter_eq_nil_iff.mpr fun row mem => ?_
      obtain ⟨column, -, rfl⟩ := List.mem_map.mp mem
      simpa [table?_rowFor] using different

/-- Of tables with distinct names each is described by its own rows alone. -/
theorem rowsOf_flatMap_rowsFor {tables : List TableSchema} {table : TableSchema}
    (distinct : (tables.map TableSchema.name).Nodup) (mem : table ∈ tables) :
    rowsOf table.name (tables.flatMap rowsFor) = rowsFor table := by
  have other {rest : List TableSchema} (absent : table.name ∉ rest.map TableSchema.name) :
      rowsOf table.name (rest.flatMap rowsFor) = [] := by
    rw [rowsOf_eq_nil_iff]
    rintro ⟨row, listed, named⟩
    obtain ⟨next, also, held⟩ := List.mem_flatMap.mp listed
    obtain ⟨column, -, rfl⟩ := List.mem_map.mp held
    rw [table?_rowFor] at named
    exact absent (Option.some.inj named ▸ List.mem_map_of_mem also)
  induction tables with
  | nil => cases mem
  | cons first rest ih =>
      obtain ⟨apart, restDistinct⟩ := List.nodup_cons.mp distinct
      rw [List.flatMap_cons, rowsOf, List.filter_append, ← rowsOf, ← rowsOf, rowsOf_rowsFor]
      obtain rfl | later := List.mem_cons.mp mem
      · rw [if_pos rfl, other apart, List.append_nil]
      · have different : first.name ≠ table.name :=
          fun same => apart (same ▸ List.mem_map_of_mem later)
        rw [if_neg different, ih restDistinct later]
        rfl

/-- Tables in order are what their own rows regroup to. -/
theorem regroups_rowsFor {tables sorted : List TableSchema}
    (distinct : (tables.map TableSchema.name).Nodup)
    (count : ∀ table ∈ tables, table.name ∉ catalog.excluded ∧ table.columns ≠ [])
    (perm : sorted.Perm tables)
    (ascending : sorted.Pairwise fun a b => compare a.name b.name = .lt) :
    Regroups catalog (tables.flatMap rowsFor) sorted := by
  refine ⟨ascending, fun name => ?_, fun table mem => ?_⟩
  · rw [(perm.map _).mem_iff, List.mem_map]
    constructor
    · rintro ⟨table, mem, rfl⟩
      obtain ⟨counts, filled⟩ := count table mem
      obtain ⟨column, held⟩ := List.exists_mem_of_ne_nil _ filled
      exact ⟨counts, rowFor table.name column,
        List.mem_flatMap.mpr ⟨table, mem, List.mem_map_of_mem held⟩, table?_rowFor _ _⟩
    · rintro ⟨-, row, listed, named⟩
      obtain ⟨table, mem, held⟩ := List.mem_flatMap.mp listed
      obtain ⟨column, -, rfl⟩ := List.mem_map.mp held
      exact ⟨table, mem, Option.some.inj ((table?_rowFor _ _).symm.trans named)⟩
  · rw [rowsOf_flatMap_rowsFor distinct (perm.mem_iff.mp mem), rowsFor,
      List.forall₂_map_left_iff]
    exact List.forall₂_same.mpr fun column _ => describes_rowFor table.name column

theorem not_malformed_rowsFor {tables : List TableSchema} :
    ∀ row ∈ tables.flatMap rowsFor, ¬ Malformed catalog row := by
  intro row listed
  obtain ⟨table, -, held⟩ := List.mem_flatMap.mp listed
  obtain ⟨column, -, rfl⟩ := List.mem_map.mp held
  exact not_malformed (table?_rowFor _ _) (describes_rowFor _ _)

theorem exists_ascending {tables : List TableSchema}
    (distinct : (tables.map TableSchema.name).Nodup) :
    ∃ sorted : List TableSchema, sorted.Perm tables ∧
      sorted.Pairwise fun a b => compare a.name b.name = .lt := by
  have perm := List.mergeSort_perm tables fun a b => (compare a.name b.name).isLE
  refine ⟨_, perm, List.pairwise_map.mp (pairwise_lt_of_nodup ?_ ?_)⟩
  · exact List.pairwise_map.mpr (pairwise_sortBy TableSchema.name tables)
  · exact (perm.map TableSchema.name).nodup_iff.mpr distinct

/-- Catalog rows regroup into the schema. Reading fails exactly on malformed rows. Otherwise what
is read are the tables that count and that rows name, in order of their names, each with the
columns of its rows in the order of these. The order in which tables take turns does not matter,
so the rows of tables are in any such order read as these tables. -/
theorem parse_regroups (catalog : Catalog) (shard : ShardId) (rows : List Row) :
    ((∃ reason, catalog.parse shard rows = .error (.schemaComparisonFailed shard reason)) ↔
      ∃ row ∈ rows, Malformed catalog row) ∧
    ((∀ row ∈ rows, ¬ Malformed catalog row) →
      ∃ tables, catalog.parse shard rows = .ok ⟨shard, tables⟩ ∧
        Regroups catalog rows tables) ∧
    (∀ others, Reorders rows others →
      (catalog.parse shard others).toOption = (catalog.parse shard rows).toOption) ∧
    ∀ tables : List TableSchema, (tables.map TableSchema.name).Nodup →
      (∀ table ∈ tables, table.name ∉ catalog.excluded ∧ table.columns ≠ []) →
      ∀ listed, Reorders (tables.flatMap rowsFor) listed →
        ∃ sorted, catalog.parse shard listed = .ok ⟨shard, sorted⟩ ∧ sorted.Perm tables ∧
          sorted.Pairwise fun a b => compare a.name b.name = .lt := by
  refine ⟨?_, ?_, fun others => parse_reorders, ?_⟩
  · obtain ⟨bad, missing, off⟩ | ⟨good, tables, read, -⟩ := parse_cases catalog shard rows
    · exact ⟨fun _ => bad, fun _ => ⟨_, off⟩⟩
    · rw [read]
      exact ⟨nofun, fun ⟨row, mem, bad⟩ => absurd bad (good row mem)⟩
  · intro good
    obtain ⟨⟨row, mem, bad⟩, -⟩ | ⟨-, read⟩ := parse_cases catalog shard rows
    · exact absurd bad (good row mem)
    · exact read
  · intro tables distinct count listed reorders
    obtain ⟨sorted, perm, ascending⟩ := exists_ascending distinct
    refine ⟨sorted, parse_eq_ok_iff.mpr ⟨fun row mem => ?_, rfl, ?_⟩, perm, ascending⟩
    · exact not_malformed_rowsFor row (reorders.perm.mem_iff.mpr mem)
    · exact (regroups_rowsFor distinct count perm ascending).reorders reorders

/-- The rows of a table come before and after a row of another. -/
theorem parse_regroups_interleaved :
    let id : ColumnSchema := ⟨"id", "bigint", false, none⟩
    let email : ColumnSchema := ⟨"email", "text", true, some "''"⟩
    let listed := [rowFor "users" id, rowFor "orders" id, rowFor "users" email]
    Reorders ([⟨"users", [id, email]⟩, ⟨"orders", [id]⟩].flatMap rowsFor) listed ∧
      ∃ sorted, parse {} ⟨"s0"⟩ listed = .ok ⟨⟨"s0"⟩, sorted⟩ ∧
        sorted.Perm [⟨"users", [id, email]⟩, ⟨"orders", [id]⟩] ∧
        sorted.Pairwise fun a b => compare a.name b.name = .lt := by
  intro id email listed
  have reorders : Reorders ([⟨"users", [id, email]⟩, ⟨"orders", [id]⟩].flatMap rowsFor) listed := by
    refine ⟨.cons _ (.swap _ _ _), fun table => ?_⟩
    by_cases users : "users" = table
    · simp [rowsOf, rowsFor, listed, table?_rowFor, ← users]
    · simp [rowsOf, rowsFor, listed, List.filter_cons, table?_rowFor, users]
  exact ⟨reorders, (parse_regroups {} ⟨"s0"⟩ listed).2.2.2 _ (by decide +kernel) (by decide +kernel)
    listed reorders⟩

end Catalog

end ShardFleet
