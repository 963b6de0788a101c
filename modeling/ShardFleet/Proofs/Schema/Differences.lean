import Mathlib.Data.List.Forall2
import ShardFleet.Proofs.Ascending
import ShardFleet.Schema.Diff

/-!
What the differences of two schemas tell.

Where the tables of a schema have distinct names, and so have the columns of each table, the
differences list what only one side has and what both have and define differently, each once, and
nothing else (`SchemaDiff.between_tells`). Differences that tell the same agree up to order
(`SchemaDiff.Tells.agrees`), so neither the order of tables and columns nor the direction of the
comparison matters, but for which side is which (`SchemaDiff.between_exact`).
-/

namespace ShardFleet

/-! ### Types up to case -/

/-- The letters differ in nothing but case, and this only within the ASCII alphabet. -/
def SameLetter (a b : Char) : Prop :=
  a = b ∨ (a.isUpper ∧ b.toNat = a.toNat + 32) ∨ (b.isUpper ∧ a.toNat = b.toNat + 32)

/-- The texts differ in nothing but the case of ASCII letters. -/
def SameText (a b : String) : Prop := List.Forall₂ SameLetter a.toList b.toList

theorem isUpper_iff (c : Char) : c.isUpper ↔ 65 ≤ c.toNat ∧ c.toNat ≤ 90 := by
  have bounds : c.isUpper = decide (c.val ≥ 65 ∧ c.val ≤ 90) := rfl
  simp only [bounds, decide_eq_true_eq, ge_iff_le, UInt32.le_iff_toNat_le]
  rfl

theorem toNat_toLower (c : Char) :
    c.toLower.toNat = if c.isUpper then c.toNat + 32 else c.toNat := by
  by_cases upper : c.isUpper
  · have small : c.val.toNat ≤ 90 := ((isUpper_iff c).mp upper).2
    have lower : c.toLower = ⟨c.val + ('a'.val - 'A'.val), _⟩ := dif_pos (of_decide_eq_true upper)
    rw [if_pos upper, lower, Char.toNat, UInt32.toNat_add]
    exact Nat.mod_eq_of_lt (show c.val.toNat + 32 < 2 ^ 32 by omega)
  · have lower : c.toLower = c := dif_neg fun also => upper (decide_eq_true also)
    rw [if_neg upper, lower]

theorem toLower_eq_toLower_iff {a b : Char} : a.toLower = b.toLower ↔ SameLetter a b := by
  simp only [SameLetter, ← Char.toNat_inj, toNat_toLower, isUpper_iff]
  split <;> split <;> omega

theorem toLower_eq_toLower_iff_sameText {a b : String} : a.toLower = b.toLower ↔ SameText a b := by
  have maps (s : String) : s.toLower = s.map Char.toLower := rfl
  rw [← String.toList_inj, maps, maps, String.toList_map, String.toList_map,
    ← List.forall₂_eq_eq_eq, List.forall₂_map_left_iff, List.forall₂_map_right_iff]
  simp only [toLower_eq_toLower_iff, SameText]

/-! ### What schemas have -/

/-- The definitions differ: in type, but for the case of letters, or in whether null is a value. -/
def ColumnSchema.Differ (a b : ColumnSchema) : Prop :=
  ¬ SameText a.dataType b.dataType ∨ a.nullable ≠ b.nullable

namespace ColumnSchema

variable {a b c : ColumnSchema}

theorem not_differ_iff :
    ¬ a.Differ b ↔ a.dataType.toLower = b.dataType.toLower ∧ a.nullable = b.nullable := by
  rw [Differ, not_or, not_not, not_not, toLower_eq_toLower_iff_sameText]

theorem differ_comm : a.Differ b ↔ b.Differ a := by
  rw [← not_iff_not, not_differ_iff, not_differ_iff, eq_comm, eq_comm (a := a.nullable)]

theorem alike_iff : a.alike b = true ↔ ¬ b.Differ a := by
  rw [differ_comm, not_differ_iff, alike, Bool.and_eq_true, decide_eq_true_eq, decide_eq_true_eq]

theorem not_differ_self : ¬ a.Differ a := not_differ_iff.mpr ⟨rfl, rfl⟩

theorem not_differ_trans (first : ¬ a.Differ b) (second : ¬ b.Differ c) : ¬ a.Differ c := by
  rw [not_differ_iff] at first second ⊢
  exact ⟨first.1.trans second.1, first.2.trans second.2⟩

end ColumnSchema

namespace ShardSchema

variable {schema other shard baseline : ShardSchema}

/-- The names of the tables. -/
def names (schema : ShardSchema) : List String := schema.tables.map TableSchema.name

/-- The schema has the column in the table. -/
def Has (schema : ShardSchema) (table : String) (column : ColumnSchema) : Prop :=
  ∃ held ∈ schema.tables, held.name = table ∧ column ∈ held.columns

/-- The schema has a column of the name in the table. -/
def Names (schema : ShardSchema) (table column : String) : Prop :=
  ∃ held, schema.Has table held ∧ held.name = column

/-- Tables have distinct names, and so have the columns of a table. -/
structure WellNamed (schema : ShardSchema) : Prop where
  tables : schema.names.Nodup
  columns : ∀ table ∈ schema.tables, (table.columns.map ColumnSchema.name).Nodup

variable {table held : TableSchema} {name : String} {column alsoColumn : ColumnSchema}

theorem WellNamed.table?_eq_some_iff (named : schema.WellNamed) :
    schema.table? name = some table ↔ table ∈ schema.tables ∧ table.name = name :=
  find?_key_eq_some_iff named.tables

theorem WellNamed.has_iff (named : schema.WellNamed) (mem : table ∈ schema.tables) :
    schema.Has table.name column ↔ column ∈ table.columns := by
  refine ⟨?_, fun held => ⟨table, mem, rfl, held⟩⟩
  rintro ⟨other, also, same, held⟩
  exact List.inj_on_of_nodup_map named.tables also mem same ▸ held

theorem WellNamed.names_iff (named : schema.WellNamed) (mem : table ∈ schema.tables) :
    schema.Names table.name name ↔ name ∈ table.columns.map ColumnSchema.name := by
  rw [Names, List.mem_map]
  exact exists_congr fun column => and_congr_left fun _ => named.has_iff mem

theorem Names.mem_names {column : String} (held : schema.Names name column) :
    name ∈ schema.names := by
  obtain ⟨_, ⟨table, mem, rfl, -⟩, -⟩ := held
  exact List.mem_map_of_mem mem

/-- A table has one column of a name. -/
theorem WellNamed.has_unique (named : schema.WellNamed) (first : schema.Has name column)
    (second : schema.Has name alsoColumn) (same : column.name = alsoColumn.name) :
    column = alsoColumn := by
  obtain ⟨held, mem, rfl, here⟩ := first
  exact List.inj_on_of_nodup_map (named.columns held mem) here ((named.has_iff mem).mp second) same

/-- The schema with its tables, and the columns of each, in another order. -/
structure Rearranges (schema other : ShardSchema) : Prop where
  shard : schema.shard = other.shard
  tables : ∃ between, schema.tables.Perm between ∧ List.Forall₂ (fun table later =>
    table.name = later.name ∧ table.columns.Perm later.columns) between other.tables

/-- Some table of the one schema is so if and only if some table of the other is. -/
theorem Rearranges.exists_iff {so : TableSchema → Prop} (rearranges : schema.Rearranges other)
    (each : ∀ table later : TableSchema, table.name = later.name →
      table.columns.Perm later.columns → (so table ↔ so later)) :
    (∃ table ∈ schema.tables, so table) ↔ ∃ table ∈ other.tables, so table := by
  obtain ⟨-, between, perm, along⟩ := rearranges
  rw [exists_congr fun table => and_congr_left fun _ => perm.mem_iff]
  generalize other.tables = later at along
  clear perm
  induction along with
  | nil => rfl
  | cons here _ ih =>
      rw [List.exists_mem_cons_iff, List.exists_mem_cons_iff, each _ _ here.1 here.2, ih]

theorem Rearranges.mem_names_iff (rearranges : schema.Rearranges other) :
    name ∈ schema.names ↔ name ∈ other.names := by
  rw [names, names, List.mem_map, List.mem_map]
  exact rearranges.exists_iff fun _ _ same _ => same ▸ .rfl

theorem Rearranges.has_iff (rearranges : schema.Rearranges other) :
    schema.Has name column ↔ other.Has name column :=
  rearranges.exists_iff fun _ _ same perm => and_congr (same ▸ .rfl) perm.mem_iff

theorem Rearranges.names_iff {column : String} (rearranges : schema.Rearranges other) :
    schema.Names name column ↔ other.Names name column :=
  exists_congr fun _ => and_congr_left fun _ => rearranges.has_iff

theorem Rearranges.wellNamed (rearranges : schema.Rearranges other) (named : schema.WellNamed) :
    other.WellNamed := by
  refine ⟨?_, fun table mem => by_contra fun twice => ?_⟩
  · obtain ⟨-, between, perm, along⟩ := rearranges
    have same : between.map TableSchema.name = other.names := by
      rw [names, ← List.forall₂_eq_eq_eq, List.forall₂_map_left_iff, List.forall₂_map_right_iff]
      exact along.imp fun _ _ alike => alike.1
    exact same ▸ ((perm.map TableSchema.name).nodup_iff.mp named.tables)
  · have each (table later : TableSchema) (_ : table.name = later.name)
        (perm : table.columns.Perm later.columns) :
        ¬ (table.columns.map ColumnSchema.name).Nodup ↔
          ¬ (later.columns.map ColumnSchema.name).Nodup :=
      not_congr (perm.map ColumnSchema.name).nodup_iff
    obtain ⟨before, known, also⟩ := (rearranges.exists_iff each).mpr ⟨table, mem, twice⟩
    exact also (named.columns before known)

end ShardSchema

/-! ### Lists of what is so -/

/-- What is listed is what is so, each once. -/
structure Lists {α : Type} (listed : List α) (so : α → Prop) : Prop where
  nodup : listed.Nodup
  mem : ∀ x, x ∈ listed ↔ so x

section Lists

variable {α β κ : Type} {listed others : List α} {so also : α → Prop}

/-- What is so is listed in one way up to order. -/
theorem Lists.perm (first : Lists listed so) (second : Lists others so) : listed.Perm others :=
  (List.perm_ext_iff_of_nodup first.nodup second.nodup).mpr fun x =>
    (first.mem x).trans (second.mem x).symm

theorem Lists.congr (lists : Lists listed so) (same : ∀ x, so x ↔ also x) : Lists listed also :=
  ⟨lists.nodup, fun x => (lists.mem x).trans (same x)⟩

theorem Lists.eq_nil_iff (lists : Lists listed so) : listed = [] ↔ ∀ x, ¬ so x := by
  rw [List.eq_nil_iff_forall_not_mem]
  exact forall_congr' fun x => not_congr (lists.mem x)

/-- What is listed for distinct keys, and tells its key, is listed once. -/
theorem nodup_flatMap_of_keyed {key : α → κ} {entries : α → List β} (keyOf : β → κ)
    (distinct : (listed.map key).Nodup) (each : ∀ x ∈ listed, (entries x).Nodup)
    (keyed : ∀ x ∈ listed, ∀ entry ∈ entries x, keyOf entry = key x) :
    (listed.flatMap entries).Nodup := by
  refine List.nodup_flatMap.mpr ⟨each, (List.pairwise_map.mp distinct).imp_of_mem ?_⟩
  intro x y mem later different entry here there
  exact different ((keyed x mem entry here).symm.trans (keyed y later entry there))

end Lists

namespace SchemaDiff

open ShardSchema (Has Names WellNamed)

variable {schema other shard baseline : ShardSchema} {table expected actual : TableSchema}
  {column : ColumnSchema}

/-! ### Tables -/

theorem lists_tablesOutside (named : schema.WellNamed) (other : ShardSchema) :
    Lists (tablesOutside schema other) fun name => name ∈ schema.names ∧ name ∉ other.names := by
  refine ⟨named.tables.sublist (List.filter_sublist.map _), fun name => ?_⟩
  have outside (table : TableSchema) :
      (other.table? table.name).isNone = true ↔ table.name ∉ other.names :=
    isNone_find?_key
  rw [tablesOutside, List.mem_map, ShardSchema.names, List.mem_map]
  constructor
  · rintro ⟨table, kept, rfl⟩
    obtain ⟨mem, apart⟩ := List.mem_filter.mp kept
    exact ⟨⟨table, mem, rfl⟩, (outside table).mp apart⟩
  · rintro ⟨⟨table, mem, rfl⟩, apart⟩
    exact ⟨table, List.mem_filter.mpr ⟨mem, (outside table).mpr apart⟩, rfl⟩

/-- The pairs are the tables that both schemas have, each of the first with that of the second. -/
structure Pairs (schema other : ShardSchema) (pairs : List (TableSchema × TableSchema)) : Prop where
  distinct : (pairs.map fun pair => pair.1.name).Nodup
  mem : ∀ pair, pair ∈ pairs ↔
    pair.1 ∈ schema.tables ∧ pair.2 ∈ other.tables ∧ pair.1.name = pair.2.name

theorem Pairs.swap {pairs : List (TableSchema × TableSchema)} (all : Pairs schema other pairs) :
    Pairs other schema (pairs.map Prod.swap) := by
  refine ⟨?_, fun pair => ?_⟩
  · rw [List.map_map]
    refine (List.map_congr_left fun pair mem => ?_) ▸ all.distinct
    exact ((all.mem pair).mp mem).2.2
  · rw [List.mem_map]
    constructor
    · rintro ⟨swapped, mem, rfl⟩
      obtain ⟨first, second, same⟩ := (all.mem swapped).mp mem
      exact ⟨second, first, same.symm⟩
    · rintro ⟨first, second, same⟩
      exact ⟨pair.swap, (all.mem _).mpr ⟨second, first, same.symm⟩, pair.swap_swap⟩

theorem pairs_commonTables (named : shard.WellNamed) (alsoNamed : baseline.WellNamed) :
    Pairs baseline shard (commonTables shard baseline) := by
  refine ⟨?_, fun pair => ?_⟩
  · have apart := List.pairwise_map.mp alsoNamed.tables
    refine List.pairwise_map.mpr (apart.filterMap _ ?_)
    intro table later different pair found alsoPair alsoFound
    obtain ⟨_, -, rfl⟩ := Option.map_eq_some_iff.mp found
    obtain ⟨_, -, rfl⟩ := Option.map_eq_some_iff.mp alsoFound
    exact different
  · rw [commonTables, List.mem_filterMap]
    constructor
    · rintro ⟨table, mem, found⟩
      obtain ⟨actual, held, rfl⟩ := Option.map_eq_some_iff.mp found
      obtain ⟨also, same⟩ := named.table?_eq_some_iff.mp held
      exact ⟨mem, also, same.symm⟩
    · rintro ⟨mem, also, same⟩
      refine ⟨pair.1, mem, ?_⟩
      rw [named.table?_eq_some_iff.mpr ⟨also, same.symm⟩]
      rfl

/-! ### Columns -/

theorem lists_columnsOutside (distinct : (table.columns.map ColumnSchema.name).Nodup)
    (other : TableSchema) :
    Lists (columnsOutside table other) fun entry => entry.1 = table.name ∧
      entry.2 ∈ table.columns.map ColumnSchema.name ∧
      entry.2 ∉ other.columns.map ColumnSchema.name := by
  have outside (column : ColumnSchema) :
      (other.column? column.name).isNone = true ↔
        column.name ∉ other.columns.map ColumnSchema.name :=
    isNone_find?_key
  refine ⟨?_, fun entry => ?_⟩
  · refine List.pairwise_map.mpr (((List.pairwise_map.mp distinct).filter _).imp ?_)
    exact fun different same => different (Prod.ext_iff.mp same).2
  · rw [columnsOutside, List.mem_map]
    constructor
    · rintro ⟨column, kept, rfl⟩
      obtain ⟨mem, apart⟩ := List.mem_filter.mp kept
      exact ⟨rfl, List.mem_map_of_mem mem, (outside column).mp apart⟩
    · rintro ⟨same, named, apart⟩
      obtain ⟨column, mem, alsoSame⟩ := List.mem_map.mp named
      refine ⟨column, List.mem_filter.mpr ⟨mem, (outside column).mpr (alsoSame ▸ apart)⟩, ?_⟩
      exact Prod.ext same.symm alsoSame

theorem Pairs.lists_columnsOutside {pairs : List (TableSchema × TableSchema)}
    (all : Pairs schema other pairs) (named : schema.WellNamed) (alsoNamed : other.WellNamed) :
    Lists (pairs.flatMap fun pair => columnsOutside pair.1 pair.2) fun entry =>
      entry.1 ∈ other.names ∧ schema.Names entry.1 entry.2 ∧ ¬ other.Names entry.1 entry.2 := by
  have each (pair : TableSchema × TableSchema) (mem : pair ∈ pairs) :=
    SchemaDiff.lists_columnsOutside (named.columns pair.1 ((all.mem pair).mp mem).1) pair.2
  refine ⟨?_, fun entry => ?_⟩
  · refine nodup_flatMap_of_keyed Prod.fst all.distinct
      (fun pair mem => (each pair mem).nodup) ?_
    exact fun pair mem entry listed => (((each pair mem).mem entry).mp listed).1
  · rw [List.mem_flatMap]
    constructor
    · rintro ⟨pair, mem, listed⟩
      obtain ⟨first, second, same⟩ := (all.mem pair).mp mem
      obtain ⟨table, held, apart⟩ := ((each pair mem).mem entry).mp listed
      rw [table]
      refine ⟨same ▸ List.mem_map_of_mem second, (named.names_iff first).mpr held, ?_⟩
      rwa [same, alsoNamed.names_iff second]
    · rintro ⟨known, held, apart⟩
      obtain ⟨second, also, same⟩ := List.mem_map.mp known
      obtain ⟨column, ⟨first, mem, alsoSame, here⟩, name⟩ := held
      have pair : (first, second) ∈ pairs :=
        (all.mem _).mpr ⟨mem, also, alsoSame.trans same.symm⟩
      refine ⟨_, pair, ((each _ pair).mem entry).mpr ⟨alsoSame.symm, ?_, ?_⟩⟩
      · exact name ▸ List.mem_map_of_mem here
      · rwa [← same, alsoNamed.names_iff also] at apart

theorem mismatch_eq_some_iff {mismatch : ColumnMismatch} :
    (match actual.column? column.name with
      | some found =>
          if found.alike column then none
          else some (⟨expected.name, column.name, column, found⟩ : ColumnMismatch)
      | none => none) = some mismatch ↔
      mismatch.table = expected.name ∧ mismatch.column = column.name ∧
        mismatch.expected = column ∧ actual.column? column.name = some mismatch.actual ∧
        column.Differ mismatch.actual := by
  obtain ⟨table, name, declared, seen⟩ := mismatch
  cases actual.column? column.name with
  | none => simp
  | some found =>
      by_cases alike : found.alike column = true
      · have same := ColumnSchema.alike_iff.mp alike
        simp only [if_pos alike, reduceCtorEq, Option.some.injEq, false_iff]
        rintro ⟨-, -, -, rfl, differ⟩
        exact same differ
      · have differ : column.Differ found := by
          by_contra same
          exact alike (ColumnSchema.alike_iff.mpr same)
        simp only [if_neg alike, Option.some.injEq, ColumnMismatch.mk.injEq]
        constructor
        · rintro ⟨rfl, rfl, rfl, rfl⟩
          exact ⟨rfl, rfl, rfl, rfl, differ⟩
        · rintro ⟨rfl, rfl, rfl, rfl, -⟩
          exact ⟨rfl, rfl, rfl, rfl⟩

theorem mem_mismatches {mismatch : ColumnMismatch}
    (distinct : (actual.columns.map ColumnSchema.name).Nodup) :
    mismatch ∈ mismatches expected actual ↔ mismatch.table = expected.name ∧
      mismatch.expected ∈ expected.columns ∧ mismatch.actual ∈ actual.columns ∧
      mismatch.expected.name = mismatch.column ∧ mismatch.actual.name = mismatch.column ∧
      mismatch.expected.Differ mismatch.actual := by
  rw [mismatches, List.mem_filterMap]
  constructor
  · rintro ⟨column, mem, found⟩
    obtain ⟨table, name, rfl, held, differ⟩ := mismatch_eq_some_iff.mp found
    obtain ⟨also, same⟩ := (find?_key_eq_some_iff distinct).mp held
    exact ⟨table, mem, also, name.symm, same.trans name.symm, differ⟩
  · rintro ⟨table, mem, also, name, same, differ⟩
    have held := (find?_key_eq_some_iff distinct).mpr ⟨also, same.trans name.symm⟩
    exact ⟨_, mem, mismatch_eq_some_iff.mpr ⟨table, name.symm, rfl, held, differ⟩⟩

/-- The column that a mismatch is about. -/
def subject (mismatch : ColumnMismatch) : String × String := (mismatch.table, mismatch.column)

theorem nodup_subject_mismatches (distinct : (expected.columns.map ColumnSchema.name).Nodup)
    (actual : TableSchema) : ((mismatches expected actual).map subject).Nodup := by
  refine List.pairwise_map.mpr (List.Pairwise.filterMap _ ?_ (List.pairwise_map.mp distinct))
  intro column later different mismatch found other alsoFound same
  obtain ⟨-, name, -⟩ := mismatch_eq_some_iff.mp found
  obtain ⟨-, alsoName, -⟩ := mismatch_eq_some_iff.mp alsoFound
  exact different (name.symm.trans ((Prod.ext_iff.mp same).2.trans alsoName))

theorem Pairs.mem_mismatches {pairs : List (TableSchema × TableSchema)}
    {mismatch : ColumnMismatch} (all : Pairs schema other pairs) (alsoNamed : other.WellNamed) :
    mismatch ∈ (pairs.flatMap fun pair => mismatches pair.1 pair.2) ↔
      schema.Has mismatch.table mismatch.expected ∧ other.Has mismatch.table mismatch.actual ∧
      mismatch.expected.name = mismatch.column ∧ mismatch.actual.name = mismatch.column ∧
      mismatch.expected.Differ mismatch.actual := by
  rw [List.mem_flatMap]
  constructor
  · rintro ⟨pair, mem, listed⟩
    obtain ⟨first, second, same⟩ := (all.mem pair).mp mem
    obtain ⟨table, here, there, rest⟩ :=
      (SchemaDiff.mem_mismatches (alsoNamed.columns _ second)).mp listed
    exact ⟨⟨_, first, table.symm, here⟩, ⟨_, second, same.symm.trans table.symm, there⟩, rest⟩
  · rintro ⟨⟨table, first, same, here⟩, ⟨also, second, alsoSame, there⟩, rest⟩
    refine ⟨(table, also), (all.mem _).mpr ⟨first, second, same.trans alsoSame.symm⟩, ?_⟩
    exact (SchemaDiff.mem_mismatches (alsoNamed.columns _ second)).mpr
      ⟨same.symm, here, there, rest⟩

theorem Pairs.nodup_subject_mismatches {pairs : List (TableSchema × TableSchema)}
    (all : Pairs schema other pairs) (named : schema.WellNamed) :
    ((pairs.flatMap fun pair => mismatches pair.1 pair.2).map subject).Nodup := by
  rw [List.map_flatMap]
  refine nodup_flatMap_of_keyed Prod.fst all.distinct (fun pair mem => ?_) ?_
  · exact SchemaDiff.nodup_subject_mismatches (named.columns _ ((all.mem pair).mp mem).1) pair.2
  · intro pair mem entry listed
    obtain ⟨mismatch, known, rfl⟩ := List.mem_map.mp listed
    obtain ⟨column, -, found⟩ := List.mem_filterMap.mp known
    exact (mismatch_eq_some_iff.mp found).1

/-! ### Differences -/

/-- The differences list what only one of two schemas has, and what both have and define
differently, each once and nothing else. -/
structure Tells (diff : SchemaDiff) (shard baseline : ShardSchema) : Prop where
  sides : diff.shard = shard.shard ∧ diff.baseline = baseline.shard
  missingTables : Lists diff.missingTables fun name =>
    name ∈ baseline.names ∧ name ∉ shard.names
  extraTables : Lists diff.extraTables fun name => name ∈ shard.names ∧ name ∉ baseline.names
  missingColumns : Lists diff.missingColumns fun entry =>
    entry.1 ∈ shard.names ∧ baseline.Names entry.1 entry.2 ∧ ¬ shard.Names entry.1 entry.2
  extraColumns : Lists diff.extraColumns fun entry =>
    entry.1 ∈ baseline.names ∧ shard.Names entry.1 entry.2 ∧ ¬ baseline.Names entry.1 entry.2
  mismatchedColumns : Lists diff.mismatchedColumns fun mismatch =>
    baseline.Has mismatch.table mismatch.expected ∧ shard.Has mismatch.table mismatch.actual ∧
      mismatch.expected.name = mismatch.column ∧ mismatch.actual.name = mismatch.column ∧
      mismatch.expected.Differ mismatch.actual
  once : (diff.mismatchedColumns.map subject).Nodup

theorem between_tells (named : shard.WellNamed) (alsoNamed : baseline.WellNamed) :
    (between shard baseline).Tells shard baseline := by
  have all := pairs_commonTables named alsoNamed
  have once := all.nodup_subject_mismatches alsoNamed
  refine ⟨⟨rfl, rfl⟩, lists_tablesOutside alsoNamed shard, lists_tablesOutside named baseline,
    all.lists_columnsOutside alsoNamed named, ?_, ⟨once.of_map, fun _ => ?_⟩, once⟩
  · have swapped := all.swap.lists_columnsOutside named alsoNamed
    rwa [List.flatMap_map] at swapped
  · exact all.mem_mismatches named

/-- The differences are the same up to order. -/
structure Agrees (diff other : SchemaDiff) : Prop where
  sides : diff.shard = other.shard ∧ diff.baseline = other.baseline
  missingTables : diff.missingTables.Perm other.missingTables
  extraTables : diff.extraTables.Perm other.extraTables
  missingColumns : diff.missingColumns.Perm other.missingColumns
  extraColumns : diff.extraColumns.Perm other.extraColumns
  mismatchedColumns : diff.mismatchedColumns.Perm other.mismatchedColumns

theorem Tells.agrees {diff otherDiff : SchemaDiff} (first : diff.Tells shard baseline)
    (second : otherDiff.Tells shard baseline) : diff.Agrees otherDiff where
  sides := ⟨first.sides.1.trans second.sides.1.symm, first.sides.2.trans second.sides.2.symm⟩
  missingTables := first.missingTables.perm second.missingTables
  extraTables := first.extraTables.perm second.extraTables
  missingColumns := first.missingColumns.perm second.missingColumns
  extraColumns := first.extraColumns.perm second.extraColumns
  mismatchedColumns := first.mismatchedColumns.perm second.mismatchedColumns

/-! ### The other direction -/

/-- The mismatch as the other side sees it. -/
def exchange (mismatch : ColumnMismatch) : ColumnMismatch :=
  ⟨mismatch.table, mismatch.column, mismatch.actual, mismatch.expected⟩

/-- The differences as the other side sees them. -/
def dual (diff : SchemaDiff) : SchemaDiff where
  shard := diff.baseline
  baseline := diff.shard
  missingTables := diff.extraTables
  extraTables := diff.missingTables
  missingColumns := diff.extraColumns
  extraColumns := diff.missingColumns
  mismatchedColumns := diff.mismatchedColumns.map exchange

theorem Tells.dual {diff : SchemaDiff} (tells : diff.Tells shard baseline) :
    diff.dual.Tells baseline shard := by
  have seen : (diff.mismatchedColumns.map exchange).map subject =
      diff.mismatchedColumns.map subject := by
    rw [List.map_map]
    rfl
  have once : (diff.dual.mismatchedColumns.map subject).Nodup := seen ▸ tells.once
  refine ⟨⟨tells.sides.2, tells.sides.1⟩, tells.extraTables, tells.missingTables,
    tells.extraColumns, tells.missingColumns, ⟨once.of_map, fun mismatch => ?_⟩, once⟩
  have back : mismatch ∈ diff.mismatchedColumns.map exchange ↔
      exchange mismatch ∈ diff.mismatchedColumns :=
    List.mem_map_of_involutive fun _ => rfl
  rw [SchemaDiff.dual, back, tells.mismatchedColumns.mem]
  simp only [exchange, ColumnSchema.differ_comm]
  tauto

/-! ### Another order -/

theorem Tells.rearranges {diff : SchemaDiff} (tells : diff.Tells shard baseline)
    (first : shard.Rearranges schema) (second : baseline.Rearranges other) :
    diff.Tells schema other where
  sides := ⟨tells.sides.1.trans first.shard, tells.sides.2.trans second.shard⟩
  missingTables := tells.missingTables.congr fun _ => by
    rw [first.mem_names_iff, second.mem_names_iff]
  extraTables := tells.extraTables.congr fun _ => by
    rw [first.mem_names_iff, second.mem_names_iff]
  missingColumns := tells.missingColumns.congr fun _ => by
    rw [first.mem_names_iff, first.names_iff, second.names_iff]
  extraColumns := tells.extraColumns.congr fun _ => by
    rw [second.mem_names_iff, first.names_iff, second.names_iff]
  mismatchedColumns := tells.mismatchedColumns.congr fun _ => by
    rw [first.has_iff, second.has_iff]
  once := tells.once

/-! ### No differences -/

/-- Both schemas have the same tables with the same columns, defined alike. -/
structure Matches (shard baseline : ShardSchema) : Prop where
  tables : ∀ name, name ∈ shard.names ↔ name ∈ baseline.names
  columns : ∀ table column, shard.Names table column ↔ baseline.Names table column
  defined : ∀ table column other, shard.Has table column → baseline.Has table other →
    column.name = other.name → ¬ column.Differ other

theorem Tells.isEmpty_iff {diff : SchemaDiff} (tells : diff.Tells shard baseline) :
    diff.isEmpty = true ↔ Matches shard baseline := by
  have nothing : diff.isEmpty = true ↔ diff.missingTables = [] ∧ diff.extraTables = [] ∧
      diff.missingColumns = [] ∧ diff.extraColumns = [] ∧ diff.mismatchedColumns = [] := by
    simp [isEmpty, and_assoc]
  rw [nothing, tells.missingTables.eq_nil_iff, tells.extraTables.eq_nil_iff,
    tells.missingColumns.eq_nil_iff, tells.extraColumns.eq_nil_iff,
    tells.mismatchedColumns.eq_nil_iff]
  constructor
  · rintro ⟨missing, extra, missingColumn, extraColumn, mismatched⟩
    have tables (name : String) : name ∈ shard.names ↔ name ∈ baseline.names :=
      ⟨fun mem => by_contra fun apart => extra name ⟨mem, apart⟩,
        fun mem => by_contra fun apart => missing name ⟨mem, apart⟩⟩
    refine ⟨tables, fun table column => ⟨fun held => ?_, fun held => ?_⟩, ?_⟩
    · have known := (tables table).mp held.mem_names
      exact by_contra fun apart => extraColumn (table, column) ⟨known, held, apart⟩
    · have known := (tables table).mpr held.mem_names
      exact by_contra fun apart => missingColumn (table, column) ⟨known, held, apart⟩
    · intro table column other held also same differ
      exact mismatched ⟨table, column.name, other, column⟩
        ⟨also, held, same.symm, rfl, ColumnSchema.differ_comm.mp differ⟩
  · rintro ⟨tables, columns, defined⟩
    refine ⟨fun name here => here.2 ((tables name).mpr here.1),
      fun name here => here.2 ((tables name).mp here.1),
      fun entry here => here.2.2 ((columns _ _).mpr here.2.1),
      fun entry here => here.2.2 ((columns _ _).mp here.2.1), ?_⟩
    rintro mismatch ⟨held, also, name, same, differ⟩
    exact defined _ _ _ also held (same.trans name.symm) (ColumnSchema.differ_comm.mp differ)

theorem Matches.refl (named : schema.WellNamed) : Matches schema schema := by
  refine ⟨fun _ => .rfl, fun _ _ => .rfl, fun table column other held also same differ => ?_⟩
  rw [named.has_unique held also same] at differ
  exact ColumnSchema.not_differ_self differ

theorem Matches.symm (same : Matches shard baseline) : Matches baseline shard :=
  ⟨fun name => (same.tables name).symm, fun table column => (same.columns table column).symm,
    fun table column other held also named differ =>
      same.defined table other column also held named.symm (ColumnSchema.differ_comm.mp differ)⟩

theorem Matches.trans (first : Matches shard schema) (second : Matches schema baseline) :
    Matches shard baseline := by
  refine ⟨fun name => (first.tables name).trans (second.tables name),
    fun table column => (first.columns table column).trans (second.columns table column), ?_⟩
  intro table column other held also same
  obtain ⟨between, here, named⟩ := (first.columns table column.name).mp ⟨column, held, rfl⟩
  exact ColumnSchema.not_differ_trans (first.defined _ _ _ held here named.symm)
    (second.defined _ _ _ here also (named.trans same))

/-- The differences of two schemas are exact, and the other side sees the same differences. The
order in which tables and columns are given does not matter, and to be without differences is an
equivalence. -/
theorem between_exact (shard baseline : ShardSchema) (named : shard.WellNamed)
    (alsoNamed : baseline.WellNamed) :
    (between shard baseline).Tells shard baseline ∧
    (between baseline shard).Agrees (between shard baseline).dual ∧
    (∀ schema other, shard.Rearranges schema → baseline.Rearranges other →
      (between shard baseline).Agrees (between schema other)) ∧
    Equivalence fun first second : { schema : ShardSchema // schema.WellNamed } =>
      (between first.1 second.1).isEmpty = true := by
  have tells := between_tells named alsoNamed
  refine ⟨tells, (between_tells alsoNamed named).agrees tells.dual, ?_, ?_⟩
  · intro schema other first second
    exact (tells.rearranges first second).agrees
      (between_tells (first.wellNamed named) (second.wellNamed alsoNamed))
  · have empty_iff (first second : { schema : ShardSchema // schema.WellNamed }) :
        (between first.1 second.1).isEmpty = true ↔ Matches first.1 second.1 :=
      (between_tells first.2 second.2).isEmpty_iff
    simp only [empty_iff]
    exact ⟨fun schema => .refl schema.2, .symm, .trans⟩

/-- A table on either side only, and a column that may be null on one side. -/
theorem between_exact_users :
    let email := fun nullable => (⟨"email", "text", nullable, none⟩ : ColumnSchema)
    let shard : ShardSchema := ⟨⟨"eu-1"⟩, [⟨"users", [email true]⟩, ⟨"drafts", []⟩]⟩
    let baseline : ShardSchema := ⟨⟨"eu-0"⟩, [⟨"orders", []⟩, ⟨"users", [email false]⟩]⟩
    shard.WellNamed ∧ baseline.WellNamed ∧
      (between baseline shard).Agrees (between shard baseline).dual ∧
      (between shard baseline).missingTables = ["orders"] ∧
      (between shard baseline).extraTables = ["drafts"] ∧
      ⟨"users", "email", email false, email true⟩ ∈ (between shard baseline).mismatchedColumns := by
  intro email shard baseline
  have named : shard.WellNamed := ⟨by decide, by decide⟩
  have alsoNamed : baseline.WellNamed := ⟨by decide, by decide⟩
  obtain ⟨tells, dual, -⟩ := between_exact shard baseline named alsoNamed
  refine ⟨named, alsoNamed, dual, by decide, by decide, ?_⟩
  refine (tells.mismatchedColumns.mem _).mpr ⟨?_, ?_, rfl, rfl, .inr (by decide)⟩
  · exact ⟨_, List.mem_cons_of_mem _ List.mem_cons_self, rfl, List.mem_cons_self⟩
  · exact ⟨_, List.mem_cons_self, rfl, List.mem_cons_self⟩

end SchemaDiff

end ShardFleet
