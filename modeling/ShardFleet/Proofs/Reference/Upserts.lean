import Mathlib.Data.List.Induction
import ShardFleet.Proofs.Reference.Books
import ShardFleet.Reference.Upsert

/-!
The pieces of which upserts are made.

Of several rows with one key the last one is bound, so a book takes the bound rows as it takes the
given ones (`store_onePerKey`). The chunks of a list hold its members in order (`flatten_chunks`),
at least one each. What it takes for the statements to be made is told by `statements_eq_ok_iff`
and, for their text, by `frame_eq_ok_iff`.
-/

namespace ShardFleet.Upsert

open ShardFleet.Digest (Bytes)

/-! ### Chunks -/

section Chunks

variable {α β : Type} {size : Nat}

theorem flatten_chunks (some : size ≠ 0) (list : List α) : (chunks size list).flatten = list := by
  fun_induction chunks size list with
  | case1 list none => simpa [some, eq_comm] using none
  | case2 list _ ih => rw [List.flatten_cons, ih, List.take_append_drop]

theorem map_chunks (f : α → β) (list : List α) :
    chunks size (list.map f) = (chunks size list).map (List.map f) := by
  fun_induction chunks size list with
  | case1 list none =>
      rw [chunks, if_pos (by simpa using none), List.map_nil]
  | case2 list rest ih =>
      rw [chunks, if_neg (by simpa using rest), List.map_cons, ← List.map_take, ← List.map_drop, ih]

/-- Every chunk has a member. -/
theorem ne_nil_of_mem_chunks {list chunk : List α} (mem : chunk ∈ chunks size list) :
    chunk ≠ [] := by
  fun_induction chunks size list with
  | case1 => cases mem
  | case2 list rest ih =>
      obtain ⟨some, filled⟩ := not_or.mp rest
      rcases List.mem_cons.mp mem with rfl | later
      · simp [some, filled]
      · exact ih later

end Chunks

/-! ### One row per key -/

variable {key : Bytes} {row : Row} {entry : Bytes × Row} {kept entries : List (Bytes × Row)}

theorem mem_keepLast (distinct : (kept.map Prod.fst).Nodup) :
    entry ∈ keepLast key row kept ↔ entry = (key, row) ∨ entry ∈ kept ∧ entry.1 ≠ key := by
  induction kept with
  | nil => simp [keepLast]
  | cons first rest ih =>
      obtain ⟨other, held⟩ := first
      obtain ⟨fresh, apart⟩ := List.nodup_cons.mp distinct
      rw [keepLast]
      split
      · next same =>
          subst same
          have elsewhere (mem : entry ∈ rest) : entry.1 ≠ other :=
            ne_of_mem_of_not_mem (List.mem_map_of_mem mem) fresh
          grind
      · next different =>
          rw [List.mem_cons, List.mem_cons, ih apart]
          grind

theorem nodup_keepLast (distinct : (kept.map Prod.fst).Nodup) :
    ((keepLast key row kept).map Prod.fst).Nodup := by
  induction kept with
  | nil => simp [keepLast]
  | cons first rest ih =>
      obtain ⟨other, held⟩ := first
      obtain ⟨fresh, apart⟩ := List.nodup_cons.mp distinct
      rw [keepLast]
      split
      · next same => exact same ▸ distinct
      · next different =>
          refine List.nodup_cons.mpr ⟨?_, ih apart⟩
          intro mem
          obtain ⟨entry, kept, named⟩ := List.mem_map.mp mem
          rcases (mem_keepLast apart).mp kept with rfl | ⟨old, -⟩
          · exact different named.symm
          · exact fresh (named ▸ List.mem_map_of_mem old)

theorem onePerKey_append_singleton (entries : List (Bytes × Row)) (entry : Bytes × Row) :
    onePerKey (entries ++ [entry]) = keepLast entry.1 entry.2 (onePerKey entries) := by
  rw [onePerKey, List.foldl_append]
  rfl

/-- No two of the rows that are kept have one key. -/
theorem nodup_onePerKey (entries : List (Bytes × Row)) :
    ((onePerKey entries).map Prod.fst).Nodup := by
  induction entries using List.reverseRecOn with
  | nil => exact List.nodup_nil
  | append_singleton entries last ih =>
      exact onePerKey_append_singleton entries last ▸ nodup_keepLast ih

/-- The row that is kept under a key is the last one given. -/
theorem mem_onePerKey :
    (key, row) ∈ onePerKey entries ↔
      (entries.reverse.find? fun entry => entry.1 = key).map Prod.snd = some row := by
  induction entries using List.reverseRecOn with
  | nil => simp [onePerKey]
  | append_singleton entries last ih =>
      rw [onePerKey_append_singleton, mem_keepLast (nodup_onePerKey entries), ih,
        List.reverse_append, List.reverse_singleton, List.singleton_append, List.find?_cons]
      by_cases same : last.1 = key
      · simp [same, Prod.ext_iff, eq_comm]
      · simp [same, Prod.ext_iff, Ne.symm same]

theorem onePerKey_subset : onePerKey entries ⊆ entries := by
  rintro ⟨key, row⟩ mem
  obtain ⟨entry, last, rfl⟩ := Option.map_eq_some_iff.mp (mem_onePerKey.mp mem)
  have under : entry.1 = key := by simpa using List.find?_some last
  exact under ▸ List.mem_reverse.mp (List.mem_of_find?_eq_some last)

/-- To a book the rows that are kept are as good as all that are given. -/
theorem store_onePerKey (rows : KeyedRows) (entries : List (Bytes × Row)) :
    TableBook.store rows (onePerKey entries) = TableBook.store rows entries := by
  refine OrderedMap.ext_get? fun key => ?_
  have last : ((onePerKey entries).reverse.find? fun entry => entry.1 = key).map Prod.snd =
      (entries.reverse.find? fun entry => entry.1 = key).map Prod.snd := by
    ext row
    rw [OrderedMap.find?_reverse_eq_some_iff (nodup_onePerKey entries), mem_onePerKey]
  rw [TableBook.get?_store, TableBook.get?_store, last]

/-! ### What is written -/

variable {options : StatementOptions} {table : ReferenceTable} {rows : List Row} {size : Nat}

theorem rowsPerStatement_eq_ok_iff :
    rowsPerStatement options table = .ok size ↔
      table.columns ≠ [] ∧ table.columns.length ≤ options.maxParameters ∧
        size = options.maxParameters / table.columns.length := by
  unfold rowsPerStatement
  dsimp only
  split
  · next refused =>
      refine ⟨fun absurd => (nomatch absurd), ?_⟩
      rintro ⟨some, fits, -⟩
      rcases refused with none | wide
      · exact absurd (List.length_eq_zero_iff.mp none) some
      · exact absurd fits (Nat.not_le.mpr wide)
  · next admitted =>
      obtain ⟨some, fits⟩ := not_or.mp admitted
      rw [Except.ok.injEq, eq_comm]
      exact ⟨fun same => ⟨mt List.length_eq_zero_iff.mpr some, Nat.not_lt.mp fits, same⟩,
        fun shape => shape.2.2⟩

/-- A statement that may bind values binds those of one row at least. -/
theorem size_ne_zero (admits : rowsPerStatement options table = .ok size) : size ≠ 0 := by
  obtain ⟨some, fits, rfl⟩ := rowsPerStatement_eq_ok_iff.mp admits
  exact Nat.ne_of_gt (Nat.div_pos fits (List.length_pos_iff.mpr some))

theorem quotedList_eq_ok_iff {names : List String} {text : String} :
    quotedList names = .ok text ↔
      ∃ quotes, names.mapM Identifier.quote = .ok quotes ∧ text = ", ".intercalate quotes :=
  bind_pure_eq_ok_iff

theorem conflictAction_eq_ok_iff {action : String} :
    conflictAction table = .ok action ↔
      ∃ quotes, table.valueColumns.mapM Identifier.quote = .ok quotes ∧
        action = if quotes = [] then "DO NOTHING"
          else "DO UPDATE SET " ++
            ", ".intercalate (quotes.map fun name => name ++ " = EXCLUDED." ++ name) := by
  rw [conflictAction, bind_eq_ok_iff]
  refine exists_congr fun quotes => and_congr_right fun _ => ?_
  cases quotes with
  | nil => exact ⟨fun same => (Except.ok.inj same).symm, fun same => congrArg Except.ok same.symm⟩
  | cons first others =>
      exact ⟨fun same => (Except.ok.inj same).symm, fun same => congrArg Except.ok same.symm⟩

theorem frame_eq_ok_iff {frame : Frame} :
    Upsert.frame table = .ok frame ↔
      Identifier.quote table.name = .ok frame.name ∧
        quotedList table.columns = .ok frame.columns ∧
        quotedList table.primaryKey = .ok frame.key ∧
        conflictAction table = .ok frame.action ∧ frame.width = table.columns.length := by
  obtain ⟨name, columns, key, action, width⟩ := frame
  simp only [Upsert.frame, bind_eq_ok_iff, pure, Except.pure, Except.ok.injEq, Frame.mk.injEq]
  grind

theorem statements_eq_ok_iff {list : List Statement} :
    statements options table rows = .ok list ↔
      table.check = .ok () ∧ ∃ size frame entries,
        rowsPerStatement options table = .ok size ∧ Upsert.frame table = .ok frame ∧
        table.keyed rows = .ok entries ∧
        list = (chunks size ((onePerKey entries).map Prod.snd)).map
          (chunkStatement frame options.style table) := by
  simp only [statements, bind_eq_ok_iff, pure, Except.pure, Except.ok.injEq]
  grind

end ShardFleet.Upsert
