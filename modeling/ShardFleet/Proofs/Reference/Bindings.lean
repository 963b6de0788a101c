import ShardFleet.Distinct
import ShardFleet.Proofs.Reference.Insertions

/-!
What the statements of an upsert bind.

Of the given rows those are kept that are the last ones under their keys, in the order in which the
keys first appear (`keptRows`, `onePerKey_rows`). The statements carry the kept rows piece by piece:
each binds the values of its piece, and the placeholders that a reader finds in its text, from left
to right, are those of the bound values (`Insertion.placeholders?`, `placeholders?_sql`). All pieces
but the last are as large as the limit on bound values allows (`statements_carry`).
-/

namespace ShardFleet

open ShardFleet.Digest (Bytes)

theorem distinct_append_singleton {α : Type} [DecidableEq α] (list : List α) (last : α) :
    distinct (list ++ [last]) =
      if last ∈ list then distinct list else distinct list ++ [last] := by
  induction list with
  | nil => simp [distinct]
  | cons first rest ih =>
      rw [List.cons_append, distinct, distinct, ih]
      by_cases later : last ∈ rest
      · rw [if_pos later, if_pos (List.mem_cons_of_mem first later)]
      · rw [if_neg later, List.filter_append]
        by_cases same : last = first
        · simp [same]
        · simp [same, later]

/-! ### Kept rows -/

/-- The last row that is given under a key. -/
def lastUnder? (entries : List (Bytes × Row)) (key : Bytes) : Option Row :=
  (entries.reverse.find? fun entry => entry.1 = key).map Prod.snd

/-- One row per key, the last one given, in the order in which the keys first appear. -/
def keptRows (entries : List (Bytes × Row)) : List Row :=
  (distinct (entries.map Prod.fst)).filterMap (lastUnder? entries)

/-- The rows of a call that are kept; each row must have its key. -/
def ReferenceTable.kept (table : ReferenceTable) (rows : List Row) : Except Error (List Row) :=
  return keptRows (← table.keyed rows)

namespace Upsert

variable {key : Bytes} {row : Row} {kept entries : List (Bytes × Row)}

theorem keys_keepLast (key : Bytes) (row : Row) (kept : List (Bytes × Row)) :
    (keepLast key row kept).map Prod.fst =
      if key ∈ kept.map Prod.fst then kept.map Prod.fst else kept.map Prod.fst ++ [key] := by
  induction kept with
  | nil => rfl
  | cons first rest ih =>
      obtain ⟨other, held⟩ := first
      rw [keepLast]
      split
      · next same => simp [same]
      · next different =>
          have apart : key ≠ other := Ne.symm different
          rw [List.map_cons, ih]
          simp only [List.map_cons, List.mem_cons, apart, false_or]
          split <;> rfl

/-- The keys of the rows that are kept, in the order in which they first appear. -/
theorem keys_onePerKey (entries : List (Bytes × Row)) :
    (onePerKey entries).map Prod.fst = distinct (entries.map Prod.fst) := by
  induction entries using List.reverseRecOn with
  | nil => rfl
  | append_singleton entries last ih =>
      rw [onePerKey_append_singleton, keys_keepLast, ih, List.map_append, List.map_singleton,
        distinct_append_singleton]
      by_cases known : last.1 ∈ entries.map Prod.fst
      · rw [if_pos (mem_distinct.mpr known), if_pos known]
      · rw [if_neg (mt mem_distinct.mp known), if_neg known]

/-- Keeping the last row at the place of the first one keeps the last row under each key, in the
order of the keys. -/
theorem onePerKey_rows (entries : List (Bytes × Row)) :
    (onePerKey entries).map Prod.snd = keptRows entries := by
  have each : ∀ entry ∈ onePerKey entries, lastUnder? entries entry.1 = some entry.2 :=
    fun entry mem => mem_onePerKey.mp mem
  rw [keptRows, ← keys_onePerKey]
  generalize onePerKey entries = chosen at each
  induction chosen with
  | nil => rfl
  | cons entry rest ih =>
      obtain ⟨first, later⟩ := List.forall_mem_cons.mp each
      rw [List.map_cons, List.map_cons, List.filterMap_cons_some first, ih later]

theorem kept_eq_ok_iff {table : ReferenceTable} {rows kept : List Row} :
    table.kept rows = .ok kept ↔
      ∃ entries, table.keyed rows = .ok entries ∧ kept = (onePerKey entries).map Prod.snd := by
  simp only [onePerKey_rows]
  exact bind_pure_eq_ok_iff

/-! ### Chunks -/

section Chunks

variable {α : Type} {size : Nat} {list chunk : List α}

theorem length_le_of_mem_chunks (mem : chunk ∈ chunks size list) : chunk.length ≤ size := by
  fun_induction chunks size list with
  | case1 => cases mem
  | case2 list rest ih =>
      rcases List.mem_cons.mp mem with rfl | later
      · exact List.length_take_le _ _
      · exact ih later

/-- Only the last chunk may be short. -/
theorem length_eq_of_mem_dropLast_chunks (mem : chunk ∈ (chunks size list).dropLast) :
    chunk.length = size := by
  fun_induction chunks size list with
  | case1 => cases mem
  | case2 list rest ih =>
      by_cases last : chunks size (list.drop size) = []
      · rw [last] at mem
        cases mem
      · rw [List.dropLast_cons_of_ne_nil last] at mem
        rcases List.mem_cons.mp mem with rfl | later
        · have more : list.drop size ≠ [] := by
            rintro none
            rw [none, chunks, if_pos (.inr rfl)] at last
            exact last rfl
          have long : size < list.length := by simpa using more
          rw [List.length_take, Nat.min_eq_left (Nat.le_of_lt long)]
        · exact ih later

end Chunks

end Upsert

/-! ### Placeholders in a text -/

namespace Insertion

open Text Scan

/-- What stands between commas in brackets. -/
def slot : Scan String := do
  return String.ofList (← span fun c => c ≠ ',' && c ≠ ')')

def slots : Scan (List String) := do
  literal ['(']
  let items ← separated comma slot
  literal [')']
  return items

/-- Reads up to the end of the clause of values, row by row. -/
def valuesClause : Scan (List (List String)) := do
  literal "INSERT INTO ".toList
  let _ ← name
  literal " (".toList
  let _ ← names
  literal ") VALUES ".toList
  separated comma slots

/-- The placeholders in the clause of values of an insertion, as they are written. -/
def placeholders? (text : String) : Option (List (List String)) :=
  (valuesClause text.toList).map Prod.fst

variable {table : ReferenceTable} {frame : Upsert.Frame} {style : PlaceholderStyle}
  {width count : Nat}

/-- No placeholder has a comma or a bracket in it. -/
theorem within_placeholder (style : PlaceholderStyle) (index : Nat) {c : Char}
    (mem : c ∈ (style.placeholder index).toList) : (c ≠ ',' && c ≠ ')') = true := by
  have digits (n : Nat) (mem : c ∈ (toString n).toList) : (c ≠ ',' && c ≠ ')') = true := by
    rw [Nat.toString_eq_ofList_toDigits, String.toList_ofList] at mem
    have digit : c.isDigit := Nat.isDigit_of_mem_toDigits (by decide) (by decide) mem
    rw [Bool.and_eq_true, decide_eq_true_iff, decide_eq_true_iff]
    exact ⟨by rintro rfl; exact absurd digit (by decide),
      by rintro rfl; exact absurd digit (by decide)⟩
  cases style with
  | positional =>
      obtain rfl : c = '?' := by simpa [PlaceholderStyle.placeholder] using mem
      rfl
  | numbered =>
      rw [PlaceholderStyle.placeholder, String.toList_append] at mem
      rcases List.mem_append.mp mem with lead | number
      · obtain rfl : c = '$' := by simpa using lead
        rfl
      · exact digits _ number
  | named =>
      rw [PlaceholderStyle.placeholder, String.toList_append] at mem
      rcases List.mem_append.mp mem with lead | number
      · have either : c = '@' ∨ c = 'p' := by simpa using lead
        rcases either with rfl | rfl <;> rfl
      · exact digits _ number

theorem reads_slot (style : PlaceholderStyle) (index : Nat) :
    Reads slot (fun c => c ≠ ',' && c ≠ ')') (style.placeholder index).toList
      (style.placeholder index) := by
  have inside := (reads_span fun c => within_placeholder style index).map String.ofList
  rwa [String.ofList_toList] at inside

/-- The placeholders of the row at `index` of a statement, as they are written. -/
def rowPlaceholders (style : PlaceholderStyle) (width index : Nat) : List String :=
  (List.range' (index * width) width).map style.placeholder

theorem reads_slots (filled : width ≠ 0) (index : Nat) :
    Reads slots (fun _ => false) (Upsert.tuple style width index).toList
      (rowPlaceholders style width index) := by
  have each : List.Forall₂ (Reads slot fun c => c ≠ ',' && c ≠ ')')
      ((rowPlaceholders style width index).map String.toList)
      (rowPlaceholders style width index) := by
    rw [List.forall₂_map_left_iff]
    refine List.forall₂_same.mpr fun mark mem => ?_
    obtain ⟨place, -, rfl⟩ := List.mem_map.mp mem
    exact reads_slot style place
  have any : (rowPlaceholders style width index).map String.toList ≠ [] := by
    simpa [rowPlaceholders] using filled
  have list := reads_commas rfl each any
  rw [Upsert.tuple, PlaceholderStyle.placeholders, String.toList_append, String.toList_append,
    String.toList_intercalate, List.append_assoc, ← List.append_nil ")".toList]
  refine Reads.after _ (Reads.bind list ?_ fun _ _ => clear_cons.mpr rfl)
  exact (reads_pure _).after _

/-- Row after row, the placeholders of a statement are those of its parameters in order. -/
theorem flatten_rowPlaceholders (style : PlaceholderStyle) (width count : Nat) :
    ((List.range count).map (rowPlaceholders style width)).flatten =
      (List.range (count * width)).map style.placeholder := by
  induction count with
  | zero => simp
  | succ count ih =>
      rw [List.range_succ, List.map_append, List.flatten_append, ih, Nat.succ_mul, List.range_add,
        List.map_append, List.map_singleton, List.flatten_singleton, rowPlaceholders,
        List.range'_eq_map_range]

/-- A reader of the text of an upsert finds the placeholders of its rows. -/
theorem placeholders?_sql (framed : Upsert.frame table = .ok frame)
    (columned : table.columns ≠ []) (style : PlaceholderStyle) (some : count ≠ 0) :
    placeholders? (frame.sql style count) =
      .some ((List.range count).map (rowPlaceholders style table.columns.length)) := by
  obtain ⟨nameQuoted, columnsQuoted, -, -, wide⟩ := Upsert.frame_eq_ok_iff.mp framed
  obtain ⟨columns, eachColumn, columnsText⟩ := Upsert.quotedList_eq_ok_iff.mp columnsQuoted
  have tuples : List.Forall₂ (Reads slots fun _ => false)
      (((List.range count).map (Upsert.tuple style frame.width)).map String.toList)
      ((List.range count).map (rowPlaceholders style frame.width)) := by
    rw [List.map_map, List.forall₂_map_left_iff, List.forall₂_map_right_iff]
    refine List.forall₂_same.mpr fun index _ => reads_slots ?_ index
    rw [wide]
    exact mt List.length_eq_zero_iff.mp columned
  have clause : Reads valuesClause (fun c => false || c == ',')
      ("INSERT INTO ".toList ++ (frame.name.toList ++ (" (".toList ++ (frame.columns.toList ++
        (") VALUES ".toList ++ comma.intercalate
          (((List.range count).map (Upsert.tuple style frame.width)).map String.toList))))))
      ((List.range count).map (rowPlaceholders style frame.width)) := by
    rw [columnsText]
    refine Reads.after _ (Reads.bind (reads_name nameQuoted) (Reads.after _ ?_) fun _ _ =>
      clear_cons.mpr rfl)
    refine Reads.bind (reads_names eachColumn columned) (Reads.after _ ?_) fun _ _ =>
      clear_cons.mpr rfl
    exact reads_commas rfl tuples (by simpa using some)
  have stops : Clear (fun c => false || c == ',') (" ON CONFLICT (".toList ++
      (frame.key.toList ++ (") ".toList ++ frame.action.toList))) := clear_cons.mpr rfl
  have read := clause _ stops
  simp only [List.append_assoc] at read
  rw [placeholders?, toList_sql, read, wide]
  rfl

example :
    placeholders? "INSERT INTO \"rates\" (\"id\", \"at\") VALUES (@p0, @p1), (@p2, @p3) ON" =
      some [["@p0", "@p1"], ["@p2", "@p3"]] := by
  decide +kernel

end Insertion

/-! ### Statements -/

namespace Upsert

variable {options : StatementOptions} {table : ReferenceTable} {rows : List Row}
  {list : List Statement}

/-- The statement binds the rows of a piece, of which there is one at least: column by column, a
missing one as null, no more values than allowed. The placeholders in its text, row by row and from
left to right, are those of the bound values from the first one on. -/
structure Carries (options : StatementOptions) (table : ReferenceTable) (piece : List Row)
    (statement : Statement) : Prop where
  params : statement.params = piece.flatMap fun row =>
    table.columns.map fun column => (row.get? column).getD .null
  filled : piece ≠ []
  fits : statement.params.length ≤ options.maxParameters
  placeholders : ∃ marks, Insertion.placeholders? statement.sql = some marks ∧
    marks.length = piece.length ∧
    marks.flatten = (List.range statement.params.length).map options.style.placeholder

theorem length_rowValues (table : ReferenceTable) (piece : List Row) :
    (piece.flatMap (rowValues table)).length = piece.length * table.columns.length := by
  simp [rowValues, List.length_flatMap]

/-- Piece by piece, the statements bind the values of all rows in order. -/
theorem flatMap_params {size : Nat} (some : size ≠ 0) (frame : Frame) (style : PlaceholderStyle)
    (table : ReferenceTable) (kept : List Row) :
    ((chunks size kept).map (chunkStatement frame style table)).flatMap Statement.params =
      kept.flatMap (rowValues table) := by
  rw [List.flatMap_map]
  conv_rhs => rw [← flatten_chunks some kept, List.flatten_eq_flatMap, List.flatMap_assoc]
  rfl

theorem carries_chunkStatement {size : Nat} {frame : Frame} {piece : List Row}
    (admits : rowsPerStatement options table = .ok size) (framed : Upsert.frame table = .ok frame)
    (filled : piece ≠ []) (short : piece.length ≤ size) :
    Carries options table piece (chunkStatement frame options.style table piece) := by
  obtain ⟨columned, -, rfl⟩ := rowsPerStatement_eq_ok_iff.mp admits
  have bound : (chunkStatement frame options.style table piece).params.length =
      piece.length * table.columns.length := length_rowValues table piece
  refine ⟨rfl, filled, ?_, _, Insertion.placeholders?_sql framed columned options.style
    (mt List.length_eq_zero_iff.mp filled), ?_, ?_⟩
  · rw [bound]
    calc piece.length * table.columns.length
        ≤ options.maxParameters / table.columns.length * table.columns.length :=
          Nat.mul_le_mul_right _ short
      _ ≤ options.maxParameters := Nat.div_mul_le_self _ _
  · rw [List.length_map, List.length_range]
  · rw [bound, Insertion.flatten_rowPlaceholders]

/-- The statements for rows carry the kept ones, and nothing else, in their order. The kept rows
are cut in pieces, one for each statement; every piece but the last has as many rows as there are
whole rows of values within the limit. -/
theorem statements_carry (made : statements options table rows = .ok list) :
    ∃ kept pieces, table.kept rows = .ok kept ∧ pieces.flatten = kept ∧
      List.Forall₂ (Carries options table) pieces list ∧
      (∀ piece ∈ pieces.dropLast, piece.length = options.maxParameters / table.columns.length) ∧
      list.flatMap Statement.params = kept.flatMap fun row =>
        table.columns.map fun column => (row.get? column).getD .null := by
  obtain ⟨-, size, frame, entries, admits, framed, keyed, rfl⟩ := statements_eq_ok_iff.mp made
  have filled := size_ne_zero admits
  let kept := (onePerKey entries).map Prod.snd
  have whole : (chunks size kept).flatten = kept := flatten_chunks filled kept
  refine ⟨kept, chunks size kept, kept_eq_ok_iff.mpr ⟨entries, keyed, rfl⟩, whole, ?_, ?_, ?_⟩
  · rw [List.forall₂_map_right_iff]
    refine List.forall₂_same.mpr fun piece mem => ?_
    exact carries_chunkStatement admits framed (ne_nil_of_mem_chunks mem)
      (length_le_of_mem_chunks mem)
  · intro piece mem
    rw [length_eq_of_mem_dropLast_chunks mem]
    exact (rowsPerStatement_eq_ok_iff.mp admits).2.2
  · exact flatMap_params filled frame options.style table kept

/-- Four rows under three keys, with room for two rows in a statement. -/
theorem statements_carry_countries :
    let table := ReferenceTable.new "countries" ["code"] ["name"]
    let country := fun code name : String =>
      (OrderedMap.ofList [("code", .text code), ("name", .text name)] : Row)
    let rows := [country "DE" "Germany", country "FR" "France", country "DE" "Deutschland",
      country "IT" "Italy"]
    let options : StatementOptions := ⟨.named, 5⟩
    ∃ list, statements options table rows = .ok list ∧
      list.map Statement.params =
        [[.text "DE", .text "Deutschland", .text "FR", .text "France"],
          [.text "IT", .text "Italy"]] ∧
      ∃ kept pieces, table.kept rows = .ok kept ∧ pieces.flatten = kept ∧
        List.Forall₂ (Carries options table) pieces list := by
  intro table country rows options
  have bound : (statements options table rows).toOption.map (List.map Statement.params) =
      some [[.text "DE", .text "Deutschland", .text "FR", .text "France"],
        [.text "IT", .text "Italy"]] := by decide +kernel
  obtain ⟨list, made, params⟩ := exists_eq_ok bound
  obtain ⟨kept, pieces, chosen, whole, carried, -⟩ := statements_carry made
  exact ⟨list, made, params, kept, pieces, chosen, whole, carried⟩

end Upsert

end ShardFleet
