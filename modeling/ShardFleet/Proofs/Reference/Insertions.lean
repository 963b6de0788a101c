import Mathlib.Data.List.SplitLengths
import ShardFleet.Proofs.Identifiers
import ShardFleet.Proofs.Reference.Upserts
import ShardFleet.Proofs.Text.Scanning

/-!
The text of an upsert read as an insertion.

An insertion names a table, columns and a key, has a tuple of placeholders for each row, and says
what becomes of a tuple whose key is taken. `Insertion.ofText` reads one from the text of a
statement, whatever the style of the placeholders, and `ofText_sql` says which one the text
of an upsert holds: the names are those of the table, unquoted, and the placeholders are those of
the bound values in order (`flatten_markTuples`).
-/

namespace ShardFleet

open Text

/-- What becomes of a tuple whose key is taken. -/
inductive Resolution where
  /-- The tuple that is there stays. -/
  | keep
  /-- Columns of the tuple that is there are set to offered values: targets and sources. -/
  | update (assignments : List (String × String))
  deriving DecidableEq, Repr

/-- An insertion of tuples that may meet taken keys. -/
structure Insertion where
  table : String
  columns : List String
  /-- The placeholders of each tuple; one with a number stands for the value at that place, counted
  from zero, one without for the value at its own place among all. -/
  tuples : List (List (Option Nat))
  key : List String
  resolution : Resolution
  deriving DecidableEq, Repr

namespace Insertion

open Scan

/-- A word in double quotes. -/
def word : Scan (List Char) := do
  literal ['"']
  let letters ← span (· ≠ '"')
  literal ['"']
  return letters

/-- A quoted name, of one word or of two with a point between them. -/
def name : Scan String := do
  return String.ofList (['.'].intercalate (← upTo ['.'] word 2))

/-- Between the items of a list. -/
def comma : List Char := [',', ' ']

def names : Scan (List String) := separated comma name

/-- A placeholder in any style. -/
def mark : Scan (Option Nat)
  | '?' :: rest => some (none, rest)
  | '$' :: rest =>
      (do
        let n ← number
        guard (n ≠ 0)
        return some (n - 1) : Scan (Option Nat)) rest
  | '@' :: 'p' :: rest => (do return some (← number) : Scan (Option Nat)) rest
  | _ => none

/-- The placeholders of one row. -/
def tuple : Scan (List (Option Nat)) := do
  literal ['(']
  let marks ← separated comma mark
  literal [')']
  return marks

def assignment : Scan (String × String) := do
  let target ← name
  literal " = EXCLUDED.".toList
  return (target, ← name)

def conflict : Scan Resolution :=
  (do literal "DO NOTHING".toList; return .keep) <|>
    (do literal "DO UPDATE SET ".toList; return .update (← separated comma assignment))

def scan : Scan Insertion := do
  literal "INSERT INTO ".toList
  let table ← name
  literal " (".toList
  let columns ← names
  literal ") VALUES ".toList
  let tuples ← separated comma tuple
  literal " ON CONFLICT (".toList
  let key ← names
  literal ") ".toList
  return ⟨table, columns, tuples, key, ← conflict⟩

/-- The insertion that a text spells. -/
def ofText (text : String) : Option Insertion := whole? scan text.toList

/-! ### Names -/

variable {quoted : String} {more : Char → Bool}

theorem reads_word {letters : List Char} (plain : Identifier.isWord letters) :
    Reads word (fun _ => false) (Identifier.quoteWord letters) letters := by
  have inside : Reads (span (· ≠ '"')) (fun c => c ≠ '"') letters letters :=
    reads_span fun c mem => by simpa using Identifier.ne_quote_of_isWord plain mem
  have closed : Reads (do literal ['"']; return letters) (fun _ => false) (['"'] ++ []) letters :=
    (reads_pure letters).after ['"']
  have opened : Reads (do let letters ← span (· ≠ '"'); literal ['"']; return letters)
      (fun _ => false) (letters ++ (['"'] ++ [])) letters :=
    inside.bind closed fun _ _ => clear_cons.mpr rfl
  have whole := opened.after ['"']
  rwa [List.append_nil, ← List.append_assoc] at whole

theorem reads_name {id : String} (quotes : Identifier.quote id = .ok quoted) :
    Reads name (· == '.') quoted.toList id := by
  obtain ⟨short, plain, spelled⟩ := Identifier.quote_eq_ok_iff.mp quotes
  have each : List.Forall₂ (Reads word fun _ => false)
      ((Identifier.parts id.toList).map Identifier.quoteWord) (Identifier.parts id.toList) :=
    List.forall₂_map_left_iff.mpr (List.forall₂_same.mpr fun letters mem =>
      reads_word (plain letters mem))
  have filled : (Identifier.parts id.toList).map Identifier.quoteWord ≠ [] := by
    rw [Identifier.parts_eq_splitOn, ne_eq, List.map_eq_nil_iff]
    exact List.splitOn_ne_nil _ _
  have few : ((Identifier.parts id.toList).map Identifier.quoteWord).length ≤ 2 := by
    rwa [List.length_map]
  have words := Reads.upTo (List.cons_ne_nil '.' []) (fun _ _ => rfl) each filled few
  have whole := words.map fun words => String.ofList (['.'].intercalate words)
  rw [Identifier.intercalate_parts, String.ofList_toList, ← spelled] at whole
  refine whole.mono fun c goesOn => ?_
  rw [Bool.false_or, List.head?_cons, decide_eq_true_iff, Option.some.injEq] at goesOn
  exact beq_iff_eq.mpr goesOn.symm

/-- A list with commas ends where neither its last item goes on nor a comma follows. -/
theorem reads_commas {α : Type} {item : Scan α} {pieces : List (List Char)} {values : List α}
    (apart : more ',' = false) (each : List.Forall₂ (Reads item more) pieces values)
    (filled : pieces ≠ []) :
    Reads (separated comma item) (fun c => more c || c == ',') (comma.intercalate pieces)
      values := by
  have list := Reads.separated (List.cons_ne_nil ',' [' ']) (clear_cons.mpr apart) each filled
  refine list.mono fun c goesOn => ?_
  simp only [List.head?_cons, Option.some.injEq, Bool.or_eq_true, decide_eq_true_eq,
    beq_iff_eq] at goesOn ⊢
  exact goesOn.imp_right Eq.symm

theorem reads_names {ids quotes : List String} (quoted : ids.mapM Identifier.quote = .ok quotes)
    (filled : ids ≠ []) :
    Reads names (fun c => c == '.' || c == ',') (", ".intercalate quotes).toList ids := by
  have named := mapM_eq_ok_iff.mp quoted
  have each : List.Forall₂ (Reads name (· == '.')) (quotes.map String.toList) ids :=
    List.forall₂_map_left_iff.mpr (named.flip.imp fun _ _ quotes => reads_name quotes)
  have any : quotes.map String.toList ≠ [] := by
    rintro none
    rw [List.map_eq_nil_iff.mp none, List.forall₂_nil_right_iff] at named
    exact filled named
  rw [String.toList_intercalate]
  exact reads_commas rfl each any

end Insertion

/-! ### Placeholders -/

/-- How a placeholder of the parameter at `index` is read. -/
def PlaceholderStyle.mark (style : PlaceholderStyle) (index : Nat) : Option Nat :=
  match style with
  | .positional => none
  | .numbered => some index
  | .named => some index

namespace Insertion

open Scan

variable {style : PlaceholderStyle} {width count : Nat}

theorem reads_mark (style : PlaceholderStyle) (index : Nat) :
    Reads mark Char.isDigit (style.placeholder index).toList (style.mark index) := by
  cases style with
  | positional =>
      intro rest _
      rw [PlaceholderStyle.placeholder]
      rfl
  | numbered =>
      have counted : Reads (do let n ← number; guard (n ≠ 0); return some (n - 1)) Char.isDigit
          ((toString (index + 1)).toList ++ []) (some index) :=
        (reads_number (index + 1)).bind
          (Reads.guarded (Nat.succ_ne_zero index) (reads_pure _).anywhere) fun _ clear => clear
      intro rest clear
      rw [List.append_nil] at counted
      rw [PlaceholderStyle.placeholder, String.toList_append]
      exact counted rest clear
  | named =>
      intro rest clear
      rw [PlaceholderStyle.placeholder, String.toList_append]
      exact (reads_number index).map some rest clear

/-- The placeholders of the row at `index` of a statement. -/
def markTuple (style : PlaceholderStyle) (width index : Nat) : List (Option Nat) :=
  (List.range' (index * width) width).map style.mark

theorem reads_tuple (filled : width ≠ 0) (index : Nat) :
    Reads tuple (fun _ => false) (Upsert.tuple style width index).toList
      (markTuple style width index) := by
  have each : List.Forall₂ (Reads mark Char.isDigit)
      (((List.range' (index * width) width).map style.placeholder).map String.toList)
      (markTuple style width index) := by
    rw [List.map_map, markTuple, List.forall₂_map_left_iff, List.forall₂_map_right_iff]
    exact List.forall₂_same.mpr fun place _ => reads_mark style place
  have any :
      ((List.range' (index * width) width).map style.placeholder).map String.toList ≠ [] := by
    simpa using filled
  rw [Upsert.tuple, PlaceholderStyle.placeholders, String.toList_append, String.toList_append,
    String.toList_intercalate, List.append_assoc, ← List.append_nil ")".toList]
  refine Reads.after _ (Reads.bind (reads_commas rfl each any) ?_ fun _ _ => clear_cons.mpr rfl)
  exact (reads_pure _).after _

/-- Row after row, the placeholders of a statement are those of its parameters in order. -/
theorem flatten_markTuples (style : PlaceholderStyle) (width count : Nat) :
    ((List.range count).map (markTuple style width)).flatten =
      (List.range (count * width)).map style.mark := by
  induction count with
  | zero => simp
  | succ count ih =>
      rw [List.range_succ, List.map_append, List.flatten_append, ih, Nat.succ_mul, List.range_add,
        List.map_append, List.map_singleton, List.flatten_singleton, markTuple,
        List.range'_eq_map_range]

/-! ### The whole text -/

/-- What an upsert of rows of the table does where the key is taken. -/
def resolutionOf (table : ReferenceTable) : Resolution :=
  if table.valueColumns = [] then .keep
  else .update (table.valueColumns.map fun column => (column, column))

/-- The insertion of a number of rows of the table. -/
def ofTable (table : ReferenceTable) (style : PlaceholderStyle) (count : Nat) : Insertion :=
  ⟨table.name, table.columns, (List.range count).map (markTuple style table.columns.length),
    table.primaryKey, resolutionOf table⟩

variable {table : ReferenceTable}

theorem reads_assignment {id quoted : String} (quotes : Identifier.quote id = .ok quoted) :
    Reads assignment (· == '.') (quoted ++ " = EXCLUDED." ++ quoted).toList (id, id) := by
  rw [String.toList_append, String.toList_append, List.append_assoc]
  refine Reads.bind (reads_name quotes) (Reads.after _ ?_) fun _ _ => clear_cons.mpr rfl
  exact (reads_name quotes).map fun source => (id, source)

theorem reads_conflict {action : String} (acts : Upsert.conflictAction table = .ok action) :
    Reads conflict (fun c => c == '.' || c == ',') action.toList (resolutionOf table) := by
  obtain ⟨quotes, quoted, rfl⟩ := Upsert.conflictAction_eq_ok_iff.mp acts
  have named := mapM_eq_ok_iff.mp quoted
  cases columns : table.valueColumns with
  | nil =>
      rw [columns, List.forall₂_nil_left_iff] at named
      rw [if_pos named, resolutionOf, if_pos columns, ← List.append_nil "DO NOTHING".toList]
      exact (((reads_pure Resolution.keep).after _).orElse _).anywhere
  | cons first others =>
      have any : quotes ≠ [] := by
        rintro rfl
        rw [columns] at named
        cases named
      have some : table.valueColumns ≠ [] := columns ▸ List.cons_ne_nil first others
      have each : List.Forall₂ (Reads assignment (· == '.'))
          ((quotes.map fun name => name ++ " = EXCLUDED." ++ name).map String.toList)
          (table.valueColumns.map fun column => (column, column)) := by
        rw [List.map_map, List.forall₂_map_left_iff, List.forall₂_map_right_iff]
        exact named.flip.imp fun _ _ quotes => reads_assignment quotes
      rw [if_neg any, resolutionOf, if_neg some, String.toList_append, String.toList_intercalate]
      refine Reads.orElse_right (fun rest => rfl) (Reads.after _ ?_)
      exact (reads_commas rfl each (by simpa using any)).map Resolution.update

/-- The text of an upsert, piece after piece. -/
theorem toList_sql (frame : Upsert.Frame) (style : PlaceholderStyle) (count : Nat) :
    (frame.sql style count).toList =
      "INSERT INTO ".toList ++ (frame.name.toList ++ (" (".toList ++ (frame.columns.toList ++
        (") VALUES ".toList ++
          (comma.intercalate
              (((List.range count).map (Upsert.tuple style frame.width)).map String.toList) ++
            (" ON CONFLICT (".toList ++ (frame.key.toList ++
              (") ".toList ++ frame.action.toList)))))))) := by
  have pieces : frame.sql style count =
      "INSERT INTO " ++ frame.name ++ " (" ++ frame.columns ++ ") VALUES " ++
        ", ".intercalate ((List.range count).map (Upsert.tuple style frame.width)) ++
        " ON CONFLICT (" ++ frame.key ++ ") " ++ frame.action := rfl
  have commas : ", ".toList = comma := rfl
  rw [pieces]
  iterate 9 rw [String.toList_append]
  rw [String.toList_intercalate, commas]
  iterate 8 rw [List.append_assoc]

theorem reads_scan {frame : Upsert.Frame} (framed : Upsert.frame table = .ok frame)
    (keyed : table.primaryKey ≠ []) (columned : table.columns ≠ []) (style : PlaceholderStyle)
    {count : Nat} (some : count ≠ 0) :
    Reads scan (fun c => c == '.' || c == ',') (frame.sql style count).toList
      (ofTable table style count) := by
  obtain ⟨nameQuoted, columnsQuoted, keyQuoted, acts, wide⟩ := Upsert.frame_eq_ok_iff.mp framed
  obtain ⟨columns, eachColumn, columnsText⟩ := Upsert.quotedList_eq_ok_iff.mp columnsQuoted
  obtain ⟨key, eachKey, keyText⟩ := Upsert.quotedList_eq_ok_iff.mp keyQuoted
  have tuples : List.Forall₂ (Reads tuple fun _ => false)
      (((List.range count).map (Upsert.tuple style frame.width)).map String.toList)
      ((List.range count).map (markTuple style frame.width)) := by
    rw [List.map_map, List.forall₂_map_left_iff, List.forall₂_map_right_iff]
    refine List.forall₂_same.mpr fun index _ => reads_tuple ?_ index
    rw [wide]
    exact mt List.length_eq_zero_iff.mp columned
  rw [toList_sql, columnsText, keyText]
  unfold scan
  refine Reads.after _ (Reads.bind (reads_name nameQuoted) (Reads.after _ ?_) fun _ _ =>
    clear_cons.mpr rfl)
  refine Reads.bind (reads_names eachColumn columned) (Reads.after _ ?_) fun _ _ =>
    clear_cons.mpr rfl
  refine Reads.bind (reads_commas rfl tuples (by simpa using some)) (Reads.after _ ?_) fun _ _ =>
    clear_cons.mpr rfl
  refine Reads.bind (reads_names eachKey keyed) (Reads.after _ ?_) fun _ _ => clear_cons.mpr rfl
  rw [wide]
  exact (reads_conflict acts).map (Insertion.mk table.name table.columns
    ((List.range count).map (markTuple style table.columns.length)) table.primaryKey)

/-- The text of an upsert spells the insertion of its rows. -/
theorem ofText_sql {frame : Upsert.Frame} (framed : Upsert.frame table = .ok frame)
    (keyed : table.primaryKey ≠ []) (columned : table.columns ≠ []) (style : PlaceholderStyle)
    {count : Nat} (some : count ≠ 0) :
    ofText (frame.sql style count) = .some (ofTable table style count) :=
  (reads_scan framed keyed columned style some).whole

example :
    ofText "INSERT INTO \"rates\" (\"id\") VALUES ($1), ($2) ON CONFLICT (\"id\") DO NOTHING" =
      some ⟨"rates", ["id"], [[some 0], [some 1]], ["id"], .keep⟩ := by
  decide +kernel

/-! ### Bound values -/

/-- The bound values, tuple by tuple; as many must be bound as there are placeholders. -/
def values? (insertion : Insertion) (params : List Value) : Option (List (List Value)) :=
  let places := insertion.tuples.flatten.zipIdx.map fun (mark, place) => mark.getD place
  if params.length = places.length ∧ ∀ place ∈ places, place < params.length then
    some ((insertion.tuples.map List.length).splitLengths
      (places.map fun place => params.getD place .null))
  else none

/-- In every style the placeholders of an upsert stand for the values in order. -/
theorem places_marks (style : PlaceholderStyle) (count : Nat) :
    (((List.range count).map style.mark).zipIdx.map fun (mark, place) => mark.getD place) =
      List.range count := by
  refine List.ext_getElem (by simp) fun place _ _ => ?_
  cases style <;> simp [PlaceholderStyle.mark]

theorem splitLengths_rowValues (table : ReferenceTable) (rows : List Row) :
    (List.replicate rows.length table.columns.length).splitLengths
      (rows.flatMap (Upsert.rowValues table)) = rows.map (Upsert.rowValues table) := by
  induction rows with
  | nil => rfl
  | cons row rows ih =>
      have wide : (Upsert.rowValues table row).length = table.columns.length := by
        rw [Upsert.rowValues, List.length_map]
      rw [List.length_cons, List.replicate_succ, List.splitLengths_cons, List.flatMap_cons,
        List.take_left' wide, List.drop_left' wide, ih, List.map_cons]

/-- An upsert binds the values of its rows, row by row. -/
theorem values?_ofTable (style : PlaceholderStyle) (rows : List Row) :
    (ofTable table style rows.length).values? (rows.flatMap (Upsert.rowValues table)) =
      some (rows.map (Upsert.rowValues table)) := by
  let params := rows.flatMap (Upsert.rowValues table)
  have bound : params.length = rows.length * table.columns.length := by
    simp [params, Upsert.rowValues, List.length_flatMap]
  have inOrder : ((List.range params.length).map fun place => params.getD place .null) = params :=
    List.ext_getElem (by simp) fun place _ within => by simp [List.getElem?_eq_getElem within]
  have lengths : ((List.range rows.length).map (markTuple style table.columns.length)).map
      List.length = List.replicate rows.length table.columns.length := by
    simp [markTuple, Function.comp_def]
  unfold values? ofTable
  dsimp only
  rw [flatten_markTuples, places_marks, ← bound, inOrder, lengths, splitLengths_rowValues]
  exact if_pos ⟨List.length_range.symm, fun place mem => List.mem_range.mp mem⟩

end Insertion

end ShardFleet
