import ShardFleet.Migration.Basic
import ShardFleet.Proofs.Wire.Reading
import ShardFleet.Reference.Table

/-!
Forms show where they end.

A reader that succeeds takes no notice of what follows the bytes that it has taken
(`Wire.Steady`); this is kept when readers follow one another, so all readers have it
(`Wire.Framed`). A value that is read back from its form is therefore not read from less than its
form, and the form of one value does not begin the form of another (`legible_of_recovers`). The
main statement is that of all data with a binary form (`forms_legible`).
-/

namespace ShardFleet

/-- The length of the text fits into a word. -/
def Text.Fits (s : String) : Prop := (Text.utf8 s).length < UInt64.size

instance (s : String) : Decidable (Text.Fits s) :=
  inferInstanceAs (Decidable ((Text.utf8 s).length < UInt64.size))

/-- The length of the name fits into a word. -/
def ShardId.Fits (id : ShardId) : Prop := Text.Fits id.name

/-- The number of rows and the lengths in them fit into a word. -/
def Row.AllFit (rows : List Row) : Prop := rows.length < UInt64.size ∧ ∀ row ∈ rows, row.Fits

/-- The lengths in the migration fit into a word. -/
structure Migration.Fits (migration : Migration) : Prop where
  id : Text.Fits migration.id
  description : Text.Fits migration.description
  up : Text.Fits migration.up
  down : Text.Fits migration.down
  checksum : Text.Fits migration.checksum

/-- The lengths in the record fit into a word. -/
structure MigrationRecord.Fits (record : MigrationRecord) : Prop where
  id : Text.Fits record.id
  description : Text.Fits record.description
  checksum : Text.Fits record.checksum

/-- The lengths in the definition of the table fit into a word. -/
structure ReferenceTable.Fits (table : ReferenceTable) : Prop where
  name : Text.Fits table.name
  keys : table.primaryKey.length < UInt64.size ∧ ∀ column ∈ table.primaryKey, Text.Fits column
  columns : table.columns.length < UInt64.size ∧ ∀ column ∈ table.columns, Text.Fits column

namespace Wire

open Digest (Bytes)

variable {α β : Type}

/-! ### Readers -/

/-- Bytes put behind the input of a successful read are left over, and change nothing else. -/
def Steady (reader : Reader α) : Prop :=
  ∀ (input rest : Bytes) (value : α), reader input = .ok (value, rest) →
    ∀ more, reader (input ++ more) = .ok (value, rest ++ more)

theorem steady_pure (value : α) : Steady (pure value : Reader α) := by
  intro input rest other reads more
  cases reads
  rfl

theorem steady_fail (defect : Defect) : Steady (Reader.fail defect : Reader α) := nofun

/-- Steady readers one after another. -/
theorem Steady.bind {reader : Reader α} {next : α → Reader β} (first : Steady reader)
    (onward : ∀ value, Steady (next value)) : Steady (reader >>= next) := by
  intro input rest result reads more
  change (reader input >>= fun taken => next taken.1 taken.2) = _ at reads
  cases taken : reader input with
  | error defect =>
      rw [taken] at reads
      cases reads
  | ok found =>
      rw [taken] at reads
      exact (bind_of_ok (first _ _ _ taken more)).trans (onward found.1 _ _ _ reads more)

theorem Steady.map {reader : Reader α} (first : Steady reader) (f : α → β) :
    Steady (do return f (← reader)) :=
  first.bind fun value => steady_pure (f value)

theorem Steady.ite {condition : Prop} [Decidable condition] {one other : Reader α}
    (first : Steady one) (second : Steady other) :
    Steady (if condition then one else other) := by
  split
  · exact first
  · exact second

theorem steady_take (n : Nat) (missing : Defect) : Steady (take n missing) := by
  intro input rest value reads more
  unfold take at reads ⊢
  split at reads
  · cases reads
  · next enough =>
      cases reads
      rw [if_neg (by rw [List.length_append]; omega), List.take_append_of_le_length (by omega),
        List.drop_append_of_le_length (by omega)]

theorem Steady.readMany {reader : Reader α} (one : Steady reader) (n : Nat) :
    Steady (readMany reader n) := by
  induction n with
  | zero => exact steady_pure []
  | succ n ih => exact one.bind fun first => ih.map (first :: ·)

/-! ### Types whose readers are steady -/

/-- A type whose values are read without regard to what follows them. -/
class Framed (α : Type) [Form α] : Prop where
  steady : Steady (read (α := α))

instance : Framed UInt8 where
  steady := by
    intro input rest value reads more
    cases input with
    | nil => cases reads
    | cons b tail =>
        cases reads
        rfl

instance : Framed UInt64 where
  steady := (steady_take 8 .endOfInput).map _

instance : Framed UInt32 where
  steady := (steady_take 4 .endOfInput).map _

instance : Framed Int64 where
  steady := (Framed.steady (α := UInt64)).map _

instance : Framed Bool where
  steady := (Framed.steady (α := UInt8)).bind fun found =>
    (steady_pure false).ite ((steady_pure true).ite (steady_fail (.invalidFlag found)))

instance : Framed Binary64 where
  steady := (Framed.steady (α := UInt64)).map _

theorem steady_readLength : Steady readLength := (Framed.steady (α := UInt64)).map _

instance : Framed String where
  steady := steady_readLength.bind fun n => (steady_take n .shortText).bind fun bytes => by
    split
    · exact steady_pure _
    · exact steady_fail _

instance : Framed ShardId where
  steady := (Framed.steady (α := String)).map _

instance [Form α] [Framed α] : Framed (List α) where
  steady := steady_readLength.bind (Framed.steady (α := α)).readMany

instance [Form α] [Framed α] : Framed (Option α) where
  steady := (Framed.steady (α := UInt8)).bind fun found =>
    (steady_pure none).ite
      (((Framed.steady (α := α)).map some).ite (steady_fail (.invalidPresence found)))

instance [Form α] [Form β] [Framed α] [Framed β] : Framed (α × β) where
  steady := (Framed.steady (α := α)).bind fun first =>
    (Framed.steady (α := β)).map fun second => (first, second)

instance [Ord α] [Std.TransOrd α] [Form α] [Form β] [Framed α] [Framed β] :
    Framed (OrderedMap α β) where
  steady := (Framed.steady (α := List (α × β))).map _

theorem steady_readContent (kind : UInt32) : Steady (readContent kind) := by
  refine (steady_pure Value.null).ite (((Framed.steady (α := Bool)).map Value.bool).ite ?_)
  refine ((Framed.steady (α := Int64)).map Value.int).ite ?_
  refine ((Framed.steady (α := Binary64)).map Value.float).ite ?_
  refine ((Framed.steady (α := String)).map Value.text).ite ?_
  exact ((Framed.steady (α := Bytes)).map Value.bytes).ite (steady_fail _)

instance : Framed Value where
  steady := (Framed.steady (α := UInt32)).bind steady_readContent

instance : Framed Migration where
  steady := by
    refine (Framed.steady (α := String)).bind fun id => ?_
    refine (Framed.steady (α := String)).bind fun description => ?_
    refine (Framed.steady (α := String)).bind fun up => ?_
    refine (Framed.steady (α := String)).bind fun down => ?_
    exact (Framed.steady (α := String)).map _

instance : Framed MigrationRecord where
  steady := by
    refine (Framed.steady (α := String)).bind fun id => ?_
    refine (Framed.steady (α := String)).bind fun description => ?_
    refine (Framed.steady (α := String)).bind fun checksum => ?_
    refine (Framed.steady (α := UInt64)).bind fun appliedAt => ?_
    refine (Framed.steady (α := UInt64)).bind fun duration => ?_
    exact (Framed.steady (α := Option UInt64)).map _

instance : Framed ReferenceTable where
  steady := by
    refine (Framed.steady (α := String)).bind fun name => ?_
    refine (Framed.steady (α := List String)).bind fun primaryKey => ?_
    exact (Framed.steady (α := List String)).map _

/-! ### What is read back -/

theorem recovers_shardId {id : ShardId} (fits : id.Fits) : Recovers id :=
  fun rest => map_of_ok (recovers_text fits rest)

theorem recovers_rows {rows : List Row} (fits : Row.AllFit rows) : Recovers rows :=
  recovers_list fits.1 fun row mem => recovers_row (fits.2 row mem)

theorem recovers_option [Form α] {found : Option α} (recovers : ∀ x ∈ found, Recovers x) :
    Recovers found := by
  intro rest
  cases found with
  | none => rfl
  | some x =>
      refine (bind_of_ok (recovers_byte 1 (write x ++ rest))).trans ?_
      exact map_of_ok (recovers x rfl rest)

theorem recovers_migration {migration : Migration} (fits : migration.Fits) :
    Recovers migration := by
  obtain ⟨id, description, up, down, checksum⟩ := fits
  intro rest
  change read ((_ ++ _ ++ _ ++ _ ++ _) ++ rest) = _
  simp only [List.append_assoc]
  refine (bind_of_ok (recovers_text id _)).trans ?_
  refine (bind_of_ok (recovers_text description _)).trans ?_
  refine (bind_of_ok (recovers_text up _)).trans ?_
  refine (bind_of_ok (recovers_text down _)).trans ?_
  exact map_of_ok (recovers_text checksum rest)

theorem recovers_record {record : MigrationRecord} (fits : record.Fits) : Recovers record := by
  obtain ⟨id, description, checksum⟩ := fits
  intro rest
  change read ((_ ++ _ ++ _ ++ _ ++ _ ++ _) ++ rest) = _
  simp only [List.append_assoc]
  refine (bind_of_ok (recovers_text id _)).trans ?_
  refine (bind_of_ok (recovers_text description _)).trans ?_
  refine (bind_of_ok (recovers_text checksum _)).trans ?_
  refine (bind_of_ok (recovers_word record.appliedAt _)).trans ?_
  refine (bind_of_ok (recovers_word record.duration _)).trans ?_
  exact map_of_ok (recovers_option (fun stamp _ => recovers_word stamp) rest)

theorem recovers_table {table : ReferenceTable} (fits : table.Fits) : Recovers table := by
  obtain ⟨name, keys, columns⟩ := fits
  intro rest
  change read ((_ ++ _ ++ _) ++ rest) = _
  simp only [List.append_assoc]
  refine (bind_of_ok (recovers_text name _)).trans ?_
  refine (bind_of_ok (recovers_list keys.1 (fun column mem => recovers_text (keys.2 column mem))
    _)).trans ?_
  exact map_of_ok
    (recovers_list columns.1 (fun column mem => recovers_text (columns.2 column mem)) rest)

/-! ### Where a form ends -/

/-- What fits is decoded from its form, whatever follows it. A form that was cut short is refused,
and no form begins the form of anything else. -/
structure Legible (α : Type) [Form α] (fits : α → Prop) : Prop where
  decodes : ∀ x, fits x → ∀ rest, decode (write x ++ rest) = .ok x
  refuses : ∀ x, fits x → ∀ front, front <+: write x → front ≠ write x →
    ∃ reason, decode (α := α) front = .error (.serialization reason)
  apart : ∀ x y, fits x → fits y → write x <+: write y → x = y

theorem decode_of_ok [Form α] {input rest : Bytes} {x : α} (reads : read input = .ok (x, rest)) :
    decode input = .ok x := by
  rw [decode, reads]

/-- Nothing is read from less than a form: what follows would be left over from the form. -/
theorem Recovers.refused [Form α] [Framed α] {x : α} (recovers : Recovers x) {front : Bytes}
    (short : front <+: write x) (proper : front ≠ write x) :
    ∃ reason, decode (α := α) front = .error (.serialization reason) := by
  obtain ⟨missing, whole⟩ := short
  unfold decode
  cases reads : read (α := α) front with
  | error defect => exact ⟨defect.message, rfl⟩
  | ok found =>
      have extended := Framed.steady _ _ _ reads missing
      have full := recovers []
      rw [List.append_nil, ← whole, extended] at full
      have nothing : found.2 ++ missing = [] := congrArg Prod.snd (Except.ok.inj full)
      have none : missing = [] := (List.append_eq_nil_iff.mp nothing).2
      rw [none, List.append_nil] at whole
      exact absurd whole proper

theorem Recovers.eq_of_isPrefix [Form α] {x y : α} (recovers : Recovers x) (also : Recovers y)
    (begins : write x <+: write y) : x = y := by
  obtain ⟨more, whole⟩ := begins
  have full := also []
  rw [List.append_nil, ← whole, recovers more] at full
  exact congrArg Prod.fst (Except.ok.inj full)

theorem legible_of_recovers [Form α] [Framed α] {fits : α → Prop}
    (recovers : ∀ x, fits x → Recovers x) : Legible α fits where
  decodes x short rest := decode_of_ok (recovers x short rest)
  refuses x short _ front proper := (recovers x short).refused front proper
  apart x y short also := (recovers x short).eq_of_isPrefix (recovers y also)

/-- The binary form of everything that has one shows what it is the form of and where it ends, as
long as the lengths in it fit into a word. -/
theorem forms_legible :
    Legible ShardId ShardId.Fits ∧ Legible Value Value.Fits ∧ Legible Row Row.Fits ∧
      Legible (List Row) Row.AllFit ∧ Legible Migration Migration.Fits ∧
      Legible ReferenceTable ReferenceTable.Fits ∧ Legible MigrationRecord MigrationRecord.Fits :=
  ⟨legible_of_recovers fun _ => recovers_shardId, legible_of_recovers fun _ => recovers_value,
    legible_of_recovers fun _ => recovers_row, legible_of_recovers fun _ => recovers_rows,
    legible_of_recovers fun _ => recovers_migration, legible_of_recovers fun _ => recovers_table,
    legible_of_recovers fun _ => recovers_record⟩

/-- The record of a migration that was rolled back, with a byte too many and a byte too few. -/
theorem forms_legible_stamped :
    let record : MigrationRecord := ⟨"1", "accounts", "11", 5, 2, some 9⟩
    record.Fits ∧ decode (write record ++ [255]) = .ok record ∧
      ∃ reason, decode (α := MigrationRecord) (write record).dropLast =
        .error (.serialization reason) := by
  intro record
  have fits : record.Fits := ⟨by decide, by decide, by decide⟩
  obtain ⟨-, -, -, -, -, -, records⟩ := forms_legible
  refine ⟨fits, records.decodes record fits [255], ?_⟩
  exact records.refuses record fits _ (List.dropLast_prefix _) (by decide)

end Wire

end ShardFleet
