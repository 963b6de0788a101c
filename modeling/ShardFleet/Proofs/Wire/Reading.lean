import Mathlib.Data.List.Perm.Basic
import ShardFleet.Proofs.Digest
import ShardFleet.Proofs.OrderedMap
import ShardFleet.Wire.Value

/-!
Forms read back.

Reading takes a value off the front of its form and leaves what follows (`Wire.Recovers`), as long
as the lengths that are written fit into a word. So values with the same form are equal
(`Recovers.write_inj`), and a list of forms one after another falls apart in one way only.
-/

namespace ShardFleet

/-- The lengths in the value fit into a word. -/
def Value.Fits : Value → Prop
  | .text s => (Text.utf8 s).length < UInt64.size
  | .bytes bs => bs.length < UInt64.size
  | _ => True

/-- The lengths in the row fit into a word. -/
def Row.Fits (row : Row) : Prop :=
  row.entries.length < UInt64.size ∧
    ∀ entry ∈ row.entries, (Text.utf8 entry.1).length < UInt64.size ∧ entry.2.Fits

namespace Wire

open Digest (Bytes wordBytes ofBytes)

/-- The value is read back from its form, whatever follows it. -/
def Recovers {α : Type} [Form α] (x : α) : Prop :=
  ∀ rest : Bytes, read (write x ++ rest) = .ok (x, rest)

theorem Recovers.write_inj {α : Type} [Form α] {x y : α} (recovers : Recovers x)
    (also : Recovers y) (same : write x = write y) : x = y := by
  have first := recovers []
  rw [same, also []] at first
  exact (congrArg Prod.fst (Except.ok.inj first)).symm

/-- Things whose forms are the same up to their order are themselves so. -/
theorem perm_of_forms {α : Type} [Form α] {xs ys : List α} (recovers : ∀ x ∈ xs, Recovers x)
    (also : ∀ y ∈ ys, Recovers y) (perm : (xs.map write).Perm (ys.map write)) : xs.Perm ys := by
  let value (bytes : Bytes) : Option α := (read bytes).toOption.map Prod.fst
  have back : ∀ zs : List α, (∀ z ∈ zs, Recovers z) → (zs.map write).map value = zs.map some := by
    intro zs recovers
    rw [List.map_map]
    refine List.map_congr_left ?_
    intro z mem
    have read := recovers z mem []
    rw [List.append_nil] at read
    simp only [Function.comp_apply, value, read]
    rfl
  have values := perm.map value
  rw [back xs recovers, back ys also] at values
  exact (List.map_perm_map_iff fun _ _ => Option.some.inj).mp values

/-! ### Reading step by step -/

section Steps

variable {α β : Type} {input rest : Bytes}

theorem bind_of_ok {reader : Reader α} {next : α → Reader β} {x : α}
    (first : reader input = .ok (x, rest)) : (reader >>= next) input = next x rest := by
  change (reader input >>= fun taken => next taken.1 taken.2) = _
  rw [first]
  rfl

theorem map_of_ok {reader : Reader α} {f : α → β} {x : α} (first : reader input = .ok (x, rest)) :
    (do return f (← reader)) input = .ok (f x, rest) :=
  bind_of_ok first

theorem take_append {front : Bytes} {n : Nat} (width : front.length = n) (missing : Defect) :
    take n missing (front ++ rest) = .ok (front, rest) := by
  subst width
  simp [take]

end Steps

/-! ### Numbers and flags -/

theorem recovers_byte (b : UInt8) : Recovers b := fun _ => rfl

theorem recovers_word (w : UInt64) : Recovers w := by
  intro rest
  refine (map_of_ok (take_append (by simp [write, wordBytes]) _)).trans ?_
  exact congrArg (fun read => Except.ok (read, rest)) (Digest.ofBytes_wordBytes w)

theorem recovers_half (n : UInt32) : Recovers n := by
  intro rest
  refine (map_of_ok (take_append (by simp [write, wordBytes]) _)).trans ?_
  have value : (ofBytes ((wordBytes n.toUInt64).take 4)).toUInt32 = n := by
    have bound := n.toNat_lt
    refine UInt32.toNat_inj.mp ?_
    rw [UInt64.toNat_toUInt32, Digest.toNat_ofBytes (by simp [wordBytes])]
    simp only [wordBytes, List.take_succ_cons, List.take_zero, Digest.numeral,
      UInt64.toNat_toUInt8, UInt64.toNat_shiftRight, UInt32.toNat_toUInt64, UInt64.reduceToNat,
      Nat.reduceMod, Nat.shiftRight_eq_div_pow]
    omega
  exact congrArg (fun read => Except.ok (read, rest)) value

theorem recovers_int64 (n : Int64) : Recovers n := by
  intro rest
  refine (map_of_ok (recovers_word n.toUInt64 rest)).trans ?_
  simp

theorem recovers_bool (b : Bool) : Recovers b := by
  intro rest
  refine (bind_of_ok (recovers_byte (if b then 1 else 0) rest)).trans ?_
  cases b <;> rfl

theorem recovers_number (x : Binary64) : Recovers x :=
  fun rest => map_of_ok (recovers_word x.bits rest)

/-! ### Lengths, text, lists, maps -/

theorem readLength_append {n : Nat} (fits : n < UInt64.size) (rest : Bytes) :
    readLength (writeLength n ++ rest) = .ok (n, rest) := by
  refine (map_of_ok (recovers_word (UInt64.ofNat n) rest)).trans ?_
  rw [UInt64.toNat_ofNat_of_lt' fits]

theorem recovers_text {s : String} (fits : (Text.utf8 s).length < UInt64.size) : Recovers s := by
  intro rest
  have length := readLength_append fits (Text.utf8 s ++ rest)
  rw [← List.append_assoc] at length
  refine (bind_of_ok length).trans ((bind_of_ok (take_append rfl .shortText)).trans ?_)
  rw [Text.ofUtf8?_utf8]
  rfl

theorem readMany_append {α : Type} [Form α] {xs : List α} (recovers : ∀ x ∈ xs, Recovers x)
    (rest : Bytes) : readMany read xs.length (xs.flatMap write ++ rest) = .ok (xs, rest) := by
  induction xs with
  | nil => rfl
  | cons x xs ih =>
      obtain ⟨first, others⟩ := List.forall_mem_cons.mp recovers
      rw [List.flatMap_cons, List.append_assoc]
      exact (bind_of_ok (first _)).trans (map_of_ok (ih others))

theorem recovers_list {α : Type} [Form α] {xs : List α} (fits : xs.length < UInt64.size)
    (recovers : ∀ x ∈ xs, Recovers x) : Recovers xs := by
  intro rest
  have length := readLength_append fits (xs.flatMap write ++ rest)
  rw [← List.append_assoc] at length
  exact (bind_of_ok length).trans (readMany_append recovers rest)

theorem recovers_pair {α β : Type} [Form α] [Form β] {x : α} {y : β} (first : Recovers x)
    (second : Recovers y) : Recovers (x, y) := by
  intro rest
  have start := first (write y ++ rest)
  rw [← List.append_assoc] at start
  exact (bind_of_ok start).trans (map_of_ok (second rest))

theorem recovers_map {κ ν : Type} [Ord κ] [Std.TransOrd κ] [Form κ] [Form ν]
    {map : OrderedMap κ ν} (fits : map.entries.length < UInt64.size)
    (recovers : ∀ entry ∈ map.entries, Recovers entry.1 ∧ Recovers entry.2) : Recovers map := by
  have entries : Recovers map.entries := by
    refine recovers_list fits ?_
    intro entry mem
    exact recovers_pair (recovers entry mem).1 (recovers entry mem).2
  intro rest
  refine (map_of_ok (entries rest)).trans ?_
  rw [OrderedMap.ofList_entries]

theorem recovers_bytes {bs : Bytes} (fits : bs.length < UInt64.size) : Recovers bs :=
  recovers_list fits fun b _ => recovers_byte b

/-! ### Values and rows -/

theorem recovers_value {value : Value} (fits : value.Fits) : Recovers value := by
  have content : ∀ rest, readContent (kindOf value) (writeContent value ++ rest) =
      .ok (value, rest) := by
    intro rest
    cases value with
    | null => rfl
    | bool b => exact map_of_ok (recovers_bool b rest)
    | int n => exact map_of_ok (recovers_int64 n rest)
    | float x => exact map_of_ok (recovers_number x rest)
    | text s => exact map_of_ok (recovers_text fits rest)
    | bytes bs => exact map_of_ok (recovers_bytes fits rest)
  intro rest
  have kind := recovers_half (kindOf value) (writeContent value ++ rest)
  rw [← List.append_assoc] at kind
  exact (bind_of_ok kind).trans (content rest)

theorem recovers_row {row : Row} (fits : row.Fits) : Recovers row := by
  refine recovers_map fits.1 ?_
  intro entry mem
  obtain ⟨name, value⟩ := fits.2 entry mem
  exact ⟨recovers_text name, recovers_value value⟩

/-! ### Lengths of forms -/

theorem length_word (n : Nat) : (writeLength n).length = 8 := rfl

theorem write_bytes (bs : Bytes) : write bs = writeLength bs.length ++ bs := by
  change writeLength bs.length ++ bs.flatMap (fun b => [b]) = _
  rw [List.flatMap_singleton']

theorem length_write_text (s : String) : (write s).length = 8 + (Text.utf8 s).length := by
  change (writeLength _ ++ Text.utf8 s).length = _
  rw [List.length_append, length_word]

/-- The form of a thing is part of the form of a list that has it. -/
theorem length_write_le_of_mem {α : Type} [Form α] {xs : List α} {x : α} (mem : x ∈ xs) :
    (write x).length ≤ (xs.flatMap write).length := by
  obtain ⟨before, after, rfl⟩ := List.append_of_mem mem
  simp only [List.flatMap_append, List.flatMap_cons, List.length_append]
  omega

/-- A list of things whose forms are not empty is no longer than their forms. -/
theorem length_le_of_write_ne_nil {α : Type} [Form α] {xs : List α}
    (some : ∀ x : α, write x ≠ []) : xs.length ≤ (xs.flatMap write).length := by
  induction xs with
  | nil => simp
  | cons x xs ih =>
      have pos := List.length_pos_of_ne_nil (some x)
      rw [List.flatMap_cons, List.length_append, List.length_cons]
      omega

theorem value_fits_of_length {value : Value} (short : (write value).length < UInt64.size) :
    value.Fits := by
  change (write (kindOf value) ++ writeContent value).length < UInt64.size at short
  rw [List.length_append] at short
  cases value with
  | text s =>
      have content : (writeContent (.text s)).length = 8 + (Text.utf8 s).length :=
        length_write_text s
      simp only [Value.Fits]
      omega
  | bytes bs =>
      have content : (writeContent (.bytes bs)).length = 8 + bs.length := by
        change (write bs).length = _
        rw [write_bytes, List.length_append, length_word]
      simp only [Value.Fits]
      omega
  | _ => trivial

/-- A row fits if its form is short enough, for all of its lengths are those of parts of it. -/
theorem row_fits_of_length {row : Row} (short : (write row).length < UInt64.size) : row.Fits := by
  change (writeLength row.entries.length ++ row.entries.flatMap write).length < UInt64.size at short
  rw [List.length_append, length_word] at short
  have pair : ∀ entry : String × Value,
      (write entry).length = 8 + (Text.utf8 entry.1).length + (write entry.2).length := by
    intro entry
    change (write entry.1 ++ write entry.2).length = _
    rw [List.length_append, length_write_text]
  constructor
  · have count : row.entries.length ≤ (row.entries.flatMap write).length := by
      refine length_le_of_write_ne_nil ?_
      intro entry nothing
      have width := pair entry
      rw [nothing, List.length_nil] at width
      omega
    omega
  · intro entry mem
    have part := length_write_le_of_mem mem
    have width := pair entry
    exact ⟨by omega, value_fits_of_length (by omega)⟩

end Wire

end ShardFleet
