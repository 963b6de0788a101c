import ShardFleet.Proofs.Wire.Reading
import ShardFleet.Reference.ContentHash

/-!
What a content digest tells apart.

Rows count up to the sign of a zero and the bits of a NaN (`canonicalRow`), and collections of rows
up to their order. The digested stream says exactly that much (`ContentHash.stream_eq_iff`): equal
collections have one stream, and different ones have different streams, so that their digests are
equal only where two different streams have one digest.
-/

namespace ShardFleet

/-! ### Values up to equality -/

/-- Every zero is the positive zero, and every NaN the same NaN. -/
def canonicalNumber (x : Binary64) : Binary64 :=
  if x.isZero then .zero else if x.isNaN then .nan else x

/-- A value up to the sign of a zero and the bits of a NaN. -/
def canonicalValue : Value → Value
  | .float x => .float (canonicalNumber x)
  | value => value

/-- A row up to the signs of its zeros and the bits of its NaNs. -/
def canonicalRow (row : Row) : Row := row.mapValues fun _ value => canonicalValue value

/-- The rows have the same columns, and equal values in them. -/
def Row.Agrees (row other : Row) : Prop :=
  List.Forall₂ (fun entry counterpart => entry.1 = counterpart.1 ∧
    entry.2.agrees counterpart.2 = true) row.entries other.entries

theorem canonicalNumber_of_agrees {x y : Binary64} (agree : x.agrees y = true) :
    canonicalNumber x = canonicalNumber y := by
  simp only [Binary64.agrees, Bool.and_eq_true, Bool.or_eq_true, decide_eq_true_eq] at agree
  rcases agree.2 with rfl | ⟨zero, also⟩
  · rfl
  · simp [canonicalNumber, zero, also]

theorem canonicalValue_of_agrees {value other : Value} (agree : value.agrees other = true) :
    canonicalValue value = canonicalValue other := by
  unfold Value.agrees at agree
  split at agree
  · exact congrArg Value.float (canonicalNumber_of_agrees agree)
  · rw [of_decide_eq_true agree]

theorem Row.Agrees.canonicalRow_eq {row other : Row} (agree : row.Agrees other) :
    canonicalRow row = canonicalRow other := by
  refine OrderedMap.ext_entries ?_
  change row.entries.map (fun entry => (entry.1, canonicalValue entry.2)) =
    other.entries.map fun entry => (entry.1, canonicalValue entry.2)
  unfold Row.Agrees at agree
  generalize row.entries = entries, other.entries = counterparts at agree ⊢
  induction agree with
  | nil => rfl
  | cons same _ ih =>
      rw [List.map_cons, List.map_cons, ih, same.1, canonicalValue_of_agrees same.2]

namespace ContentHash

open Digest (Bytes xxh64 hex)
open Wire (Recovers write)

theorem folded?_getD (value : Value) : (folded? value).getD value = canonicalValue value := by
  cases value with
  | float x =>
      simp only [folded?, foldedNumber?, canonicalValue, canonicalNumber]
      cases x.isZero <;> cases x.isNaN <;> rfl
  | _ => rfl

/-- The form of a row is that of its canonical row, also where nothing is replaced. -/
theorem rowForm_eq (row : Row) : rowForm row = write (canonicalRow row) := by
  have replaced : (row.mapValues fun _ value => (folded? value).getD value) = canonicalRow row := by
    simp only [folded?_getD]
    rfl
  rw [rowForm]
  split
  · rw [replaced]
  · next plain =>
      have kept : ∀ entry ∈ row.entries, (entry.1, canonicalValue entry.2) = entry := by
        intro entry mem
        have unreplaced : folded? entry.2 = none := by
          simp only [OrderedMap.values, List.any_map, List.any_eq_true, not_exists,
            not_and] at plain
          simpa using plain entry mem
        rw [← folded?_getD, unreplaced]
        rfl
      refine congrArg write (OrderedMap.ext_entries ?_)
      exact ((List.map_congr_left kept).trans (List.map_id _)).symm

/-! ### Streams -/

/-- The lengths that the stream of the rows states fit into a word. -/
def Fits (rows : List Row) : Prop :=
  rows.length < UInt64.size ∧ ∀ row ∈ rows, (rowForm row).length < UInt64.size

theorem streamOfForms_eq_write (forms : List Bytes) : streamOfForms forms = write forms := by
  have each : (write : Bytes → Bytes) = fun form => Wire.writeLength form.length ++ form :=
    funext Wire.write_bytes
  change _ = Wire.writeLength forms.length ++ forms.flatMap write
  rw [each]
  rfl

theorem recovers_forms {rows : List Row} (fits : Fits rows) :
    Recovers (sortForms (rows.map rowForm)) := by
  have perm : (sortForms (rows.map rowForm)).Perm (rows.map rowForm) := List.mergeSort_perm _ _
  refine Wire.recovers_list ?_ ?_
  · rw [perm.length_eq, List.length_map]
    exact fits.1
  · intro form mem
    obtain ⟨row, there, rfl⟩ := List.mem_map.mp (perm.mem_iff.mp mem)
    exact Wire.recovers_bytes (fits.2 row there)

theorem recovers_canonicalRow {rows : List Row} (fits : Fits rows) :
    ∀ row ∈ rows.map canonicalRow, Recovers row := by
  intro canonical mem
  obtain ⟨row, there, rfl⟩ := List.mem_map.mp mem
  have short := fits.2 row there
  rw [rowForm_eq] at short
  exact Wire.recovers_row (Wire.row_fits_of_length short)

theorem map_rowForm (rows : List Row) : rows.map rowForm = (rows.map canonicalRow).map write := by
  rw [List.map_map]
  exact List.map_congr_left fun row _ => rowForm_eq row

/-- Collections that are equal, as collections of canonical rows, have one stream. -/
theorem stream_eq_of_perm {rows others : List Row}
    (perm : (rows.map canonicalRow).Perm (others.map canonicalRow)) :
    stream rows = stream others := by
  rw [stream, stream, map_rowForm, map_rowForm]
  exact congrArg streamOfForms (sort_eq_sort_iff.mpr (perm.map write))

/-- The stream tells all other collections apart. -/
theorem perm_of_stream_eq {rows others : List Row} (fits : Fits rows) (alsoFit : Fits others)
    (same : stream rows = stream others) :
    (rows.map canonicalRow).Perm (others.map canonicalRow) := by
  rw [stream, stream, streamOfForms_eq_write, streamOfForms_eq_write] at same
  have forms := (recovers_forms fits).write_inj (recovers_forms alsoFit) same
  have perm := sort_eq_sort_iff.mp forms
  rw [map_rowForm, map_rowForm] at perm
  exact Wire.perm_of_forms (recovers_canonicalRow fits) (recovers_canonicalRow alsoFit) perm

theorem perm_of_agrees {rows others : List Row} (agree : List.Forall₂ Row.Agrees rows others) :
    rows.map canonicalRow = others.map canonicalRow := by
  induction agree with
  | nil => rfl
  | cons same _ ih => rw [List.map_cons, List.map_cons, same.canonicalRow_eq, ih]

/-- Two collections of rows have one stream if and only if they are the same up to the order of the
rows, the signs of zeros and the bits of NaNs; such collections, those whose rows are equal in
pairs among them, have one digest. Others have one digest only if their streams differ and have
one digest all the same. -/
theorem stream_eq_iff {rows others : List Row} (fits : Fits rows) (alsoFit : Fits others) :
    (stream rows = stream others ↔
      (rows.map canonicalRow).Perm (others.map canonicalRow)) ∧
    ((rows.map canonicalRow).Perm (others.map canonicalRow) → ofRows rows = ofRows others) ∧
    (List.Forall₂ Row.Agrees rows others → ofRows rows = ofRows others) ∧
    (¬ (rows.map canonicalRow).Perm (others.map canonicalRow) → ofRows rows = ofRows others →
      stream rows ≠ stream others ∧ xxh64 0 (stream rows) = xxh64 0 (stream others)) := by
  have digest : ∀ {rows others : List Row},
      (rows.map canonicalRow).Perm (others.map canonicalRow) → ofRows rows = ofRows others := by
    intro rows others perm
    rw [ofRows, ofRows, stream_eq_of_perm perm]
  refine ⟨⟨perm_of_stream_eq fits alsoFit, stream_eq_of_perm⟩, digest, ?_, ?_⟩
  · intro agree
    exact digest (perm_of_agrees agree ▸ List.Perm.refl _)
  · intro different same
    constructor
    · intro streams
      exact different (perm_of_stream_eq fits alsoFit streams)
    · exact Digest.hex_injective same

/-- A zero loses its sign, one NaN stands for another, and the rows change places. -/
theorem stream_eq_iff_rates :
    let rated (bits : UInt64) : Row :=
      OrderedMap.ofList [("rate", .float ⟨bits⟩), ("code", .text "DE")]
    let rows := [rated 0, rated 0x7FF8000000000001]
    let others := [rated 0xFFF8000000000000, rated 0x8000000000000000]
    Fits rows ∧ Fits others ∧ stream rows = stream others ∧ ofRows rows = ofRows others ∧
      stream rows ≠ stream [rated 0, rated 0] := by
  intro rated rows others
  have fits : Fits rows := ⟨by decide, by decide +kernel⟩
  have alsoFit : Fits others := ⟨by decide, by decide +kernel⟩
  have zeros : Fits [rated 0, rated 0] := ⟨by decide, by decide +kernel⟩
  have perm : (rows.map canonicalRow).Perm (others.map canonicalRow) := by decide +kernel
  have different : ¬ (rows.map canonicalRow).Perm ([rated 0, rated 0].map canonicalRow) := by
    decide +kernel
  obtain ⟨streams, digests, -, -⟩ := stream_eq_iff fits alsoFit
  exact ⟨fits, alsoFit, streams.mpr perm, digests perm,
    fun same => different ((stream_eq_iff fits zeros).1.mp same)⟩

end ContentHash

end ShardFleet
