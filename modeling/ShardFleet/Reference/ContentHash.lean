import ShardFleet.Wire.Value

/-!
The digest of the content of a table.

Rows count as a collection without order: their binary forms are sorted before they are
digested. Equal numbers count as equal: a zero loses its sign, and every NaN stands for the same
NaN. The digested stream starts with the number of rows, and each row is led by its length, so
different collections have different streams.
-/

namespace ShardFleet.ContentHash

open ShardFleet.Digest (Bytes wordBytes xxh64 hex)

/-- What stands for a number whose equals have other bits. -/
def foldedNumber? (x : Binary64) : Option Binary64 :=
  if x.isZero then some .zero else if x.isNaN then some .nan else none

/-- What stands for a value whose equals have other bits. -/
def folded? : Value → Option Value
  | .float x => (foldedNumber? x).map .float
  | _ => none

/-- The binary form of a row, with what stands for its values; a row in which nothing has to be
replaced is written as it is. -/
def rowForm (row : Row) : Bytes :=
  if row.values.any fun value => (folded? value).isSome then
    Wire.write (row.mapValues fun _ value => (folded? value).getD value)
  else Wire.write row

/-- Puts byte strings in ascending order. -/
def sortForms (forms : List Bytes) : List Bytes :=
  forms.mergeSort fun a b => (compare a b).isLE

/-- The stream of sorted row forms: their number, then each with its length in front. -/
def streamOfForms (forms : List Bytes) : Bytes :=
  wordBytes (UInt64.ofNat forms.length) ++
    forms.flatMap fun form => wordBytes (UInt64.ofNat form.length) ++ form

/-- The stream that is digested for a collection of rows. -/
def stream (rows : List Row) : Bytes :=
  streamOfForms (sortForms (rows.map rowForm))

/-- The digest of a collection of rows. -/
def ofRows (rows : List Row) : String := hex (xxh64 0 (stream rows))

end ShardFleet.ContentHash

namespace ShardFleet

/-- Rows of a reference table with the digest of their content. -/
structure Dataset where
  rows : List Row
  hash : String
  deriving DecidableEq

/-- Rows with the digest of their content. -/
def Dataset.ofRows (rows : List Row) : Dataset := ⟨rows, ContentHash.ofRows rows⟩

end ShardFleet
