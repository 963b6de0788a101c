import Mathlib.Data.List.Basic
import ShardFleet.Key.Order
import ShardFleet.Proofs.Text.Joining

/-!
The byte form of a key, read off its leaves.

Rows in rows leave no trace in the byte form: it is that of the leaves of the key, from left to
right, with the separator between them (`toBytes_eq`). Where the leaves are texts without the
separator they are what the separators leave (`leaves_of_toBytes`), so no two sequences of such
leaves have one byte form (`toBytes_eq_iff`).
-/

namespace ShardFleet.ShardKey

open ShardFleet.Digest (Bytes wordBytes)

/-! ### Leaves -/

mutual

/-- The leaves of a key from left to right. A number, a text, a byte string and a row of nothing
are leaves themselves. -/
def leaves : ShardKey → List ShardKey
  | .int n => [.int n]
  | .text s => [.text s]
  | .bytes bs => [.bytes bs]
  | .compound [] => [.compound []]
  | .compound (part :: rest) => part.leaves ++ partLeaves rest
  termination_by structural key => key

/-- The leaves of keys in a row. -/
def partLeaves : List ShardKey → List ShardKey
  | [] => []
  | part :: rest => part.leaves ++ partLeaves rest
  termination_by structural parts => parts

end

/-- The bytes of a leaf: a row of nothing has none. -/
def leafBytes : ShardKey → Bytes
  | .int n => (wordBytes n.toUInt64).reverse
  | .text s => Text.utf8 s
  | .bytes bs => bs
  | .compound _ => []

/-- A text in whose bytes the separator does not occur. -/
def IsPlainText (key : ShardKey) : Prop := ∃ s, key = .text s ∧ separator ∉ Text.utf8 s

variable {key other : ShardKey} {parts others : List ShardKey}

theorem partLeaves_eq_flatMap (parts : List ShardKey) :
    partLeaves parts = parts.flatMap leaves := by
  induction parts with
  | nil => rfl
  | cons part rest ih => rw [partLeaves, ih, List.flatMap_cons]

/-- The leaves of a row that is not empty are those of its parts. -/
theorem leaves_compound (some : parts ≠ []) : (compound parts).leaves = parts.flatMap leaves := by
  cases parts with
  | nil => exact absurd rfl some
  | cons part rest => rw [leaves, partLeaves_eq_flatMap, List.flatMap_cons]

theorem leaves_ne_nil (key : ShardKey) : key.leaves ≠ [] := by
  match key with
  | .int _ | .text _ | .bytes _ | .compound [] => simp [leaves]
  | .compound (part :: rest) =>
      rw [leaves]
      exact List.append_ne_nil_of_left_ne_nil (leaves_ne_nil part) _

theorem partLeaves_ne_nil (some : parts ≠ []) : partLeaves parts ≠ [] := by
  cases parts with
  | nil => exact absurd rfl some
  | cons part rest => exact List.append_ne_nil_of_left_ne_nil (leaves_ne_nil part) _

/-! ### The byte form -/

mutual

/-- The byte form of a key is that of its leaves, joined by the separator. -/
theorem toBytes_eq (key : ShardKey) :
    key.toBytes = [separator].intercalate (key.leaves.map leafBytes) := by
  cases key with
  | int | text | bytes => simp [toBytes, leaves, leafBytes]
  | compound parts =>
      rw [toBytes, partBytes_eq parts]
      cases parts with
      | nil => rfl
      | cons => rfl
  termination_by structural key

theorem partBytes_eq (parts : List ShardKey) :
    [separator].intercalate (partBytes parts) =
      [separator].intercalate ((partLeaves parts).map leafBytes) := by
  cases parts with
  | nil => rfl
  | cons part rest =>
      rw [partBytes, partLeaves, toBytes_eq part, List.map_append]
      cases rest with
      | nil => simp [partBytes, partLeaves]
      | cons next later =>
          -- A key always has a leaf, so the separator after its bytes stands between leaves too.
          have first : part.leaves.map leafBytes ≠ [] := by simpa using leaves_ne_nil part
          have more : (partLeaves (next :: later)).map leafBytes ≠ [] := by
            simpa using partLeaves_ne_nil (List.cons_ne_nil next later)
          rw [intercalate_append [separator] first more, ← partBytes_eq (next :: later),
            List.intercalate_cons_of_ne_nil (by simp [partBytes])]
  termination_by structural parts

end

/-! ### Leaves read back -/

/-- The text of some bytes, as a key. -/
def ofLeafBytes (bytes : Bytes) : ShardKey := .text ((Text.ofUtf8? bytes).getD "")

theorem ofLeafBytes_leafBytes (plain : key.IsPlainText) : ofLeafBytes key.leafBytes = key := by
  obtain ⟨s, rfl, -⟩ := plain
  rw [leafBytes, ofLeafBytes, Text.ofUtf8?_utf8, Option.getD_some]

/-- Leaves that are plain texts are what the separators of the byte form leave. -/
theorem leaves_of_toBytes (plain : ∀ leaf ∈ key.leaves, leaf.IsPlainText) :
    (key.toBytes.splitOn separator).map ofLeafBytes = key.leaves := by
  have apart : ∀ piece ∈ key.leaves.map leafBytes, separator ∉ piece := by
    intro piece mem
    obtain ⟨leaf, listed, rfl⟩ := List.mem_map.mp mem
    obtain ⟨s, rfl, absent⟩ := plain leaf listed
    exact absent
  have some : key.leaves.map leafBytes ≠ [] := by simpa using leaves_ne_nil key
  rw [toBytes_eq, List.splitOn_intercalate separator apart some, List.map_map]
  calc key.leaves.map (ofLeafBytes ∘ leafBytes)
      = key.leaves.map id :=
        List.map_congr_left fun leaf mem => ofLeafBytes_leafBytes (plain leaf mem)
    _ = key.leaves := List.map_id _

/-- Keys whose leaves are plain texts have one byte form if and only if they have one sequence of
leaves. -/
theorem toBytes_eq_iff (plain : ∀ leaf ∈ key.leaves, leaf.IsPlainText)
    (otherPlain : ∀ leaf ∈ other.leaves, leaf.IsPlainText) :
    key.toBytes = other.toBytes ↔ key.leaves = other.leaves := by
  constructor
  · intro same
    rw [← leaves_of_toBytes plain, ← leaves_of_toBytes otherPlain, same]
  · intro same
    rw [toBytes_eq, toBytes_eq, same]

/-- A row of plain texts has its parts for leaves. -/
theorem leaves_compound_of_plain (some : parts ≠ [])
    (plain : ∀ part ∈ parts, part.IsPlainText) : (compound parts).leaves = parts := by
  have alone : ∀ part ∈ parts, part.leaves = [part] := by
    intro part mem
    obtain ⟨s, rfl, -⟩ := plain part mem
    rfl
  rw [leaves_compound some, List.flatMap_congr alone, List.flatMap_singleton']

/-- The byte form of a key, however deep its rows are, is that of its leaves with the separator
between them. So keys whose leaves are all plain texts have one byte form exactly if they have one
sequence of leaves, and rows of plain texts exactly if they are one row. -/
theorem toBytes_tells_leaves :
    (∀ key : ShardKey, key.toBytes = [separator].intercalate (key.leaves.map leafBytes)) ∧
    (∀ key other : ShardKey, (∀ leaf ∈ key.leaves ++ other.leaves, leaf.IsPlainText) →
      (key.toBytes = other.toBytes ↔ key.leaves = other.leaves)) ∧
    ∀ parts others : List ShardKey, parts ≠ [] → others ≠ [] →
      (∀ part ∈ parts ++ others, part.IsPlainText) →
      ((compound parts).toBytes = (compound others).toBytes ↔ parts = others) := by
  refine ⟨toBytes_eq, ?keys, ?rows⟩
  case keys =>
    intro key other plain
    obtain ⟨left, right⟩ := List.forall_mem_append.mp plain
    exact toBytes_eq_iff left right
  case rows =>
    intro parts others some more plain
    obtain ⟨left, right⟩ := List.forall_mem_append.mp plain
    have leavesLeft := leaves_compound_of_plain some left
    have leavesRight := leaves_compound_of_plain more right
    rw [toBytes_eq_iff (leavesLeft.symm ▸ left) (leavesRight.symm ▸ right), leavesLeft, leavesRight]

/-- A tenant, a region and a zone have one byte form however they are grouped, and another one
than the tenant and the region alone. -/
theorem toBytes_tells_leaves_regrouped :
    (compound [.text "acme", .compound [.text "eu", .text "west"]]).toBytes =
        (compound [.compound [.text "acme", .text "eu"], .text "west"]).toBytes ∧
      (compound [.text "acme", .text "eu"]).toBytes ≠
        (compound [.text "acme", .text "eu", .text "west"]).toBytes := by
  have plain : ∀ s ∈ ["acme", "eu", "west"], separator ∉ Text.utf8 s := by decide
  have keyed : ∀ key ∈ [text "acme", text "eu", text "west"], key.IsPlainText := by
    intro key mem
    obtain ⟨s, listed, rfl⟩ := List.mem_map.mp (show key ∈ ["acme", "eu", "west"].map text from mem)
    exact ⟨s, rfl, plain s listed⟩
  have fewer : ∀ key ∈ [text "acme", text "eu"], key.IsPlainText := fun key mem =>
    keyed key (List.mem_append_left [text "west"] mem)
  obtain ⟨-, nested, rows⟩ := toBytes_tells_leaves
  constructor
  · exact (nested (compound [.text "acme", .compound [.text "eu", .text "west"]])
      (compound [.compound [.text "acme", .text "eu"], .text "west"])
      (List.forall_mem_append.mpr ⟨keyed, keyed⟩)).mpr rfl
  · refine mt (rows _ _ ?_ ?_ (List.forall_mem_append.mpr ⟨fewer, keyed⟩)).mp ?_ <;> simp

end ShardFleet.ShardKey
