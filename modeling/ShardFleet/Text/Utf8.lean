import ShardFleet.Digest.Xxh64

/-!
Text as UTF-8 bytes, and where a byte string stops being UTF-8.

A sequence is led by a byte that says how long it is; the second byte has a range of its own
after some leads (no overlong forms, no surrogates, nothing above U+10FFFF), the others are
continuation bytes. A defect names the index of the lead, and how many bytes from there are
certainly wrong, or that the input ends inside the sequence.
-/

namespace ShardFleet.Text

open ShardFleet.Digest (Bytes)

/-- The UTF-8 bytes of a string. -/
def utf8 (s : String) : Bytes := s.toByteArray.data.toList

/-- Why bytes are no UTF-8. -/
inductive Utf8Defect where
  | invalid (length index : Nat)
  | incomplete (index : Nat)
  deriving DecidableEq, Repr

def Utf8Defect.message : Utf8Defect → String
  | .invalid length index =>
      "invalid utf-8 sequence of " ++ toString length ++ " bytes from index " ++ toString index
  | .incomplete index => "incomplete utf-8 byte sequence from index " ++ toString index

/-- The ranges of the bytes that follow a lead byte; none for a byte that cannot lead. -/
def followRanges (lead : UInt8) : Option (List (UInt8 × UInt8)) :=
  let any : UInt8 × UInt8 := (0x80, 0xBF)
  if lead ≤ 0x7F then some []
  else if lead < 0xC2 then none
  else if lead ≤ 0xDF then some [any]
  else if lead = 0xE0 then some [(0xA0, 0xBF), any]
  else if lead = 0xED then some [(0x80, 0x9F), any]
  else if lead ≤ 0xEF then some [any, any]
  else if lead = 0xF0 then some [(0x90, 0xBF), any, any]
  else if lead ≤ 0xF3 then some [any, any, any]
  else if lead = 0xF4 then some [(0x80, 0x8F), any, any]
  else none

/-- Matches bytes against the ranges after a lead at `index`, `taken` bytes into the sequence. -/
def followDefect (index taken : Nat) : List (UInt8 × UInt8) → Bytes → Option Utf8Defect
  | [], _ => none
  | _ :: _, [] => some (.incomplete index)
  | (low, high) :: ranges, b :: rest =>
      if low ≤ b ∧ b ≤ high then followDefect index (taken + 1) ranges rest
      else some (.invalid taken index)

/-- The first defect at or after `index`, skipping the bytes of the sequence being read. -/
def utf8DefectFrom (index : Nat) (skip : Nat) : Bytes → Option Utf8Defect
  | [] => none
  | b :: rest =>
      match skip with
      | skip + 1 => utf8DefectFrom (index + 1) skip rest
      | 0 =>
          match followRanges b with
          | none => some (.invalid 1 index)
          | some ranges =>
              match followDefect index 1 ranges rest with
              | some defect => some defect
              | none => utf8DefectFrom (index + 1) ranges.length rest

/-- The first place where bytes stop being UTF-8. -/
def utf8Defect (bytes : Bytes) : Option Utf8Defect := utf8DefectFrom 0 0 bytes

/-- The string that bytes spell. -/
def ofUtf8? (bytes : Bytes) : Option String := String.fromUTF8? ⟨bytes.toArray⟩

/-- Every string is read back from its bytes. -/
@[simp] theorem ofUtf8?_utf8 (s : String) : ofUtf8? (utf8 s) = some s := by
  have whole : (⟨(utf8 s).toArray⟩ : ByteArray) = s.toByteArray := by simp [utf8]
  rw [ofUtf8?, whole, String.fromUTF8?, dif_pos s.isValidUTF8]
  rfl

end ShardFleet.Text
