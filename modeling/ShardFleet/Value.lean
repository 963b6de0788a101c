import ShardFleet.Digest.Xxh64
import ShardFleet.OrderedMap

/-!
Column values and rows.

A float is kept as the bits of its binary64 form, so the sign of a zero and the payload of a
NaN are part of the value. Comparison of values as numbers is `agrees`: there the two zeros are
equal and a NaN agrees with nothing. A row is an ordered map, so the order in which its columns
were given is no part of it.
-/

namespace ShardFleet

open ShardFleet.Digest (Bytes)

/-- A binary64 number, by its bits. -/
structure Binary64 where
  bits : UInt64
  deriving DecidableEq, Repr, Inhabited

namespace Binary64

/-- The bits without the sign. -/
def magnitude (x : Binary64) : UInt64 := x.bits &&& 0x7FFFFFFFFFFFFFFF

def isZero (x : Binary64) : Bool := x.magnitude = 0

def isNaN (x : Binary64) : Bool := 0x7FF0000000000000 < x.magnitude

def zero : Binary64 := ⟨0⟩

/-- The NaN that stands for every NaN. -/
def nan : Binary64 := ⟨0x7FF8000000000000⟩

/-- Numeric equality. -/
def agrees (x y : Binary64) : Bool := !x.isNaN && !y.isNaN && (x = y || (x.isZero && y.isZero))

end Binary64

/-- A column value. -/
inductive Value where
  | null
  | bool (b : Bool)
  | int (n : Int64)
  | float (x : Binary64)
  | text (s : String)
  | bytes (bs : Bytes)
  deriving DecidableEq, Repr, Inhabited

namespace Value

def isNull : Value → Bool
  | .null => true
  | _ => false

def text? : Value → Option String
  | .text s => some s
  | _ => none

def int? : Value → Option Int64
  | .int n => some n
  | _ => none

/-- A flag; some providers report flags as numbers, some as words. -/
def bool? : Value → Option Bool
  | .bool b => some b
  | .int n => some (n ≠ 0)
  | .text s =>
      let word := s.toUpper
      if word = "YES" ∨ word = "TRUE" ∨ word = "1" then some true
      else if word = "NO" ∨ word = "FALSE" ∨ word = "0" then some false
      else none
  | _ => none

/-- An unsigned word keeps its bits. -/
def ofWord (n : UInt64) : Value := .int n.toInt64

/-- Equality of values as data: floats compare as numbers, all else by content. -/
def agrees : Value → Value → Bool
  | .float x, .float y => x.agrees y
  | a, b => a = b

end Value

/-- A row, by column name. -/
abbrev Row := OrderedMap String Value

end ShardFleet
