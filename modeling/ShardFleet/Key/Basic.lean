import ShardFleet.Text.Utf8

/-!
Shard keys: what a shard assignment is computed from.

A key is a number, a text, a byte string, or a row of keys. Keys are totally ordered: numbers
before texts before byte strings before rows, rows part by part. The byte form of a key, which
the digests read, joins the parts of a row by a separator.
-/

namespace ShardFleet

open ShardFleet.Digest (Bytes wordBytes)

/-- The value that a shard assignment is computed from. -/
inductive ShardKey where
  | int (n : Int64)
  | text (s : String)
  | bytes (bs : Bytes)
  /-- Keys in a row, a tenant and a region for instance. -/
  | compound (parts : List ShardKey)
  deriving Repr, Inhabited

namespace ShardKey

/-! ### Byte form -/

/-- The byte between the parts of a row. -/
def separator : UInt8 := 0x1F

mutual

/-- The bytes that the digests read: numbers with the most significant byte first, the parts of
a row joined by the separator. -/
def toBytes : ShardKey → Bytes
  | .int n => (wordBytes n.toUInt64).reverse
  | .text s => Text.utf8 s
  | .bytes bs => bs
  | .compound parts => [separator].intercalate (partBytes parts)
  termination_by structural key => key

/-- The byte forms of keys in a row. -/
def partBytes : List ShardKey → List Bytes
  | [] => []
  | part :: rest => part.toBytes :: partBytes rest
  termination_by structural parts => parts

end

mutual

/-- The key as messages show it; a byte string shows its length only. -/
def display : ShardKey → String
  | .int n => toString n.toInt
  | .text s => s
  | .bytes bs => "<" ++ toString bs.length ++ " bytes>"
  | .compound parts => "(" ++ ", ".intercalate (partTexts parts) ++ ")"
  termination_by structural key => key

def partTexts : List ShardKey → List String
  | [] => []
  | part :: rest => part.display :: partTexts rest
  termination_by structural parts => parts

end

end ShardKey

end ShardFleet
