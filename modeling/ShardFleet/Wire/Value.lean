import ShardFleet.Value
import ShardFleet.Wire.Basic

/-! The binary form of column values: the number of the kind of value, then its content. -/

namespace ShardFleet.Wire

instance : Form Binary64 where
  write x := write x.bits
  read := return ⟨← read⟩

/-- The number that leads the form of a value. -/
def kindOf : Value → UInt32
  | .null => 0
  | .bool _ => 1
  | .int _ => 2
  | .float _ => 3
  | .text _ => 4
  | .bytes _ => 5

/-- The content that follows the number. -/
def writeContent : Value → Digest.Bytes
  | .null => []
  | .bool b => write b
  | .int n => write n
  | .float x => write x
  | .text s => write s
  | .bytes bs => write bs

/-- Reads the content of a value of the given kind. -/
def readContent (kind : UInt32) : Reader Value :=
  if kind = 0 then return .null
  else if kind = 1 then return .bool (← read)
  else if kind = 2 then return .int (← read)
  else if kind = 3 then return .float (← read)
  else if kind = 4 then return .text (← read)
  else if kind = 5 then return .bytes (← read)
  else Reader.fail (.invalidVariant kind 6)

instance : Form Value where
  write value := write (kindOf value) ++ writeContent value
  read := do readContent (← read)

end ShardFleet.Wire
