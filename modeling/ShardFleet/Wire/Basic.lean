import ShardFleet.Error
import ShardFleet.OrderedMap
import ShardFleet.Text.Utf8

/-!
The binary form of data: writers, and readers that take a value off the front of the input.

Numbers have a fixed width, least significant byte first. Text, lists and maps carry their
length in front as a 64-bit word, an optional value a byte that says whether it is there. A
reader leaves what follows the value, so forms are put one after another without separators.
-/

namespace ShardFleet.Wire

open ShardFleet.Digest (Bytes wordBytes ofBytes)

/-- Why input is not the form of a value. -/
inductive Defect where
  | endOfInput
  /-- A text claims more bytes than are left. -/
  | shortText
  | invalidFlag (found : UInt8)
  | invalidPresence (found : UInt8)
  | invalidVariant (found : UInt32) (variants : Nat)
  | invalidText (defect : Text.Utf8Defect)
  deriving DecidableEq, Repr

def Defect.message : Defect → String
  | .endOfInput => "io error: unexpected end of file"
  | .shortText => "io error: "
  | .invalidFlag found =>
      "invalid u8 while decoding bool, expected 0 or 1, found " ++ toString found.toNat
  | .invalidPresence found => "tag for enum is not valid, found " ++ toString found.toNat
  | .invalidVariant found variants =>
      "invalid value: integer `" ++ toString found.toNat ++ "`, expected variant index 0 <= i < " ++
        toString variants
  | .invalidText defect => "string is not valid utf8: " ++ defect.message

/-- Takes a value off the front of the input. -/
abbrev Reader (α : Type) := StateT Bytes (Except Defect) α

/-- Fails with a defect. -/
def Reader.fail {α : Type} (defect : Defect) : Reader α := fun _ => .error defect

/-- A type with a binary form. -/
class Form (α : Type) where
  write : α → Bytes
  read : Reader α

export Form (write read)

/-- Takes exactly `n` bytes, or fails as `missing` says. -/
def take (n : Nat) (missing : Defect) : Reader Bytes := fun input =>
  if input.length < n then .error missing else .ok (input.take n, input.drop n)

/-! ### Numbers and flags -/

instance : Form UInt8 where
  write b := [b]
  read := fun
    | [] => .error .endOfInput
    | b :: rest => .ok (b, rest)

instance : Form UInt64 where
  write := wordBytes
  read := return ofBytes (← take 8 .endOfInput)

instance : Form UInt32 where
  write n := (wordBytes n.toUInt64).take 4
  read := return (ofBytes (← take 4 .endOfInput)).toUInt32

instance : Form Int64 where
  write n := wordBytes n.toUInt64
  read := return (← read (α := UInt64)).toInt64

instance : Form Bool where
  write b := [if b then 1 else 0]
  read := do
    let found ← read (α := UInt8)
    if found = 0 then return false
    else if found = 1 then return true
    else Reader.fail (.invalidFlag found)

/-! ### Text, lists, options, maps -/

/-- The length that goes in front of text, lists and maps. -/
def writeLength (n : Nat) : Bytes := wordBytes (UInt64.ofNat n)

def readLength : Reader Nat := return (← read (α := UInt64)).toNat

instance : Form String where
  write s := writeLength (Text.utf8 s).length ++ Text.utf8 s
  read := do
    let bytes ← take (← readLength) .shortText
    match Text.ofUtf8? bytes with
    | some s => return s
    | none => Reader.fail (((Text.utf8Defect bytes).map .invalidText).getD .shortText)

instance : Form ShardId where
  write id := write id.name
  read := return ⟨← read⟩

/-- Reads a value `n` times. -/
def readMany {α : Type} (reader : Reader α) : Nat → Reader (List α)
  | 0 => return []
  | n + 1 => do
      let first ← reader
      let rest ← readMany reader n
      return first :: rest

instance {α : Type} [Form α] : Form (List α) where
  write xs := writeLength xs.length ++ xs.flatMap write
  read := do readMany read (← readLength)

instance {α : Type} [Form α] : Form (Option α) where
  write
    | none => [0]
    | some x => 1 :: write x
  read := do
    let found ← read (α := UInt8)
    if found = 0 then return none
    else if found = 1 then return some (← read)
    else Reader.fail (.invalidPresence found)

instance {α β : Type} [Form α] [Form β] : Form (α × β) where
  write p := write p.1 ++ write p.2
  read := do
    let first ← read
    let second ← read
    return (first, second)

/-- A map is written as the list of its entries; of entries with one key the last is kept. -/
instance {κ ν : Type} [Ord κ] [Std.TransOrd κ] [Form κ] [Form ν] : Form (OrderedMap κ ν) where
  write map := write map.entries
  read := return OrderedMap.ofList (← read)

/-- Reads a value off the front of the input, whatever follows it. -/
def decode {α : Type} [Form α] (input : Bytes) : Except Error α :=
  match read (α := α) input with
  | .ok (value, _) => .ok value
  | .error defect => .error (.serialization defect.message)

end ShardFleet.Wire
