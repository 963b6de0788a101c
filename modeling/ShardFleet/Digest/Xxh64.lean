/-!
The 64-bit XXH64 digest of a byte string, and its sixteen-digit hexadecimal form.

Input is read as little-endian words. From 32 bytes on, four accumulators take one word each
per stripe and are merged at the end; what is left is folded in word by word, then as one half
word, then byte by byte.
-/

namespace ShardFleet.Digest

/-- A byte string. -/
abbrev Bytes := List UInt8

/-- The eight bytes of a word, least significant first. -/
def wordBytes (w : UInt64) : Bytes :=
  [w.toUInt8, (w >>> 8).toUInt8, (w >>> 16).toUInt8, (w >>> 24).toUInt8,
    (w >>> 32).toUInt8, (w >>> 40).toUInt8, (w >>> 48).toUInt8, (w >>> 56).toUInt8]

/-- The number that bytes spell, least significant first. -/
def ofBytes : Bytes → UInt64
  | [] => 0
  | b :: rest => b.toUInt64 ||| (ofBytes rest <<< 8)

/-- Splits bytes into whole words and the fewer than eight bytes left over. -/
def words : Bytes → List UInt64 × Bytes
  | b0 :: b1 :: b2 :: b3 :: b4 :: b5 :: b6 :: b7 :: rest =>
      let (ws, tail) := words rest
      (ofBytes [b0, b1, b2, b3, b4, b5, b6, b7] :: ws, tail)
  | tail => ([], tail)

namespace Xxh64

def prime1 : UInt64 := 0x9E3779B185EBCA87
def prime2 : UInt64 := 0xC2B2AE3D27D4EB4F
def prime3 : UInt64 := 0x165667B19E3779F9
def prime4 : UInt64 := 0x85EBCA77C2B2AE63
def prime5 : UInt64 := 0x27D4EB2F165667C5

def rotateLeft (w : UInt64) (n : UInt64) : UInt64 := (w <<< n) ||| (w >>> (64 - n))

/-- Takes one word into an accumulator. -/
def round (acc word : UInt64) : UInt64 := rotateLeft (acc + word * prime2) 31 * prime1

/-- The four accumulators. -/
structure Lanes where
  a : UInt64
  b : UInt64
  c : UInt64
  d : UInt64

def Lanes.seeded (seed : UInt64) : Lanes :=
  ⟨seed + prime1 + prime2, seed + prime2, seed, seed - prime1⟩

/-- Takes all whole stripes of four words; returns the accumulators and the words left over. -/
def Lanes.absorb (lanes : Lanes) : List UInt64 → Lanes × List UInt64
  | w0 :: w1 :: w2 :: w3 :: rest =>
      Lanes.absorb ⟨round lanes.a w0, round lanes.b w1, round lanes.c w2, round lanes.d w3⟩ rest
  | rest => (lanes, rest)

def mergeLane (acc lane : UInt64) : UInt64 := (acc ^^^ round 0 lane) * prime1 + prime4

def Lanes.merge (lanes : Lanes) : UInt64 :=
  let acc := rotateLeft lanes.a 1 + rotateLeft lanes.b 7 + rotateLeft lanes.c 12 +
    rotateLeft lanes.d 18
  mergeLane (mergeLane (mergeLane (mergeLane acc lanes.a) lanes.b) lanes.c) lanes.d

def foldWord (acc word : UInt64) : UInt64 :=
  rotateLeft (acc ^^^ round 0 word) 27 * prime1 + prime4

def foldByte (acc : UInt64) (b : UInt8) : UInt64 :=
  rotateLeft (acc ^^^ (b.toUInt64 * prime5)) 11 * prime1

/-- Folds in the fewer than eight bytes after the last whole word. -/
def foldTail (acc : UInt64) : Bytes → UInt64
  | b0 :: b1 :: b2 :: b3 :: rest =>
      let half := ofBytes [b0, b1, b2, b3]
      rest.foldl foldByte (rotateLeft (acc ^^^ (half * prime1)) 23 * prime2 + prime3)
  | rest => rest.foldl foldByte acc

def avalanche (acc : UInt64) : UInt64 :=
  let acc := (acc ^^^ (acc >>> 33)) * prime2
  let acc := (acc ^^^ (acc >>> 29)) * prime3
  acc ^^^ (acc >>> 32)

end Xxh64

open Xxh64 in
/-- The XXH64 digest of `bytes` under `seed`. -/
def xxh64 (seed : UInt64) (bytes : Bytes) : UInt64 :=
  let (ws, tail) := words bytes
  let (lanes, rest) := (Lanes.seeded seed).absorb ws
  let start := if 4 ≤ ws.length then lanes.merge else seed + prime5
  avalanche (foldTail (rest.foldl foldWord (start + UInt64.ofNat bytes.length)) tail)

/-- Sixteen lower-case hexadecimal digits. -/
def hex (w : UInt64) : String :=
  let digits := Nat.toDigits 16 w.toNat
  String.ofList (List.replicate (16 - digits.length) '0' ++ digits)

end ShardFleet.Digest
