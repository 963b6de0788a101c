import ShardFleet.Digest.Xxh64
import ShardFleet.OrderedMap
import ShardFleet.ShardId
import ShardFleet.Text.Utf8

/-!
A hash ring with virtual nodes.

Every member stands on the ring at a fixed number of points, computed from its name. A position
belongs to the first point at or after it, or to the first point of all when there is none, so
a member that comes or goes moves only the positions next to its points. Two members whose
points fall together share one point, which belongs to the one placed last.
-/

namespace ShardFleet

open ShardFleet.Digest (Bytes xxh64)

/-- A hash ring. -/
structure HashRing where
  /-- Points and their owners. -/
  points : OrderedMap UInt64 ShardId
  /-- Members in ascending order. -/
  members : List ShardId
  /-- Points per member. -/
  virtualNodes : Nat
  /-- The seed of the digests of points and keys. -/
  seed : UInt64

namespace HashRing

/-- Points per member where nothing else is asked for. -/
def defaultVirtualNodes : Nat := 150

/-- The ring without members; a member always has at least one point. -/
def empty (virtualNodes : Nat) (seed : UInt64) : HashRing :=
  ⟨OrderedMap.empty, [], max virtualNodes 1, seed⟩

/-- The position of a byte string on the ring. -/
def position (ring : HashRing) (bytes : Bytes) : UInt64 := xxh64 ring.seed bytes

/-- The point of the virtual node `index` of a member. -/
def point (ring : HashRing) (member : ShardId) (index : Nat) : UInt64 :=
  ring.position (Text.utf8 (member.name ++ "#" ++ toString index))

/-- The points of a member. -/
def pointsOf (ring : HashRing) (member : ShardId) : List UInt64 :=
  (List.range ring.virtualNodes).map (ring.point member)

/-- Places a member on the ring, unless it is there. -/
def add (ring : HashRing) (member : ShardId) : HashRing :=
  if member ∈ ring.members then ring
  else
    { ring with
      points := (ring.pointsOf member).foldl (fun map p => map.insert p member) ring.points
      members := ShardId.sort (ring.members ++ [member]) }

/-- Takes a member and the points it owns off the ring. -/
def remove (ring : HashRing) (member : ShardId) : HashRing :=
  if member ∈ ring.members then
    { ring with
      points := ring.points.filter fun _ owner => owner ≠ member
      members := ring.members.filter (· ≠ member) }
  else ring

/-- The ring of the given members. -/
def ofMembers (members : List ShardId) (virtualNodes : Nat) (seed : UInt64) : HashRing :=
  members.foldl add (empty virtualNodes seed)

/-- The owner of a position. -/
def ownerAt (ring : HashRing) (position : UInt64) : Option ShardId :=
  match ring.points.entries.find? fun entry => position ≤ entry.1 with
  | some entry => some entry.2
  | none => ring.points.entries.head?.map Prod.snd

/-- The owner of a key, given by its bytes. -/
def ownerOf (ring : HashRing) (key : Bytes) : Option ShardId := ring.ownerAt (ring.position key)

/-- How many of `samples` made-up keys each member owns; members that own none are left out. -/
def distribution (ring : HashRing) (samples : Nat) : OrderedMap ShardId Nat :=
  (List.range samples).foldl
    (fun counts i =>
      match ring.ownerOf (Text.utf8 ("sample_key_" ++ toString i)) with
      | some owner => counts.alter owner 0 (· + 1)
      | none => counts)
    OrderedMap.empty

end HashRing

end ShardFleet
