import ShardFleet.Distinct
import ShardFleet.Key.Range
import ShardFleet.Ring
import ShardFleet.Topology

/-!
Routers: from keys to shards of a topology.

A router is a topology and a placement: by digest modulo the number of shards, by a hash ring,
by ordered ranges, or by a directory of single keys. The first two take keys pinned to shards,
which come before the rule; a directory takes pinned keys as further entries. A placement by
ranges is decided by its ranges alone.
-/

namespace ShardFleet

open ShardFleet.Digest (xxh64)

/-- Keys assigned to shards one by one. Of several assignments of one key the last counts. -/
structure Assignments where
  latestFirst : List (ShardKey × ShardId)
  deriving DecidableEq, Repr, Inhabited

namespace Assignments

/-- The shard assigned to a key. -/
def find? (assignments : Assignments) (key : ShardKey) : Option ShardId :=
  (assignments.latestFirst.find? fun entry => entry.1 = key).map Prod.snd

/-- How many keys are assigned. -/
def size (assignments : Assignments) : Nat :=
  (distinct (assignments.latestFirst.map Prod.fst)).length

def isEmpty (assignments : Assignments) : Bool := assignments.latestFirst.isEmpty

/-- That a key is assigned to a shard which is not there. -/
def strayError (key : ShardKey) (shard : ShardId) : Error :=
  .config ("override for key " ++ key.display ++ " targets unknown shard " ++ shard.name)

/-- The assignments of a list, all of whose shards must be in the topology. -/
def ofList (topology : Topology) (entries : List (ShardKey × ShardId)) :
    Except Error Assignments :=
  match entries.find? fun entry => !topology.contains entry.2 with
  | some (key, shard) => .error (strayError key shard)
  | none => .ok ⟨entries.reverse⟩

end Assignments

/-- How keys are mapped to shards, as configured. -/
inductive RoutingRule where
  /-- The digest of the key modulo the number of shards. -/
  | hash
  /-- A hash ring. -/
  | consistentHash (virtualNodes : Nat)
  /-- Ordered key ranges. -/
  | range (ranges : List KeyRange)
  /-- A table of keys, and a shard for all others if there is one. -/
  | directory (entries : List (ShardKey × ShardId)) (fallback : Option ShardId)
  deriving Repr, Inhabited

/-- How keys are mapped to shards, ready for use. -/
inductive Placement where
  | modulo (seed : UInt64) (pins : Assignments)
  | ring (ring : HashRing) (pins : Assignments)
  | ranges (ranges : List KeyRange)
  | directory (entries : Assignments) (fallback : Option ShardId)

/-- Maps keys to the shards of a topology. -/
structure Router where
  topology : Topology
  placement : Placement

namespace Router

/-- The seed of key digests where nothing else is asked for. -/
def defaultSeed : UInt64 := 0x5AFECAFEDEADBEEF

/-! ### Construction -/

/-- Digest modulo the number of shards. -/
def byModulo (topology : Topology) (seed : UInt64) (pins : List (ShardKey × ShardId)) :
    Except Error Router := do
  let pins ← Assignments.ofList topology pins
  return ⟨topology, .modulo seed pins⟩

/-- A hash ring of all shards. -/
def byRing (topology : Topology) (virtualNodes : Nat) (seed : UInt64)
    (pins : List (ShardKey × ShardId)) : Except Error Router := do
  let pins ← Assignments.ofList topology pins
  return ⟨topology, .ring (HashRing.ofMembers topology.ids virtualNodes seed) pins⟩

/-- The first range with a fault of its own. -/
def rangeFault (topology : Topology) : List KeyRange → Option Error
  | [] => none
  | range :: rest =>
      if !topology.contains range.shard then
        some (.config ("range starting at " ++ range.start.display ++ " targets unknown shard " ++
          range.shard.name))
      else if range.isEmpty then
        some (.config ("range starting at " ++ range.start.display ++ " is empty"))
      else rangeFault topology rest

/-- The first two neighbours, in key order, that share a key. -/
def overlapFault : List KeyRange → Option Error
  | range :: next :: rest =>
      if range.reaches next then
        some (.config ("ranges starting at " ++ range.start.display ++ " and " ++
          next.start.display ++ " overlap"))
      else overlapFault (next :: rest)
  | _ => none

/-- Ranges in key order; each owns some key, its shard is known, and no key is in two. -/
def byRanges (topology : Topology) (ranges : List KeyRange) : Except Error Router :=
  let sorted := KeyRange.sort ranges
  match (rangeFault topology sorted).or (overlapFault sorted) with
  | some error => .error error
  | none => .ok ⟨topology, .ranges sorted⟩

/-- A table of keys with an optional shard for all others. -/
def byDirectory (topology : Topology) (entries : List (ShardKey × ShardId))
    (fallback : Option ShardId) : Except Error Router := do
  let entries ← Assignments.ofList topology entries
  match fallback with
  | some shard =>
      if !topology.contains shard then
        throw (.config ("default shard " ++ shard.name ++ " is unknown"))
  | none => pure ()
  return ⟨topology, .directory entries fallback⟩

/-- The router of a rule. -/
def build (rule : RoutingRule) (topology : Topology) (seed : UInt64)
    (pins : List (ShardKey × ShardId)) : Except Error Router :=
  match rule with
  | .hash => byModulo topology seed pins
  | .consistentHash virtualNodes => byRing topology virtualNodes seed pins
  | .range ranges => byRanges topology ranges
  | .directory entries fallback => byDirectory topology (entries ++ pins) fallback

/-! ### Resolution -/

/-- That there is no shard to route a key to. -/
def noShards (key : ShardKey) : Error :=
  .unknownShard ("no shards configured to route key " ++ key.display)

/-- The digest of a key. -/
def keyHash (seed : UInt64) (key : ShardKey) : UInt64 := xxh64 seed key.toBytes

/-- The last of ascending ranges that starts at or before `key`. -/
def candidate? (ranges : List KeyRange) (key : ShardKey) : Option KeyRange :=
  (ranges.takeWhile fun range => (compare range.start key).isLE).getLast?

/-- The name of the shard that owns a key; `none` stands for a topology without shards. -/
def owner (router : Router) (key : ShardKey) : Except Error ShardId :=
  match router.placement with
  | .modulo seed pins =>
      match pins.find? key with
      | some shard => .ok shard
      | none =>
          let place := (keyHash seed key).toNat % router.topology.size
          match router.topology.at? place with
          | some shard => .ok shard.id
          | none => .error (noShards key)
  | .ring ring pins =>
      match (pins.find? key).or (ring.ownerOf key.toBytes) with
      | some shard => .ok shard
      | none => .error (noShards key)
  | .ranges ranges =>
      match (candidate? ranges key).filter (·.contains key) with
      | some range => .ok range.shard
      | none => .error (.unknownShard ("no range contains key " ++ key.display))
  | .directory entries fallback =>
      match (entries.find? key).or fallback with
      | some shard => .ok shard
      | none => .error (.unknownShard ("no directory entry for key " ++ key.display))

/-- The shard that owns a key. -/
def resolve (router : Router) (key : ShardKey) : Except Error Shard :=
  if router.topology.isEmpty then .error (noShards key)
  else do router.topology.get (← router.owner key)

/-- Groups the places of keys in a list by the shard that owns them. -/
def groupByShard (router : Router) (keys : List ShardKey) :
    Except Error (OrderedMap ShardId (List Nat)) :=
  keys.zipIdx.foldlM
    (fun groups entry => do
      let shard ← router.resolve entry.1
      return groups.alter shard.id [] (· ++ [entry.2]))
    OrderedMap.empty

end Router

end ShardFleet
