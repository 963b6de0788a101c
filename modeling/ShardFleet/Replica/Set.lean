import ShardFleet.Options
import ShardFleet.Replica.Health
import ShardFleet.Topology

/-!
The endpoints of a shard, the leases on them, and how one is selected for reading.

Only replicas in good health are selected; while there is none, the primary is. In turn, the
healthy replicas are counted off by a cursor that moves with every selection of a replica. By
load, the first replica with the fewest leases is taken. At random, a number drawn by the caller
decides.
-/

namespace ShardFleet

/-- An address and the leases held on it. -/
structure Endpoint where
  address : String
  leases : Nat := 0
  deriving DecidableEq, Repr, Inhabited

/-- A place in a replica set. -/
inductive Slot where
  | primary
  | replica (index : Nat)
  deriving DecidableEq, Repr, Inhabited

/-- The primary of a shard and its read replicas. -/
structure ReplicaSet where
  shard : ShardId
  primary : Endpoint
  replicas : List Endpoint
  /-- How many selections in turn were made; it wraps around. -/
  cursor : UInt64 := 0
  deriving DecidableEq, Repr, Inhabited

namespace ReplicaSet

/-- The endpoints of a shard, without leases. -/
def ofShard (shard : Shard) : ReplicaSet :=
  { shard := shard.id
    primary := { address := shard.endpoint }
    replicas := shard.replicas.map fun address => { address } }

/-- The endpoint at a place. -/
def endpoint (set : ReplicaSet) : Slot → Endpoint
  | .primary => set.primary
  | .replica index => set.replicas.getD index set.primary

/-- Changes the number of leases at a place. -/
def adjust (set : ReplicaSet) (slot : Slot) (f : Nat → Nat) : ReplicaSet :=
  let change := fun (endpoint : Endpoint) => { endpoint with leases := f endpoint.leases }
  match slot with
  | .primary => { set with primary := change set.primary }
  | .replica index => { set with replicas := set.replicas.modify index change }

/-- The replicas in good health, each with its place, in configuration order. -/
def healthy (set : ReplicaSet) (health : Health) (now : Nat) : List (Endpoint × Nat) :=
  set.replicas.zipIdx.filter fun entry => health.isHealthy now entry.1.address

/-- The first endpoint with the fewest leases. -/
def leastLoaded : List (Endpoint × Nat) → Option (Endpoint × Nat)
  | [] => none
  | entry :: rest =>
      match leastLoaded rest with
      | none => some entry
      | some other => if other.1.leases < entry.1.leases then some other else some entry

/-- Selects a place for reading. `draw` is the number drawn for a random selection. -/
def select (set : ReplicaSet) (strategy : SelectionStrategy) (health : Health) (now draw : Nat) :
    Slot × ReplicaSet :=
  let healthy := set.healthy health now
  if healthy.isEmpty then (.primary, set)
  else
    let slotOf := fun (entry : Option (Endpoint × Nat)) =>
      match entry with
      | some (_, index) => Slot.replica index
      | none => .primary
    match strategy with
    | .roundRobin =>
        (slotOf healthy[set.cursor.toNat % healthy.length]?, { set with cursor := set.cursor + 1 })
    | .random => (slotOf healthy[draw % healthy.length]?, set)
    | .leastConnections => (slotOf (leastLoaded healthy), set)

/-- The addresses of `count` selections in a row, the numbers `0`, `1`, … drawn for them, and
the set after them. -/
def sample (set : ReplicaSet) (strategy : SelectionStrategy) (health : Health) (now count : Nat) :
    List String × ReplicaSet :=
  (List.range count).foldl
    (fun (addresses, set) draw =>
      let (slot, set) := set.select strategy health now draw
      (addresses ++ [(set.endpoint slot).address], set))
    ([], set)

end ReplicaSet

end ShardFleet
