import ShardFleet.Intent.Stack
import ShardFleet.Replica.Set

/-!
Choosing an endpoint for a unit of work, by its intent.

Writes go to the primary of their shard, reads to a replica selected for them. A lease counts
against its endpoint from the moment it is taken until it is given back, which happens once
however often it is asked for.
-/

namespace ShardFleet

/-- A claim on an endpoint of a shard. -/
structure Lease where
  shard : ShardId
  slot : Slot
  /-- Whether the claim still counts. -/
  held : Bool
  deriving DecidableEq, Repr, Inhabited

/-- The replica sets of a topology, the strategy of selection and the health record. -/
structure EndpointRouter where
  sets : OrderedMap ShardId ReplicaSet
  strategy : SelectionStrategy
  health : Health

namespace EndpointRouter

/-- A router over a topology with nothing leased and nothing failed. -/
def ofTopology (topology : Topology) (options : ReplicaOptions) : EndpointRouter :=
  ⟨OrderedMap.ofList (topology.shards.map fun shard => (shard.id, .ofShard shard)),
    options.strategy, Health.new options.recoveryDelay⟩

/-- A router under options that can be used. -/
def new (topology : Topology) (options : ReplicaOptions) : Except Error EndpointRouter := do
  options.check
  return ofTopology topology options

/-- The replica set of a shard. -/
def replicaSet (router : EndpointRouter) (shard : ShardId) : Except Error ReplicaSet :=
  match router.sets.get? shard with
  | some set => .ok set
  | none => .error (.unknownShard shard.name)

/-- Replaces the replica set of a shard. -/
def put (router : EndpointRouter) (set : ReplicaSet) : EndpointRouter :=
  { router with sets := router.sets.insert set.shard set }

/-- Takes a lease at a place of a set. -/
def lease (router : EndpointRouter) (set : ReplicaSet) (slot : Slot) : Lease × EndpointRouter :=
  (⟨set.shard, slot, true⟩, router.put (set.adjust slot (· + 1)))

/-- Leases the primary of a shard. -/
def leasePrimary (router : EndpointRouter) (shard : ShardId) :
    Except Error (Lease × EndpointRouter) := do
  return router.lease (← router.replicaSet shard) .primary

/-- Selects an endpoint of a shard for reading and leases it. -/
def acquire (router : EndpointRouter) (shard : ShardId) (now draw : Nat) :
    Except Error (Lease × EndpointRouter) := do
  let (slot, set) := (← router.replicaSet shard).select router.strategy router.health now draw
  return router.lease set slot

/-- Leases an endpoint of a shard that serves the intent. -/
def route (router : EndpointRouter) (shard : ShardId) (intent : Intent) (now draw : Nat) :
    Except Error (Lease × EndpointRouter) :=
  if intent.requiresPrimary then router.leasePrimary shard else router.acquire shard now draw

/-- The leased endpoint. -/
def endpoint? (router : EndpointRouter) (lease : Lease) : Option Endpoint :=
  (router.sets.get? lease.shard).map (·.endpoint lease.slot)

/-- Gives a lease back; nothing happens if that was done before. -/
def release (router : EndpointRouter) (lease : Lease) : Lease × EndpointRouter :=
  let given := { lease with held := false }
  match lease.held, router.sets.get? lease.shard with
  | true, some set => (given, router.put (set.adjust lease.slot (· - 1)))
  | _, _ => (given, router)

/-- Selects an endpoint without leasing it. -/
def select (router : EndpointRouter) (shard : ShardId) (now draw : Nat) :
    Except Error (Endpoint × EndpointRouter) := do
  let (slot, set) := (← router.replicaSet shard).select router.strategy router.health now draw
  return (set.endpoint slot, router.put set)

/-- The addresses of selections in a row. -/
def sample (router : EndpointRouter) (shard : ShardId) (now count : Nat) :
    Except Error (List String × EndpointRouter) := do
  let (addresses, set) := (← router.replicaSet shard).sample router.strategy router.health now count
  return (addresses, router.put set)

end EndpointRouter

end ShardFleet
