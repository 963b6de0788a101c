import ShardFleet.Options
import ShardFleet.Router

/-!
The configuration of a deployment, and the topology and router built from it.

A configuration is checked as a whole: shards in order, pinned keys in order, the number of
virtual nodes, then the options. The first fault is reported.
-/

namespace ShardFleet

/-- The configuration of a deployment. -/
structure Configuration where
  shards : List Shard
  routing : RoutingRule := .hash
  seed : UInt64 := Router.defaultSeed
  /-- Keys pinned to shards. -/
  pins : List (ShardKey × ShardId) := []
  scatter : ScatterOptions := {}
  replica : ReplicaOptions := {}
  statements : StatementOptions := {}

namespace Configuration

/-- Checks shards one by one after shards named `seen`. -/
def checkShards (seen : List ShardId) : List Shard → Except Error Unit
  | [] => .ok ()
  | shard :: rest =>
      if shard.id.isEmpty then .error (.config "shard id must not be empty")
      else if shard.endpoint.isEmpty then
        .error (.config ("shard " ++ shard.id.name ++ " has no endpoint"))
      else if shard.id ∈ seen then .error (.config ("duplicate shard id: " ++ shard.id.name))
      else checkShards (shard.id :: seen) rest

/-- Checks that pinned keys go to shards of the configuration. -/
def checkPins (shards : List Shard) (pins : List (ShardKey × ShardId)) : Except Error Unit :=
  match pins.find? fun pin => pin.2 ∉ shards.map Shard.id with
  | some (key, shard) => .error (Assignments.strayError key shard)
  | none => .ok ()

/-- Checks that a ring has points. -/
def checkRouting : RoutingRule → Except Error Unit
  | .consistentHash 0 => .error (.config "virtual_nodes must be > 0")
  | _ => .ok ()

/-- Checks the configuration. -/
def check (config : Configuration) : Except Error Unit := do
  checkShards [] config.shards
  checkPins config.shards config.pins
  checkRouting config.routing
  config.scatter.check
  config.replica.check
  config.statements.check

/-- Checks the configuration and builds its topology. -/
def topology (config : Configuration) : Except Error Topology := do
  config.check
  Topology.ofList config.shards

/-- The router of the configuration over a topology. -/
def router (config : Configuration) (topology : Topology) : Except Error Router :=
  Router.build config.routing topology config.seed config.pins

end Configuration

end ShardFleet
