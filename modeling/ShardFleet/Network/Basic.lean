import ShardFleet.Statement
import ShardFleet.Text.Fragment
import ShardFleet.Topology

/-!
A simulated network of shards.

A simulated shard notes every statement it receives and answers as scripted: a statement that
contains the fragment of an injected failure fails, a query is answered by the first response
whose fragment it contains. The network knows which shards it can reach and counts the
connections that are open.
-/

namespace ShardFleet

/-- A shard that answers as scripted. -/
structure SimulatedShard where
  /-- Statements received, oldest first. -/
  log : List Statement := []
  /-- Fragments of queries and the rows that answer them. -/
  responses : List (String × List Row) := []
  /-- Fragments of statements and the message with which they fail. -/
  failures : List (String × String) := []
  /-- What a statement without rows reports as affected. -/
  affected : Nat := 1
  /-- How long every statement takes. -/
  latency : Duration := ⟨0⟩
  /-- Connections opened so far. -/
  opened : Nat := 0
  /-- Connections open now. -/
  connections : Nat := 0
  /-- How often a connection was given back while none was open. -/
  overdrawn : Nat := 0
  deriving DecidableEq

namespace SimulatedShard

instance : Inhabited SimulatedShard := ⟨{}⟩

/-- Whether a scripted fragment occurs in a statement. -/
def mentions (statement : Statement) (fragment : String) : Bool :=
  Text.occursIn fragment.toList statement.sql.toList

/-- Answers queries that contain a fragment with the given rows, unless an earlier response
applies. -/
def respondTo (shard : SimulatedShard) (fragment : String) (rows : List Row) : SimulatedShard :=
  { shard with responses := shard.responses ++ [(fragment, rows)] }

/-- Makes statements that contain a fragment fail, unless an earlier failure applies. -/
def failOn (shard : SimulatedShard) (fragment message : String) : SimulatedShard :=
  { shard with failures := shard.failures ++ [(fragment, message)] }

/-- Notes a statement. -/
def receive (shard : SimulatedShard) (statement : Statement) : SimulatedShard :=
  { shard with log := shard.log ++ [statement] }

/-- Whether a statement succeeds; the first injected failure that matches it says why not. -/
def verdict (shard : SimulatedShard) (statement : Statement) : Except Error Unit :=
  match shard.failures.find? fun entry => mentions statement entry.1 with
  | some (_, message) => .error (.statement message)
  | none => .ok ()

/-- The rows that answer a query. -/
def response (shard : SimulatedShard) (statement : Statement) : List Row :=
  ((shard.responses.find? fun entry => mentions statement entry.1).map Prod.snd).getD []

def connect (shard : SimulatedShard) : SimulatedShard :=
  { shard with opened := shard.opened + 1, connections := shard.connections + 1 }

/-- Gives a connection back. If none is open the count stays at zero, and that is noted. -/
def disconnect (shard : SimulatedShard) : SimulatedShard :=
  { shard with
    connections := shard.connections - 1
    overdrawn := shard.overdrawn + (1 - shard.connections) }

end SimulatedShard

/-- Shards by name, and the names that cannot be reached. -/
structure Network where
  shards : OrderedMap ShardId SimulatedShard
  unreachable : List ShardId
  deriving DecidableEq

namespace Network

def empty : Network := ⟨OrderedMap.empty, []⟩

instance : Inhabited Network := ⟨empty⟩

def shard? (network : Network) (id : ShardId) : Option SimulatedShard := network.shards.get? id

/-- Changes a shard, if it is there. -/
def update (network : Network) (id : ShardId) (f : SimulatedShard → SimulatedShard) : Network :=
  { network with
    shards := network.shards.mapValues fun name shard => if name = id then f shard else shard }

/-- Adds a shard, unless it is there. -/
def add (network : Network) (id : ShardId) : Network :=
  if network.shards.contains id then network
  else { network with shards := network.shards.insert id {} }

/-- The network of a topology. -/
def ofTopology (topology : Topology) : Network := topology.ids.foldl add empty

/-- Makes a shard reachable or not. -/
def setReachable (network : Network) (id : ShardId) (reachable : Bool) : Network :=
  let others := network.unreachable.filter (· ≠ id)
  { network with unreachable := if reachable then others else id :: others }

/-- Why a connection to a shard is refused, if it is. -/
def refusal? (network : Network) (id : ShardId) : Option Error :=
  if id ∈ network.unreachable then some (.shardUnreachable id "connection refused")
  else if network.shards.contains id then none
  else some (.unknownShard id.name)

/-- Connections open on all shards. -/
def connections (network : Network) : Nat :=
  network.shards.values.foldl (fun total shard => total + shard.connections) 0

end Network

/-- The topology of shards that live in memory. -/
def Topology.inMemory (names : List String) : Except Error Topology :=
  Topology.ofList (names.map fun name => ⟨⟨name⟩, "mem://" ++ name, []⟩)

end ShardFleet
