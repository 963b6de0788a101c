import ShardFleet.Duration
import ShardFleet.OrderedMap

/-!
The health of endpoints, from what their users report.

Nobody probes an endpoint. A failure takes it out of use; it comes back when the recovery delay
has passed since its last failure, or when a success is reported.
-/

namespace ShardFleet

/-- The health of an endpoint. -/
inductive HealthState where
  | healthy
  | unhealthy
  deriving DecidableEq, Repr, Inhabited

def HealthState.name : HealthState → String
  | .healthy => "Healthy"
  | .unhealthy => "Unhealthy"

/-- The health of endpoints. Instants are counted in nanoseconds. -/
structure Health where
  recoveryDelay : Duration
  /-- The last failure of each endpoint that has had no success since. -/
  failures : OrderedMap String Nat

namespace Health

/-- No endpoint has failed. -/
def new (recoveryDelay : Duration) : Health := ⟨recoveryDelay, OrderedMap.empty⟩

/-- A failure at the instant `now`. -/
def reportFailure (health : Health) (address : String) (now : Nat) : Health :=
  { health with failures := health.failures.insert address now }

/-- A success, which clears earlier failures. -/
def reportSuccess (health : Health) (address : String) : Health :=
  { health with failures := health.failures.erase address }

/-- Forgets all failures. -/
def reset (health : Health) : Health := { health with failures := OrderedMap.empty }

/-- The last failure that no success has cleared. -/
def lastFailure? (health : Health) (address : String) : Option Nat := health.failures.get? address

/-- Whether a failure at `failed` is long enough ago. -/
def hasRecovered (health : Health) (now failed : Nat) : Bool :=
  health.recoveryDelay.nanos ≤ now - failed

/-- Whether an endpoint may be used. -/
def isHealthy (health : Health) (now : Nat) (address : String) : Bool :=
  (health.lastFailure? address).all (health.hasRecovered now)

/-- How an endpoint is seen by those who select one. -/
def state (health : Health) (now : Nat) (address : String) : HealthState :=
  if health.isHealthy now address then .healthy else .unhealthy

/-- The endpoints out of use, in ascending order. -/
def unhealthy (health : Health) (now : Nat) : List String :=
  (health.failures.filter fun _ failed => !health.hasRecovered now failed).keys

end Health

end ShardFleet
