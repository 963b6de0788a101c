import ShardFleet.Proofs.Invocation
import ShardFleet.Scatter.Script

/-!
What scripts come to.

A script does the same on every occasion (`Script.operation_behaves`): it waits for its delay and
ends as its finale says. Two shards are enough to rehearse how the invocations of a call stand to
one another (`Topology.pair`).
-/

namespace ShardFleet

/-- What a script comes to on a shard. -/
def Script.behaviour (script : Script) (shard : Shard) : Behaviour String where
  ticks := script.delay.sleepTicks
  fate :=
    match script.finale with
    | .succeed value => .returned (.ok (value.getD shard.endpoint))
    | .fail error => .returned (.error error)
    | .crash => .crashed
    | .hang => .hung

/-- A script does the same on every occasion. -/
theorem Script.operation_behaves (script : Script) (shard : Shard) :
    (script.operation shard).Behaves (script.behaviour shard) := by
  obtain ⟨delay, finale⟩ := script
  intro start world
  refine Operation.guarded_endsAt Stage.leave ⟨rfl, ?_⟩
  cases finale <;> rfl

/-- A script that does not fail as called off is sincere. -/
theorem Script.operation_sincere {script : Script} (honest : script.finale ≠ .fail .cancelled)
    (shard : Shard) : (script.operation shard).Sincere := by
  obtain ⟨delay, finale⟩ := script
  intro world
  refine Operation.guarded_yields (· ≠ .returned (.error .cancelled)) Stage.leave ?_
  cases finale with
  | succeed value => simp [Activity.Yields, Ending.fate]
  | fail error => simpa [Activity.Yields, Ending.fate] using honest
  | crash => simp [Activity.Yields, Ending.fate]
  | hang => simp [Activity.Yields, Ending.fate]

def Shard.first : Shard := ⟨⟨"first"⟩, "10.0.0.1", []⟩

def Shard.second : Shard := ⟨⟨"second"⟩, "10.0.0.2", []⟩

/-- Two shards to rehearse on. -/
def Topology.pair : Topology := ⟨[.first, .second], by decide, by decide⟩

end ShardFleet
