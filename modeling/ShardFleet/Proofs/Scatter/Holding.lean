import Mathlib.Algebra.BigOperators.Group.List.Basic
import ShardFleet.Proofs.Holding
import ShardFleet.Proofs.Scatter.Conservation

/-!
Calls whose invocations give back what they take.

While a call is under way, each invocation in flight holds units of its own, and all of them
together hold what the world shows beyond what others hold (`Run.Balanced`). Every turn keeps the
balance, whether an invocation goes on, ends, or is given up (`Run.Balanced.turn`), and so does
every move (`Call.Move.balanced`). At the end nothing is in flight any more, so a call leaves what
others hold (`Executor.keeps_scatterWith`).
-/

namespace ShardFleet

variable {σ α : Type} {held : Nat → σ → Prop} {others : Nat}

/-- An invocation in flight that holds units, which it gives back when it ends or is given up. -/
structure Flight.Returns (held : Nat → σ → Prop) (flight : Flight σ α) (own : Nat) : Prop where
  rest : Activity.Returns held flight.rest own
  givenUp : GivesBack held own flight.abandon

namespace Run

/-- How many units the shards hold together. -/
def together (own : ShardId → Nat) (shards : List ShardId) : Nat := (shards.map own).sum

/-- What is held in all is what the invocations in flight hold, and what others hold. -/
def Balanced (held : Nat → σ → Prop) (others : Nat) (run : Run σ α) : Prop :=
  ∃ own : ShardId → Nat, (∀ flight ∈ run.flights, flight.Returns held (own flight.shard)) ∧
    held (together own (run.flights.map Flight.shard) + others) run.world

variable {run next : Run σ α} {flight : Flight σ α} {own : ShardId → Nat} {world : σ}

theorem Balanced.same (balanced : run.Balanced held others) (world : next.world = run.world)
    (flights : next.flights = run.flights) : next.Balanced held others := by
  obtain ⟨own, returns, total⟩ := balanced
  exact ⟨own, flights ▸ returns, by rwa [flights, world]⟩

/-- What the shards hold together does not depend on another one. -/
theorem together_update {shard : ShardId} {shards : List ShardId} (absent : shard ∉ shards)
    (own : ShardId → Nat) (count : Nat) :
    together (Function.update own shard count) shards = together own shards := by
  refine congrArg List.sum (List.map_congr_left fun id mem => ?_)
  exact Function.update_of_ne (ne_of_mem_of_not_mem mem absent) count own

/-- What one of those in flight holds, apart from what the others do. -/
theorem together_flights (apart : (run.flights.map Flight.shard).Nodup)
    (flies : flight ∈ run.flights) (own : ShardId → Nat) :
    together own (run.flights.map Flight.shard) = own flight.shard +
      together own ((run.flights.filter (·.shard ≠ flight.shard)).map Flight.shard) :=
  (((flights_perm apart flies).map Flight.shard).map own).sum_eq

/-- An invocation that has given back what it held may leave. -/
theorem balanced_finish (returns : ∀ flight ∈ run.flights, flight.Returns held (own flight.shard))
    (total : held (together own ((run.flights.filter (·.shard ≠ flight.shard)).map Flight.shard) +
      others) world) (result : Except Error α) :
    ({ run with world }.finish flight.shard result).Balanced held others :=
  ⟨own, fun other mem => returns other (mem_finish.mp mem).1, total⟩

/-- An invocation that waits holds what it holds by then, and the others what they held. -/
theorem balanced_fallAsleep (apart : (run.flights.map Flight.shard).Nodup)
    (flies : flight ∈ run.flights)
    (returns : ∀ flight ∈ run.flights, flight.Returns held (own flight.shard)) {after ticks : Nat}
    {abandon : σ → σ} {rest : Job σ α}
    (total : held (after +
      (together own ((run.flights.filter (·.shard ≠ flight.shard)).map Flight.shard) + others))
        world)
    (waits : Activity.Returns held (.pause ticks abandon rest) after) :
    Balanced held others { run with
      world
      tickets := run.tickets + 1
      flights := run.flights.map fun other =>
        if other.shard = flight.shard then
          flight.fallAsleep run.now run.tickets ticks abandon rest
        else other } := by
  -- It stays in flight under its shard, so only what that shard is said to hold is replaced.
  refine ⟨Function.update own flight.shard after, fun waiting mem => ?_, ?_⟩
  · obtain ⟨other, flies, rfl⟩ := List.mem_map.mp mem
    by_cases same : other.shard = flight.shard
    · rw [if_pos same]
      change Flight.Returns held _ (Function.update own flight.shard after flight.shard)
      rw [Function.update_self]
      exact ⟨waits.2, waits.1⟩
    · rw [if_neg same, Function.update_of_ne same]
      exact returns other flies
  · have alone : flight.shard ∉
        (run.flights.filter (·.shard ≠ flight.shard)).map Flight.shard := by
      simp
    dsimp only
    rwa [fallAsleep_shards run.flights rfl, together_flights apart flies, Function.update_self,
      together_update alone, Nat.add_assoc]

/-- Every turn keeps the balance. -/
theorem Balanced.turn (balanced : run.Balanced held others)
    (apart : (run.flights.map Flight.shard).Nodup) {shard : ShardId}
    (turn : run.Turn shard next) : next.Balanced held others := by
  cases turn with
  | absent => exact balanced
  | @givenUp flight found off =>
      obtain rfl := shard_of_find found
      have flies := List.mem_of_find?_eq_some found
      obtain ⟨own, returns, total⟩ := balanced
      rw [together_flights apart flies, Nat.add_assoc] at total
      exact balanced_finish returns ((returns flight flies).givenUp _ _ total) _
  | @ended flight world result found wanted proceeds =>
      obtain rfl := shard_of_find found
      have flies := List.mem_of_find?_eq_some found
      obtain ⟨own, returns, total⟩ := balanced
      rw [together_flights apart flies, Nat.add_assoc] at total
      obtain ⟨after, total, ended⟩ := (returns flight flies).rest.proceed total run.now
      rw [proceeds] at total ended
      obtain rfl : after = 0 := ended
      rw [Nat.zero_add] at total
      exact balanced_finish returns total result
  | @asleep flight world ticks abandon rest found wanted proceeds =>
      obtain rfl := shard_of_find found
      have flies := List.mem_of_find?_eq_some found
      obtain ⟨own, returns, total⟩ := balanced
      rw [together_flights apart flies, Nat.add_assoc] at total
      obtain ⟨after, total, waits⟩ := (returns flight flies).rest.proceed total run.now
      rw [proceeds] at total waits
      exact balanced_fallAsleep apart flies returns total waits

end Run

namespace Call

variable {call : Call σ α} {run next : Run σ α}

/-- What is handed out holds nothing before its first turn. -/
theorem balanced_handOut {shard : Shard} {pending : List Shard}
    (returns : Activity.Returns held (call.invocation shard) 0)
    (fresh : shard.id ∉ run.flights.map Flight.shard) (balanced : run.Balanced held others) :
    (call.handOut { run with pending } shard).Balanced held others := by
  obtain ⟨own, keep, total⟩ := balanced
  have nothing : Function.update own shard.id 0 shard.id = 0 := Function.update_self ..
  refine ⟨Function.update own shard.id 0, fun flight mem => ?_, ?_⟩
  · rcases List.mem_append.mp mem with flies | new
    · have different : flight.shard ≠ shard.id :=
        ne_of_mem_of_not_mem (List.mem_map_of_mem flies) fresh
      rw [Function.update_of_ne different]
      exact keep flight flies
    · obtain rfl := List.mem_singleton.mp new
      exact ⟨nothing.symm ▸ returns, nothing.symm ▸ givesBack_id⟩
  · have same : Run.together (Function.update own shard.id 0)
        ((run.flights.map Flight.shard) ++ [shard.id]) =
          Run.together own (run.flights.map Flight.shard) := by
      have flying := Run.together_update fresh own 0
      unfold Run.together at flying ⊢
      rw [List.map_append, List.sum_append, flying, List.map_singleton, List.sum_singleton,
        nothing, Nat.add_zero]
    simp only [handOut, List.map_append, List.map_cons, List.map_nil]
    rwa [same]

/-- Every move keeps the balance. -/
theorem Move.balanced (returns : ∀ shard, Activity.Returns held (call.invocation shard) 0)
    (move : call.Move run next) (orderly : run.Orderly) (balanced : run.Balanced held others) :
    next.Balanced held others := by
  have apart := (move.orderly orderly).flights_nodup
  cases move with
  | @handOut shard pending =>
      simp only [Call.handOut, List.map_append, List.map_cons, List.map_nil] at apart
      have fresh := (List.nodup_append.mp apart).2.2
      exact balanced_handOut (returns shard)
        (fun flies => fresh _ flies _ List.mem_cons_self rfl) balanced
  | notice => exact balanced.same rfl rfl
  | record =>
      rw [Run.record_eq]
      exact balanced.same rfl rfl
  | work =>
      rw [Run.hearCaller_eq]
      exact balanced.same rfl rfl
  | @turn shard queue served _ _ turn =>
      have queued : Run.Balanced held others { run with ready := queue } := balanced.same rfl rfl
      rw [Run.countTurn_eq]
      exact (queued.turn orderly.flights_nodup turn).same rfl rfl
  | collect => exact balanced.same rfl rfl
  | moveOn =>
      rw [Run.hearCaller_eq]
      exact balanced.same rfl rfl

theorem Reaches.balanced (returns : ∀ shard, Activity.Returns held (call.invocation shard) 0)
    {start : Run σ α} (reaches : call.Reaches start run) (orderly : start.Orderly)
    (balanced : start.Balanced held others) : run.Balanced held others := by
  induction reaches with
  | refl => exact balanced
  | tail earlier step ih =>
      exact (step_eq_some_iff.mp step).balanced returns (Reaches.orderly earlier orderly) ih

/-- When a call is over, others hold what they held. -/
theorem Ends.returns (returns : ∀ shard, Activity.Returns held (call.invocation shard) 0)
    {start last : Run σ α} (ends : call.Ends start last) (orderly : start.Orderly)
    (grounded : start.flights = []) (total : held others start.world) :
    held others last.world := by
  obtain ⟨reaches, ended⟩ := ends
  have begins : start.Balanced held others :=
    ⟨fun _ => 0, by simp [grounded], by simpa [grounded, Run.together] using total⟩
  obtain ⟨own, -, total⟩ := Reaches.balanced returns reaches orderly begins
  rw [(step_eq_none_iff.mp ended).2.1] at total
  simpa [Run.together] using total

end Call

/-! ### Calls of an executor -/

/-- A call of whose world something holds afterwards if it did before. -/
def Timed.Keeps {ρ : Type} (holds : σ → Prop) (timed : Timed σ ρ) : Prop :=
  ∀ moment, holds moment.world → holds (timed moment).2.world

theorem Timed.keeps_bind {ρ τ : Type} {holds : σ → Prop} {first : Timed σ ρ}
    {next : ρ → Timed σ τ} (keeps : first.Keeps holds)
    (onward : ∀ value, (next value).Keeps holds) :
    (first >>= next).Keeps holds :=
  fun moment before => onward _ _ (keeps moment before)

theorem Timed.keeps_pure {ρ : Type} {holds : σ → Prop} (value : ρ) :
    (pure value : Timed σ ρ).Keeps holds :=
  fun _ before => before

namespace Executor

variable (executor : Executor) {job : Shard → Job σ α}

/-- A scatter-gather call of jobs that give back what they take leaves what others hold. -/
theorem keeps_scatterWith (returns : ∀ shard, Activity.Returns held (job shard) 0)
    (options : ScatterOptions) (targets : Targets) :
    (executor.scatterWith options targets fun shard => .ofJob (job shard)).Keeps (held others) := by
  intro moment total
  obtain ⟨last, ends, whole⟩ :=
    executor.scatterWith_ends options targets (fun shard => .ofJob (job shard)) moment
  rw [whole, Run.after_world]
  exact ends.returns (fun shard => Operation.returns_within (returns shard) _ _)
    (executor.start_orderly options targets _ moment) rfl total

theorem returns_attempt (returns : ∀ shard, Activity.Returns held (job shard) 0) (id : ShardId)
    (cancelled : Bool) :
    Activity.Returns held (executor.attempt id (fun shard => .ofJob (job shard)) cancelled) 0 := by
  unfold attempt
  cases executor.topology.get id with
  | error error => exact rfl
  | ok shard =>
      cases cancelled with
      | true => exact rfl
      | false => exact Operation.returns_within (returns shard) _ _

/-- So does a call to one shard. -/
theorem keeps_on (returns : ∀ shard, Activity.Returns held (job shard) 0) (id : ShardId) :
    (executor.on id fun shard => .ofJob (job shard)).Keeps (held others) :=
  fun _ total => Job.returns_perform (executor.returns_attempt returns id _) total

end Executor

end ShardFleet
