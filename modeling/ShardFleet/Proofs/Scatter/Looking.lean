import ShardFleet.Proofs.Scatter.Custody
import ShardFleet.Proofs.Scatter.FailFast

/-!
Calls that only look at the shards.

An operation that looks brings what it sees and leaves the world as it is, on one shard
(`Executor.on_looking`) and on many: whatever else happens to the call, each value it brings in is
what there was to see (`Executor.scatterWith_looking`). If there is something to see everywhere
and the caller waits, every target brings its value in (`Executor.scatterWith_complete`).
-/

namespace ShardFleet

variable {σ α : Type}

/-- Looks at what the world shows of a shard. -/
def Operation.looking (view : ShardId → σ → Except Error α) (shard : Shard) : Operation σ α :=
  .ofJob (Job.look (view shard.id))

/-- Nothing is changed, and a value is what there was to see. -/
def Custody.looking (view : ShardId → σ → Except Error α) : Custody σ σ α where
  part := fun _ world => world
  idle := fun _ found left => left = found
  ends := fun id result found left =>
    left = found ∧ ∀ value, result = .ok value → view id found = .ok value
  idle_refl := fun _ _ => rfl
  calledOff := fun still => ⟨still, fun _ absurd => nomatch absurd⟩
  overdue := fun still => ⟨still, fun _ absurd => nomatch absurd⟩
  stray := fun _ _ => ⟨rfl, fun _ absurd => nomatch absurd⟩

/-- Where nothing but looking is settled, the world is the same and the values are what it
showed. -/
theorem Custody.Settled.looking {view : ShardId → σ → Except Error α} {before after : σ}
    {gathered : Gathered α} (settled : (Custody.looking view).Settled before gathered after) :
    after = before ∧ ∀ entry ∈ gathered.successes, view entry.1 before = .ok entry.2 := by
  refine ⟨?_, fun entry success => ?_⟩
  · by_cases started : (⟨""⟩ : ShardId) ∈ gathered.outcomes.map Answer.shard
    · obtain ⟨answer, mem, -⟩ := List.mem_map.mp started
      exact (settled.outcomes answer mem).1
    · exact settled.others _ started
  · have answered := Gathered.mem_successes.mp success
    exact (settled.outcomes _ (List.mem_append_left _ answered)).2 entry.2 rfl

namespace Executor

variable {executor : Executor} {options : ScatterOptions} {targets : Targets}
  {view : ShardId → σ → Except Error α} {moment : Moment σ}

/-- Looking at one shard is refused only if the caller has cancelled. -/
theorem on_looking {id : ShardId} (known : executor.topology.contains id = true)
    (view : ShardId → σ → Except Error α) (moment : Moment σ) :
    executor.on id (.looking view) moment =
      (if moment.cancellation.hasFired then .error .cancelled else view id moment.world,
        moment) := by
  obtain ⟨shard, mem, rfl⟩ := Topology.mem_ids.mp (Topology.contains_iff.mp known)
  have attempted : executor.on shard.id (.looking view) moment =
      (executor.attempt shard.id (.looking view) moment.cancellation.hasFired).perform moment := rfl
  rw [attempted, attempt, Topology.get_of_mem mem]
  cases moment.cancellation.hasFired <;> rfl

theorem keeps_looking (options : ScatterOptions) (view : ShardId → σ → Except Error α)
    (shard : Shard) :
    (Custody.looking view).Keeps shard.id (Call.invocation ⟨.looking view, options⟩ shard) := by
  refine Custody.Keeps.within (fun world => ?_) options.limit options.limit.ticks
  exact Job.tends_look.mpr ⟨rfl, fun _ seen => seen⟩

/-- A call that only looks leaves the world as it is, and every value it brings in is what there
was to see. -/
theorem scatterWith_looking :
    (executor.scatterWith options targets (.looking view) moment).2.world = moment.world ∧
      ∀ entry ∈ (executor.scatterWith options targets (.looking view) moment).1.successes,
        view entry.1 moment.world = .ok entry.2 :=
  Custody.Settled.looking (scatterWith_settled (keeps_looking options view))

/-- If there is something to see everywhere and the caller waits, nothing fails and nothing is
called off or skipped. -/
theorem scatterWith_complete (patient : moment.cancellation = .never)
    (known : ∀ id, targets.Covers executor.topology id → executor.topology.contains id = true)
    (shown : ∀ id world, ∃ value, view id world = .ok value) :
    let gathered := (executor.scatterWith options targets (.looking view) moment).1
    gathered.isComplete = true ∧ gathered.callerCancelled = false := by
  intro gathered
  have quiet : gathered.failures = [] := failures_eq_nil known fun shard _ => shown shard.id
  have sincere : ∀ shard ∈ targets.known executor.topology,
      (Operation.looking view shard).Sincere := by
    intro shard _ world
    obtain ⟨value, seen⟩ := shown shard.id world
    have returns : (Ending.returned (view shard.id world) : Ending σ α).fate ≠
        .returned (.error .cancelled) := by simp [Ending.fate, seen]
    exact returns
  obtain ⟨last, ends, whole⟩ :=
    executor.scatterWith_ends options targets (.looking view) moment
  have same : gathered = last.outcome := congrArg Prod.fst whole
  have waits := ends.1.awaited (executor.start_awaited options targets (.looking view) patient)
  have uncut : gathered.skipped = [] ∧ gathered.cancelled = [] := by
    rw [same] at quiet ⊢
    by_contra cut
    rcases hasCause_of_ends ends sincere (by tauto) with failed | fired
    · exact failed quiet
    · rw [waits.unfired] at fired
      cases fired
  refine ⟨?_, ?_⟩
  · simp [Gathered.isComplete, quiet, uncut]
  · rw [same]
    exact waits.unheard

end Executor

end ShardFleet
