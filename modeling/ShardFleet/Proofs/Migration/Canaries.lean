import ShardFleet.Proofs.Migration.Rollouts

/-!
One shard before all others.

A rollout that begins with one shard leaves the others alone until that shard has succeeded, and for
good if it does not: then they are skipped, in the order of the topology. If it succeeds, what comes
of the others is what a call on them brings in that begins when the first shard is done
(`Rollout.run_canary_gated`).
-/

namespace ShardFleet

namespace Rollout

variable {rollout : Rollout} {direction : Direction} {migration : Migration} {canary : ShardId}
  {moment : Moment Deployment}

/-- A rollout that is to begin with a shard that is not known does nothing. -/
theorem run_of_unknown_canary (rollout : Rollout)
    (unknown : canary ∉ rollout.executor.topology.ids) (direction : Direction)
    (migration : Migration) (moment : Moment Deployment) :
    rollout.run direction migration (.canary canary) moment =
      (.error (.unknownShard canary.name), moment) := by
  have missing : rollout.executor.topology.get canary = .error (.unknownShard canary.name) := by
    cases found : rollout.executor.topology.get canary with
    | ok shard =>
        obtain ⟨mem, rfl⟩ := Topology.get_eq_ok_iff.mp found
        exact absurd (Topology.mem_ids.mpr ⟨shard, mem, rfl⟩) unknown
    | error error =>
        rw [Topology.get] at found
        split at found
        · cases found
        · rw [← Except.error.inj found]
  simp only [run, runUnder, missing]
  rfl

/-- A shard that failed is all that came in, and the others were never started. -/
theorem afterFailedCanary_eq (canary : ShardId) (rest : List ShardId) (error : Error) :
    afterFailedCanary canary rest error =
      { Gathered.record {} ⟨canary, .error error⟩ with
        skipped := rest
        callerCancelled := error.isCancelled } := by
  cases error <;> rfl

/-- While the first shard is visited, nobody sees anything done to another one. -/
theorem share_of_mem_courseOn (rollout : Rollout) (kept : rollout.ledger = .inMemory)
    {seen : Deployment}
    (mem : seen ∈ rollout.executor.courseOn canary (rollout.operation direction migration) moment)
    {id : ShardId} (other : id ≠ canary) : seen.share id = moment.world.share id :=
  Executor.untouched_of_mem_courseOn
    (keeps_operation kept rollout.executor.options direction migration) mem id other

/-- A rollout recorded in memory that begins with one shard, under any options, whatever fails, is
late or is cancelled meanwhile. If the shard is not known nothing is done. Otherwise every shard is
accounted for once, and the shares of the others are as they were all the while that the first is
visited, up to the moment at which this is over.

If the visit has failed, the rollout is over at that moment: the shard is all that came in, as a
failure or as called off, and all others are skipped, in the order of the topology. If it has
succeeded, a call on all others begins at that moment, and the success stands in front of what it
brings in. -/
theorem run_canary_gated (executor : Executor) (direction : Direction) (migration : Migration)
    (canary : ShardId) (moment : Moment Deployment) :
    let rollout : Rollout := ⟨executor, .inMemory⟩
    let operation := rollout.operation direction migration
    let rest := executor.topology.ids.filter (· ≠ canary)
    (canary ∉ executor.topology.ids →
      rollout.run direction migration (.canary canary) moment =
        (.error (.unknownShard canary.name), moment)) ∧
    (canary ∈ executor.topology.ids →
      ∃ gathered ended, rollout.run direction migration (.canary canary) moment =
          (.ok ⟨migration.id, gathered⟩, ended) ∧
        gathered.roll.Perm executor.topology.ids ∧
        ∃ result reached, executor.on canary operation moment = (result, reached) ∧
          (executor.courseOn canary operation moment).getLast? = some reached.world ∧
          (∀ seen ∈ executor.courseOn canary operation moment, ∀ id, id ≠ canary →
            seen.share id = moment.world.share id) ∧
          match result with
          | .error error =>
              ended = reached ∧ gathered =
                { Gathered.record {} ⟨canary, .error error⟩ with
                  skipped := rest
                  callerCancelled := error.isCancelled }
          | .ok outcome =>
              ∃ others, executor.scatter (.some rest) operation reached = (others, ended) ∧
                gathered = { others with answers := ⟨canary, .ok outcome⟩ :: others.answers }) := by
  intro rollout operation rest
  refine ⟨fun unknown => rollout.run_of_unknown_canary unknown direction migration moment,
    fun known => ?_⟩
  have roll : (rollout.runCanary direction migration canary moment).1.roll.Perm
      executor.topology.ids :=
    (runCanary_settled (keeps_visits rfl direction migration) known).1
  have last := executor.getLast?_courseOn canary operation moment
  refine ⟨_, _, run_of_canary known, roll, (executor.on canary operation moment).1,
    (executor.on canary operation moment).2, rfl, last, ?_, ?_⟩
  · intro seen mem id other
    exact rollout.share_of_mem_courseOn rfl mem other
  · rcases rollout.runCanary_cases direction migration canary moment with
      ⟨error, reached, visit, failed⟩ |
      ⟨outcome, reached, gathered, ended, visit, followed, succeeded⟩
    · have visit : executor.on canary operation moment = (.error error, reached) := visit
      rw [visit, failed]
      exact ⟨rfl, afterFailedCanary_eq canary rest error⟩
    · have visit : executor.on canary operation moment = (.ok outcome, reached) := visit
      rw [visit, succeeded]
      exact ⟨gathered, followed, rfl⟩

end Rollout

end ShardFleet
