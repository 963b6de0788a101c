import ShardFleet.Proofs.Migration.Rollouts
import ShardFleet.Proofs.Scatter.OneByOne

/-!
A sequential rollout leaves a clean cut.

No work over connections ever claims to have been called off (`Connection.sincere_use`,
`Connection.sincere_execute`), and neither does the ledger in memory; so a shard that a rollout
reports as cancelled was called off by the rollout itself (`Migration.sincere_visit`). Hence a
rollout that visits one shard at a time succeeds on the shards of the topology up to some place,
where it fails or is called off, and leaves alone all that come after it
(`Rollout.run_sequential_cut`).
-/

namespace ShardFleet

variable {α : Type}

namespace Connection

theorem sincere_acquire (id : ShardId) : (acquire id).Sincere := by
  refine Job.sincere_transact fun world => ?_
  cases refusal : world.network.refusal? id with
  | none => simp
  | some error => simpa using refusal_ne_cancelled refusal

theorem sincere_use {work : Work α} (sincere : work.Sincere) (id : ShardId) :
    (use id work).Sincere :=
  (sincere_acquire id).bind fun _ => sincere.guarded _

theorem sincere_send (id : ShardId) (statement : Statement) : (send id statement).Sincere := by
  have awaited : (await id).Sincere :=
    (Job.sincere_read _).bind Job.sincere_sleep
  refine awaited.bind fun _ => (Job.sincere_change _).bind fun _ => Job.sincere_look fun world => ?_
  cases verdict : (world.shard id).verdict statement with
  | ok value => exact nofun
  | error error =>
      obtain ⟨message, rfl⟩ := SimulatedShard.verdict_error verdict
      exact nofun

theorem sincere_execute (id : ShardId) (statement : Statement) :
    (execute id statement).Sincere :=
  (sincere_send id statement).bind fun _ => Job.sincere_read _

theorem sincere_query (id : ShardId) (statement : Statement) : (query id statement).Sincere :=
  (sincere_send id statement).bind fun _ => Job.sincere_read _

end Connection

namespace Ledger

/-- A migration that cannot be rolled back is said not to be in effect. -/
theorem rollBack_error {ledger : Ledger} {shard : ShardId} {id : String} {instant : UInt64}
    {error : Error} (fails : ledger.rollBack shard id instant = .error error) :
    error = notApplied shard id := by
  unfold rollBack at fails
  split at fails
  · cases fails
  · exact (Except.error.inj fails).symm

end Ledger

namespace Migration

/-- How a failure is told does not make a cancellation of it. -/
theorem failure_ne_cancelled {migration : Migration} {direction : Direction} {id : ShardId}
    {error : Error} (other : error ≠ .cancelled) :
    migration.failure direction id error ≠ .cancelled := by
  unfold failure
  split
  · exact other
  · cases direction <;> exact nofun

theorem sincere_recordRolledBack (id : ShardId) (migration : String) :
    (LedgerStore.inMemory.recordRolledBack id migration).Sincere := by
  refine Job.sincere_transact fun world => ?_
  cases stamped : world.ledger.rollBack id migration world.wallClock with
  | ok ledger => exact nofun
  | error error =>
      rw [Ledger.rollBack_error stamped]
      exact nofun

theorem sincere_elapsedSince (begun : Nat) :
    (elapsedSince begun : Work Duration).Sincere :=
  Job.sincere_time.bind fun _ => Job.sincere_pure _

theorem sincere_runForward (migration : Migration) (id : ShardId) :
    (migration.runForward .inMemory id).Sincere := by
  refine Connection.sincere_use (Job.sincere_time.bind fun begun => ?_) id
  refine (Connection.sincere_execute id _).bind fun _ => ?_
  refine (sincere_elapsedSince begun).bind fun duration => ?_
  exact (Job.sincere_change _).bind fun _ => Job.sincere_pure _

theorem sincere_runBackward (migration : Migration) (id : ShardId) :
    (migration.runBackward .inMemory id).Sincere := by
  refine Connection.sincere_use (Job.sincere_time.bind fun begun => ?_) id
  refine (Connection.sincere_execute id _).bind fun _ => ?_
  refine (sincere_recordRolledBack id migration.id).bind fun _ => ?_
  exact (sincere_elapsedSince begun).bind fun duration => Job.sincere_pure _

/-- With the ledger in memory no visit claims to have been called off. -/
theorem sincere_visit (migration : Migration) (direction : Direction) (id : ShardId) :
    (migration.visit direction .inMemory id).Sincere := by
  refine Job.Sincere.adapt ?_ fun error => failure_ne_cancelled
  have looked : (LedgerStore.inMemory.active id migration.id).Sincere :=
    (Job.sincere_read _).bind fun _ => Job.sincere_pure _
  cases direction with
  | forward =>
      refine (Job.sincere_change _).bind fun _ => looked.bind fun active => ?_
      cases active with
      | none => exact migration.sincere_runForward id
      | some record =>
          simp only
          split
          · exact Job.sincere_pure _
          · exact Job.sincere_throw nofun
  | backward =>
      refine (Job.sincere_change _).bind fun _ => looked.bind fun active => ?_
      cases active with
      | none => exact Job.sincere_pure _
      | some record =>
          simp only
          split
          · exact Job.sincere_throw nofun
          · exact migration.sincere_runBackward id

end Migration

namespace Rollout

/-- A sequential rollout, recorded in memory, whatever fails, is late or is cancelled meanwhile.
It comes to a report that cuts the topology into the shards that answered, at most one that was
called off, and those that were skipped, in the order of the topology. All answers but the last
are successes; if the last is none, then no shard was called off. The shares of skipped shards
are as they were, with all statements that these ever noted. -/
theorem run_sequential_cut (executor : Executor) (direction : Direction) (migration : Migration)
    (moment : Moment Deployment) :
    ∃ gathered ended, run ⟨executor, .inMemory⟩ direction migration .sequential moment =
        (.ok ⟨migration.id, gathered⟩, ended) ∧
      executor.topology.ids =
        gathered.answers.map Answer.shard ++ gathered.cancelled ++ gathered.skipped ∧
      (∀ answer ∈ gathered.answers.dropLast, ∃ outcome, answer.result = .ok outcome) ∧
      (∀ answer error, gathered.answers.getLast? = some answer →
        answer.result = .error error → gathered.cancelled = []) ∧
      gathered.cancelled.length ≤ 1 ∧
      ∀ id ∈ gathered.skipped, ended.world.share id = moment.world.share id := by
  let rollout : Rollout := ⟨executor, .inMemory⟩
  have sincere : ∀ shard ∈ Targets.all.known executor.topology,
      (rollout.operation direction migration shard).Sincere := fun shard _ =>
    Operation.sincere_ofJob (migration.sincere_visit direction shard.id)
  let gone := executor.scatterWith rollout.sequentialOptions .all
    (rollout.operation direction migration) moment
  obtain ⟨roll, cut⟩ : gone.1.roll = executor.topology.ids ∧ gone.1.CleanCut :=
    executor.scatterWith_inLine moment (Nat.le_refl 1) rfl sincere
  have settled : (migration.custody direction).Settled moment.world gone.1 gone.2.world :=
    (scatterWith_settled (keeps_visits rfl direction migration) rollout.sequentialOptions .all
      moment).2
  refine ⟨gone.1, gone.2, rfl, roll.symm, cut.values, cut.failed, cut.cancelled, ?_⟩
  intro id skipped
  refine settled.others id fun started => ?_
  have apart : gone.1.roll.Nodup := roll ▸ executor.topology.distinct
  rw [Gathered.roll_eq] at apart
  exact (List.nodup_append.mp apart).2.2 id started id skipped rfl

/-- Of three shards the second cannot be reached. The first keeps its success, and the third is
skipped. -/
example :
    let third : Shard := ⟨⟨"third"⟩, "10.0.0.3", []⟩
    let topology : Topology := ⟨[.first, .second, third], by decide, by decide⟩
    let network := (Network.ofTopology topology).setReachable Shard.second.id false
    let ran := run ⟨⟨topology, {}⟩, .inMemory⟩ .forward
      ⟨"1", "accounts", "CREATE TABLE a (b INT)", "DROP TABLE a", "11"⟩ .sequential
      { now := 0, world := { network, wallClock := 0 } }
    ran.1 = .ok ⟨"1",
      { answers := [⟨Shard.first.id, .ok (.applied ⟨0⟩)⟩,
          ⟨Shard.second.id, .error (.shardUnreachable Shard.second.id "connection refused")⟩]
        skipped := [third.id] }⟩ := by
  rfl

end Rollout

end ShardFleet
