import ShardFleet.Proofs.Connections
import ShardFleet.Proofs.Migration.Rollouts
import ShardFleet.Proofs.Scatter.Assured
import ShardFleet.Proofs.Scatter.OneByOne

/-!
What a rollout will come to.

With the ledger in memory a visit is determined by what it meets of its shard, apart from the time
that it measures (`Migration.foreseen`, `Migration.assures_visit`). So if it is foreseen for every
shard that the visit succeeds, a rollout whose caller waits is complete, however its strategy
orders the visits, and comes to what was foreseen (`Rollout.run_foreseen`).
-/

namespace ShardFleet

variable {id : ShardId} {world : Deployment} {late : Prop} {left : Nat} {limit : Duration}

/-! ### Statements under a time limit -/

namespace Access

/-- What a statement over a connection of its own comes to under a time limit. -/
def answer (met : Access) (id : ShardId) (limit : Duration) (statement : Statement) :
    Except Error Unit :=
  match met.refusal with
  | some error => .error error
  | none =>
      let shard := met.share.simulated.getD {}
      if shard.latency.sleepTicks ≤ limit.ticks then shard.verdict statement
      else .error (.shardTimeout id limit)

variable {statement : Statement} {shard : SimulatedShard}

/-- A statement is answered after the latency of the shard, if this is not too long. -/
theorem spends_send {ends : Except Error Unit → Nat → Deployment → Prop}
    (present : (world.share id).simulated = some shard)
    (slow : left < shard.latency.sleepTicks → late)
    (answered : shard.latency.sleepTicks ≤ left → ∀ later : Deployment,
      later.access id = world.access id →
      ends (shard.verdict statement) (left - shard.latency.sleepTicks)
        (later.onShard id (·.receive statement))) :
    Activity.Spends Deployment.access id late ends (Connection.send id statement) left world := by
  have waits : (world.shard id).latency = shard.latency := by
    have there : world.network.shard? id = some shard := present
    rw [Deployment.shard, there]
    rfl
  rw [← waits] at slow answered
  refine Connection.spends_send (fun later => touches_onShard later id _) slow ?_
  intro enough later same
  have answers : ((later.onShard id (·.receive statement)).shard id).verdict statement =
      shard.verdict statement := by
    have still : (later.share id).simulated = some shard :=
      (congrArg (fun met : Access => met.share.simulated) same).trans present
    have sent := (Noted.refl (later.access id)).receive statement
    exact (sent.answering still).verdict statement
  rw [answers]
  exact answered enough later same

/-- Over a connection of its own. Where it is refused, nothing is done. -/
theorem spends_use {α : Type} {ends : Except Error α → Nat → Deployment → Prop} {work : Work α}
    (refused : ∀ error, (world.access id).refusal = some error → ends (.error error) left world)
    (granted : ∀ shard, (world.access id).refusal = none →
      (world.share id).simulated = some shard →
      Activity.Spends Deployment.access id late
        (fun result left later => ends result left (Connection.release id later)) work left
        (world.onShard id .connect)) :
    Activity.Spends Deployment.access id late ends (Connection.use id work) left world := by
  refine Connection.spends_use (touches_onShard world id _)
    (fun later => touches_onShard later id _) refused fun refusal => ?_
  obtain ⟨shard, present⟩ := Connection.present_of_granted refusal
  exact granted shard refusal present

end Access

/-! ### What is foreseen -/

/-- The outcome without the time that was measured. -/
def MigrationOutcome.untimed : MigrationOutcome → MigrationOutcome
  | .applied _ => .applied ⟨0⟩
  | .alreadyApplied => .alreadyApplied
  | .rolledBack _ => .rolledBack ⟨0⟩
  | .notApplied => .notApplied

namespace Migration

variable {migration : Migration} {direction : Direction}

/-- What a visit of a shard comes to that was met in this way, under a time limit and apart from
the time that it measures. -/
def foreseen (migration : Migration) (direction : Direction) (limit : Duration) (id : ShardId)
    (met : Access) : Except Error MigrationOutcome :=
  let answer := met.answer id limit (migration.script direction)
  Except.mapError (migration.failure direction id)
    (match direction, MigrationRecord.latestActive? met.share.history migration.id with
    | .forward, none => answer.map fun _ => .applied ⟨0⟩
    | .forward, some record =>
        if record.checksum = migration.checksum then .ok .alreadyApplied
        else .error (.checksumMismatch migration.id record.checksum migration.checksum)
    | .backward, none => .ok .notApplied
    | .backward, some _ =>
        if Text.isBlank migration.down then
          .error (.statement "migration has no down script")
        else answer.map fun _ => .rolledBack ⟨0⟩)

/-- Running a script over a connection of its own, and then something that does not wait. -/
theorem spends_script {results : Except Error MigrationOutcome → Prop} {script : Statement}
    {rest : Nat → Work MigrationOutcome}
    (overdue : results (.error (.shardTimeout id limit)) → late)
    (failed : ∀ error, (world.access id).answer id limit script = .error error →
      results (.error error))
    (succeeded : (world.access id).answer id limit script = .ok () →
      ∀ begun left later, (later : Deployment).ledger.history id = world.ledger.history id →
        Activity.Spends Deployment.access id late (fun result _ _ => results result)
          (rest begun) left later) :
    Activity.Spends Deployment.access id late (fun result _ _ => results result)
      (Connection.use id do
        let begun ← Job.time
        let _ ← Connection.execute id script
        rest begun) limit.ticks world := by
  apply Access.spends_use
  · intro error refused
    apply failed error
    rw [Access.answer, refused]
  · intro shard granted present
    have answers : (world.access id).answer id limit script =
        if shard.latency.sleepTicks ≤ limit.ticks then shard.verdict script
        else .error (.shardTimeout id limit) := by
      have there : (world.access id).share.simulated = some shard := present
      rw [Access.answer, granted, there]
      rfl
    have opened : ((world.onShard id .connect).share id).simulated = some shard.connect := by
      rw [Deployment.share_onShard_self, Share.onShard, present]
      rfl
    rw [Job.spends_bind, Job.spends_time]
    intro begun
    apply Job.spends_bind.mpr
    apply Job.spends_bind.mpr
    apply Access.spends_send opened
    · intro slow
      exact overdue (failed _ (answers.trans (if_neg (Nat.not_le_of_lt slow))))
    · intro enough later same
      have inTime : shard.latency.sleepTicks ≤ limit.ticks := enough
      rw [if_pos inTime] at answers
      have verdict : shard.connect.verdict script = shard.verdict script := rfl
      rw [verdict]
      cases answered : shard.verdict script with
      | error error => exact failed error (answers.trans answered)
      | ok value =>
          refine Job.spends_look.mpr (succeeded (answers.trans answered) begun _ _ ?_)
          exact congrArg (fun met : Access => met.share.history) same

/-- Opening the ledger of a shard and looking a migration up in it touches nothing. -/
theorem spends_consult {ends : Except Error MigrationOutcome → Nat → Deployment → Prop}
    {next : Option MigrationRecord → Work MigrationOutcome}
    (onward : ∀ opened : Deployment, opened.access id = world.access id →
      Activity.Spends Deployment.access id late ends
        (next (MigrationRecord.latestActive? (world.access id).share.history migration.id))
        left opened) :
    Activity.Spends Deployment.access id late ends
      (do
        LedgerStore.inMemory.ensure id
        next (← LedgerStore.inMemory.active id migration.id) : Work MigrationOutcome)
      left world := by
  have opens : ∀ other,
      ({ world with ledger := world.ledger.ensure id } : Deployment).access other =
        world.access other := fun other => congrArg (Access.mk · _) (world.share_ensure id other)
  refine Job.spends_bind.mpr (Job.spends_change.mpr ⟨fun other _ => opens other, ?_⟩)
  refine Job.spends_bind.mpr (Job.spends_bind.mpr (Job.spends_look.mpr (Job.spends_pure.mpr ?_)))
  have looked : ({ world with ledger := world.ledger.ensure id } : Deployment).ledger.history id =
      (world.access id).share.history :=
    congrArg (fun met : Access => met.share.history) (opens id)
  rw [looked]
  exact onward _ (opens id)

variable {results : Except Error MigrationOutcome → Prop}

/-- A script that runs comes to what its statement is answered with. -/
theorem spends_runForward
    (overdue : results (.error (.shardTimeout id limit)) → late)
    (failed : ∀ error, (world.access id).answer id limit (.plain migration.up) = .error error →
      results (.error error))
    (applied : (world.access id).answer id limit (.plain migration.up) = .ok () →
      ∀ duration, results (.ok (.applied duration))) :
    Activity.Spends Deployment.access id late (fun result _ _ => results result)
      (migration.runForward .inMemory id) limit.ticks world := by
  apply spends_script overdue failed
  intro answered begun left later _
  refine Job.spends_bind.mpr (Job.spends_bind.mpr (Job.spends_time.mpr fun now => ?_))
  apply Job.spends_bind.mpr
  apply Job.spends_change.mpr
  constructor
  · intro other different
    apply congrArg (Access.mk · _)
    rw [Deployment.share_append, if_neg different]
  · exact applied answered _

/-- So does a reverse script, since the migration still is in effect when it has run. -/
theorem spends_runBackward {record : MigrationRecord}
    (active : MigrationRecord.latestActive? (world.access id).share.history migration.id =
      some record)
    (overdue : results (.error (.shardTimeout id limit)) → late)
    (failed : ∀ error, (world.access id).answer id limit (.plain migration.down) = .error error →
      results (.error error))
    (rolledBack : (world.access id).answer id limit (.plain migration.down) = .ok () →
      ∀ duration, results (.ok (.rolledBack duration))) :
    Activity.Spends Deployment.access id late (fun result _ _ => results result)
      (migration.runBackward .inMemory id) limit.ticks world := by
  apply spends_script overdue failed
  intro answered begun left later same
  have stillActive : later.ledger.active? id migration.id = some record := by
    rw [Ledger.active?, same]
    exact active
  obtain ⟨ledger, stamps, others, -⟩ :=
    Ledger.rollBack_of_active stillActive later.wallClock
  apply Job.spends_bind.mpr
  apply (Job.spends_transact_ok { later with ledger } () (by rw [stamps]; rfl)).mpr
  constructor
  · intro other different
    apply congrArg (Access.mk · _)
    simp only [Deployment.share, others other different]
  · exact Job.spends_bind.mpr (Job.spends_bind.mpr
      (Job.spends_time.mpr fun now => rolledBack answered _))

/-- A visit comes to what is foreseen for the shard as it was met. -/
theorem assures_visit (migration : Migration) (direction : Direction) (limit : Duration)
    (id : ShardId) (met : Access) :
    ((Operation.ofJob (migration.visit direction .inMemory id)).within (.shardTimeout id limit)
      limit.ticks).Assures Deployment.access id met
        fun result => result.map MigrationOutcome.untimed =
          migration.foreseen direction limit id met := by
  apply Operation.assures_within
  rintro world rfl
  apply Job.spends_adapt.mpr
  cases direction with
  | forward =>
      apply spends_consult
      intro opened same
      cases active : MigrationRecord.latestActive? (world.access id).share.history migration.id with
      | none =>
          refine spends_runForward (fun overdue => overdue) ?_ ?_
          · intro error answered
            rw [same] at answered
            simp only [foreseen, active, script, answered]
            rfl
          · intro answered duration
            rw [same] at answered
            simp only [foreseen, active, script, answered]
            rfl
      | some record =>
          simp only
          split
          · next agrees =>
              apply Job.spends_pure.mpr
              simp only [foreseen, active, if_pos agrees]
              rfl
          · next differs =>
              apply Job.spends_throw.mpr
              simp only [foreseen, active, if_neg differs]
              rfl
  | backward =>
      apply spends_consult
      intro opened same
      cases active : MigrationRecord.latestActive? (world.access id).share.history migration.id with
      | none =>
          apply Job.spends_pure.mpr
          simp only [foreseen, active]
          rfl
      | some record =>
          simp only
          split
          · next blank =>
              apply Job.spends_throw.mpr
              simp only [foreseen, active, if_pos blank]
              rfl
          · next filled =>
              refine spends_runBackward (same ▸ active) (fun overdue => overdue) ?_ ?_
              · intro error answered
                rw [same] at answered
                simp only [foreseen, active, script, answered, if_neg filled]
                rfl
              · intro answered duration
                rw [same] at answered
                simp only [foreseen, active, script, answered, if_neg filled]
                rfl

/-- A visit that is foreseen to succeed does. -/
theorem assures_success {met : Access} {outcome : MigrationOutcome}
    (succeeds : migration.foreseen direction limit id met = .ok outcome) :
    ((Operation.ofJob (migration.visit direction .inMemory id)).within (.shardTimeout id limit)
      limit.ticks).Assures Deployment.access id met
        fun result => ∃ value, result = .ok value ∧
          migration.foreseen direction limit id met = .ok value.untimed := by
  refine (migration.assures_visit direction limit id met).mono fun result comes => ?_
  cases result with
  | ok value => exact ⟨value, rfl, comes.symm⟩
  | error error => cases comes.trans succeeds

end Migration

/-! ### Rollouts -/

namespace Rollout

variable {rollout : Rollout} {direction : Direction} {migration : Migration}
  {strategy : RolloutStrategy} {moment : Moment Deployment}

/-- The visits of these shards are foreseen to succeed. -/
def Smooth (rollout : Rollout) (direction : Direction) (migration : Migration)
    (world : Deployment) (ids : List ShardId) : Prop :=
  ∀ id ∈ ids, ∃ outcome, migration.foreseen direction rollout.executor.options.limit id
    (world.access id) = .ok outcome

/-- The outcome is what was foreseen for the shard, and the time that it took. -/
def Foretold (rollout : Rollout) (direction : Direction) (migration : Migration)
    (world : Deployment) (id : ShardId) (outcome : MigrationOutcome) : Prop :=
  migration.foreseen direction rollout.executor.options.limit id (world.access id) =
    .ok outcome.untimed

/-- The invocation of a visit that is foreseen to succeed does, where the shard is met as it was
then. -/
theorem assures_invocation (kept : rollout.ledger = .inMemory) {options : ScatterOptions}
    (limit : options.limit = rollout.executor.options.limit) {ids : List ShardId}
    (smooth : rollout.Smooth direction migration moment.world ids) {shard : Shard}
    (listed : shard.id ∈ ids) :
    (Call.invocation ⟨rollout.operation direction migration, options⟩ shard).Assures
      Deployment.access shard.id (moment.world.access shard.id)
      (fun result => ∃ outcome, result = .ok outcome ∧
        rollout.Foretold direction migration moment.world shard.id outcome) := by
  obtain ⟨outcome, succeeds⟩ := smooth shard.id listed
  have assured := Migration.assures_success succeeds
  unfold Call.invocation operation Foretold
  rw [limit, kept]
  exact assured

/-- If all visits are foreseen to succeed, a call on some shards of the topology whose caller waits
is complete, and comes to what was foreseen, so long as each of these shards is as it was then. -/
theorem scatterWith_foreseen (kept : rollout.ledger = .inMemory) {options : ScatterOptions}
    (limit : options.limit = rollout.executor.options.limit) {targets : Targets}
    (known : targets.strays rollout.executor.topology = [])
    (smooth : rollout.Smooth direction migration moment.world
      (targets.ids rollout.executor.topology))
    {reached : Moment Deployment} (patient : reached.cancellation = .never)
    (same : ∀ id ∈ targets.ids rollout.executor.topology,
      reached.world.access id = moment.world.access id) :
    let gathered := (rollout.executor.scatterWith options targets
      (rollout.operation direction migration) reached).1
    gathered.isComplete = true ∧ ∀ answer ∈ gathered.answers, ∃ outcome,
      answer.result = .ok outcome ∧
        rollout.Foretold direction migration moment.world answer.shard outcome := by
  have assured : ∀ shard ∈ targets.known rollout.executor.topology,
      (Call.invocation ⟨rollout.operation direction migration, options⟩ shard).Assures
        Deployment.access shard.id (reached.world.access shard.id)
        (fun result => ∃ outcome, result = .ok outcome ∧
          rollout.Foretold direction migration moment.world shard.id outcome) := by
    intro shard mem
    have listed : shard.id ∈ targets.ids rollout.executor.topology :=
      (targets.split_perm _).mem_iff.mp (List.mem_append_right _ (List.mem_map_of_mem mem))
    rw [same shard.id listed]
    exact assures_invocation kept limit smooth listed
  exact Executor.scatterWith_succeeds patient known assured

/-- The visit of one shard on its own. -/
theorem on_foreseen (kept : rollout.ledger = .inMemory)
    (smooth : rollout.Smooth direction migration moment.world rollout.executor.topology.ids)
    (patient : moment.cancellation = .never) {id : ShardId}
    (listed : id ∈ rollout.executor.topology.ids) :
    let visit := rollout.executor.on id (rollout.operation direction migration) moment
    (∃ outcome, visit.1 = .ok outcome ∧
      rollout.Foretold direction migration moment.world id outcome) ∧
      TouchesOnly Deployment.access id moment.world visit.2.world ∧
      visit.2.cancellation = .never := by
  obtain ⟨shard, mem, rfl⟩ := Topology.mem_ids.mp listed
  have found := Topology.find?_eq_some_iff.mpr ⟨mem, rfl⟩
  exact Executor.on_assured found patient (assures_invocation kept rfl smooth listed)

/-- What succeeds on each shard on its own is foreseen to succeed. -/
theorem smooth_of_alone (kept : rollout.ledger = .inMemory) (patient : moment.cancellation = .never)
    (alone : ∀ id ∈ rollout.executor.topology.ids, ∃ outcome,
      (rollout.executor.on id (rollout.operation direction migration) moment).1 = .ok outcome) :
    rollout.Smooth direction migration moment.world rollout.executor.topology.ids := by
  intro id listed
  obtain ⟨outcome, success⟩ := alone id listed
  obtain ⟨shard, mem, rfl⟩ := Topology.mem_ids.mp listed
  have found := Topology.find?_eq_some_iff.mpr ⟨mem, rfl⟩
  have assured : (rollout.executor.invocation (rollout.operation direction migration) shard).Assures
      Deployment.access shard.id (moment.world.access shard.id)
      (fun result => result.map MigrationOutcome.untimed = migration.foreseen direction
        rollout.executor.options.limit shard.id (moment.world.access shard.id)) := by
    unfold Executor.invocation operation
    rw [kept]
    exact migration.assures_visit direction rollout.executor.options.limit shard.id _
  obtain ⟨comes, -⟩ := Executor.on_assured found patient assured
  exact ⟨outcome.untimed, comes.symm.trans (congrArg _ success)⟩

theorem strays_others (topology : Topology) (canary : ShardId) :
    (others topology canary).strays topology = [] :=
  Targets.strays_eq_nil fun _ covered => (List.mem_filter.mp covered).1

/-- If it is foreseen for every shard of the topology that its visit succeeds, a rollout whose
caller waits is complete under every strategy, and comes to what was foreseen. -/
theorem run_foreseen (kept : rollout.ledger = .inMemory)
    (known : strategy.Known rollout.executor.topology) (patient : moment.cancellation = .never)
    (smooth : rollout.Smooth direction migration moment.world rollout.executor.topology.ids) :
    ∃ gathered ended, rollout.run direction migration strategy moment =
        (.ok ⟨migration.id, gathered⟩, ended) ∧
      gathered.isComplete = true ∧ ∀ answer ∈ gathered.answers, ∃ outcome,
        answer.result = .ok outcome ∧
          rollout.Foretold direction migration moment.world answer.shard outcome := by
  cases strategy with
  | sequential =>
      have limit : rollout.sequentialOptions.limit = rollout.executor.options.limit := rfl
      exact ⟨_, _, rfl, scatterWith_foreseen kept limit (Executor.strays_all _) smooth patient
        fun _ _ => rfl⟩
  | parallel =>
      exact ⟨_, _, rfl, scatterWith_foreseen kept rfl (Executor.strays_all _) smooth patient
        fun _ _ => rfl⟩
  | canary canary =>
      refine ⟨_, _, run_of_canary known, ?_⟩
      obtain ⟨⟨foretold, success, comes⟩, own, waits⟩ := on_foreseen kept smooth patient known
      rcases rollout.runCanary_cases direction migration canary moment with
        ⟨error, reached, visit, -⟩ | ⟨outcome, reached, gathered, ended, visit, followed, ran⟩
      · rw [visit] at success
        cases success
      · rw [visit] at success own waits
        obtain rfl := Except.ok.inj success
        -- The first visit touched its own shard only, so the others are met as they were foreseen.
        have untouched : ∀ id ∈ (others rollout.executor.topology canary).ids
            rollout.executor.topology, reached.world.access id = moment.world.access id :=
          fun id mem => own id (mem_others.mp mem).2
        have restSmooth : rollout.Smooth direction migration moment.world
            ((others rollout.executor.topology canary).ids rollout.executor.topology) :=
          fun id mem => smooth id (mem_others.mp mem).1
        obtain ⟨complete, answers⟩ := scatterWith_foreseen kept rfl
          (strays_others rollout.executor.topology canary) restSmooth waits untouched
        rw [followed] at complete answers
        rw [ran]
        constructor
        · simpa [Gathered.isComplete, Gathered.failures] using complete
        · exact List.forall_mem_cons.mpr ⟨⟨_, rfl, comes⟩, answers⟩

end Rollout

end ShardFleet
