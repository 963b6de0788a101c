import ShardFleet.Proofs.Migration.Visits
import ShardFleet.Proofs.Scatter.Interruptions
import ShardFleet.Proofs.Scatter.Scripts

/-!
A rollout reports faithfully on every shard.

However the shards are visited, and whatever fails, is late or is cancelled meanwhile, a rollout
accounts for every shard of the topology once, and what it says of a shard is what happened to its
share (`Rollout.run_faithful`). The same holds of every world that others see while the rollout is
under way: each share is as some result would leave it (`Rollout.visible_of_mem_course`).
-/

namespace ShardFleet

/-- The strategy begins with a shard of the topology, if it names one. -/
def RolloutStrategy.Known (strategy : RolloutStrategy) (topology : Topology) : Prop :=
  match strategy with
  | .sequential | .parallel => True
  | .canary shard => shard ∈ topology.ids

instance (strategy : RolloutStrategy) (topology : Topology) :
    Decidable (strategy.Known topology) := by
  unfold RolloutStrategy.Known
  split <;> infer_instance

/-- Whoever is accounted for was started or skipped. -/
theorem Gathered.roll_eq {α : Type} (gathered : Gathered α) :
    gathered.roll = gathered.outcomes.map Answer.shard ++ gathered.skipped := by
  simp [roll, outcomes, Function.comp_def]

namespace Rollout

variable {rollout : Rollout} {direction : Direction} {migration : Migration}
  {moment : Moment Deployment}

/-- If every visit of a shard keeps a promise, then so does every invocation. -/
theorem keeps_invocation {π : Type} {custody : Custody Deployment π MigrationOutcome}
    (visits : ∀ id, custody.Keeps id (migration.visit direction rollout.ledger id))
    (options : ScatterOptions) (shard : Shard) :
    custody.Keeps shard.id
      (Call.invocation ⟨rollout.operation direction migration, options⟩ shard) :=
  (visits shard.id).within options.limit options.limit.ticks

/-- How a call accounts for its targets and leaves their parts. -/
theorem scatterWith_settled {π : Type} {custody : Custody Deployment π MigrationOutcome}
    (visits : ∀ id, custody.Keeps id (migration.visit direction rollout.ledger id))
    (options : ScatterOptions) (targets : Targets) (moment : Moment Deployment) :
    let gone := rollout.executor.scatterWith options targets
      (rollout.operation direction migration) moment
    gone.1.roll.Perm (targets.ids rollout.executor.topology) ∧
      custody.Settled moment.world gone.1 gone.2.world :=
  ⟨rollout.executor.scatterWith_roll options targets _ moment,
    Executor.scatterWith_settled (keeps_invocation visits options)⟩

/-- With the ledger in memory every visit is faithful. -/
theorem keeps_visits (kept : rollout.ledger = .inMemory) (direction : Direction)
    (migration : Migration) (id : ShardId) :
    (migration.custody direction).Keeps id (migration.visit direction rollout.ledger id) :=
  kept ▸ migration.keeps_visit direction id

theorem keeps_operation (kept : rollout.ledger = .inMemory) (options : ScatterOptions)
    (direction : Direction) (migration : Migration) (shard : Shard) :
    (migration.custody direction).Keeps shard.id
      (Call.invocation ⟨rollout.operation direction migration, options⟩ shard) :=
  keeps_invocation (keeps_visits kept direction migration) options shard

/-! ### One shard first -/

/-- The shards that are visited when the first has succeeded. -/
def others (topology : Topology) (canary : ShardId) : Targets :=
  .some (topology.ids.filter (· ≠ canary))

theorem mem_others {topology : Topology} {canary id : ShardId} :
    id ∈ (others topology canary).ids topology ↔ id ∈ topology.ids ∧ id ≠ canary := by
  rw [Targets.mem_ids]
  simp [others, Targets.Covers]

/-- One shard and all others are the topology. -/
theorem perm_ids {topology : Topology} {canary : ShardId} (known : canary ∈ topology.ids)
    {rest : List ShardId} (apart : rest.Nodup)
    (others : ∀ id, id ∈ rest ↔ id ∈ topology.ids ∧ id ≠ canary) :
    (canary :: rest).Perm topology.ids := by
  have fresh : canary ∉ rest := fun mem => ((others canary).mp mem).2 rfl
  have whole : (canary :: rest).Nodup := List.nodup_cons.mpr ⟨fresh, apart⟩
  apply (List.perm_ext_iff_of_nodup whole topology.distinct).mpr
  intro id
  rw [List.mem_cons, others]
  constructor
  · rintro (rfl | ⟨mem, -⟩)
    · exact known
    · exact mem
  · intro mem
    by_cases same : id = canary
    · exact .inl same
    · exact .inr ⟨mem, same⟩

/-- One shard is visited, and the others if that succeeds, whenever the call on the others is
interrupted. -/
theorem runCanaryUnder_cases (rollout : Rollout) (interruption : Interruption)
    (direction : Direction) (migration : Migration) (canary : ShardId)
    (moment : Moment Deployment) :
    let visit := rollout.executor.on canary (rollout.operation direction migration) moment
    let ran := rollout.runCanaryUnder interruption direction migration canary moment
    (∃ error reached, visit = (.error error, reached) ∧
      ran = (afterFailedCanary canary (rollout.executor.topology.ids.filter (· ≠ canary)) error,
        reached)) ∨
    ∃ outcome reached gathered ended, visit = (.ok outcome, reached) ∧
      rollout.executor.scatterUnder interruption rollout.executor.options
        (others rollout.executor.topology canary) (rollout.operation direction migration)
          reached = (gathered, ended) ∧
      ran = ({ gathered with answers := ⟨canary, .ok outcome⟩ :: gathered.answers }, ended) := by
  intro visit ran
  cases visited : visit with
  | mk result reached =>
      have unfolds : ran = _ := Timed.bind_apply _ _ moment
      rw [show rollout.executor.on canary (rollout.operation direction migration) moment =
        (result, reached) from visited] at unfolds
      cases result with
      | error error => exact .inl ⟨error, reached, rfl, unfolds⟩
      | ok outcome => exact .inr ⟨outcome, reached, _, _, rfl, rfl, unfolds⟩

/-- One shard is visited, and the others if that succeeds. -/
theorem runCanary_cases (rollout : Rollout) (direction : Direction) (migration : Migration)
    (canary : ShardId) (moment : Moment Deployment) :
    let visit := rollout.executor.on canary (rollout.operation direction migration) moment
    let ran := rollout.runCanary direction migration canary moment
    (∃ error reached, visit = (.error error, reached) ∧
      ran = (afterFailedCanary canary (rollout.executor.topology.ids.filter (· ≠ canary)) error,
        reached)) ∨
    ∃ outcome reached gathered ended, visit = (.ok outcome, reached) ∧
      rollout.executor.scatterWith rollout.executor.options
        (others rollout.executor.topology canary) (rollout.operation direction migration)
          reached = (gathered, ended) ∧
      ran = ({ gathered with answers := ⟨canary, .ok outcome⟩ :: gathered.answers }, ended) :=
  rollout.runCanaryUnder_cases .never direction migration canary moment

theorem afterFailedCanary_outcomes (canary : ShardId) (rest : List ShardId) (error : Error) :
    (afterFailedCanary canary rest error).outcomes = [⟨canary, .error error⟩] := by
  cases error <;> rfl

theorem afterFailedCanary_roll (canary : ShardId) (rest : List ShardId) (error : Error) :
    (afterFailedCanary canary rest error).roll = canary :: rest := by
  cases error <;> rfl

/-- A rollout that visits one shard first accounts for every shard. -/
theorem runCanaryUnder_roll (rollout : Rollout) (interruption : Interruption) {canary : ShardId}
    (known : canary ∈ rollout.executor.topology.ids) (direction : Direction)
    (migration : Migration) (moment : Moment Deployment) :
    (rollout.runCanaryUnder interruption direction migration canary moment).1.roll.Perm
      rollout.executor.topology.ids := by
  rcases rollout.runCanaryUnder_cases interruption direction migration canary moment with
    ⟨error, reached, -, failed⟩ | ⟨outcome, reached, gathered, ended, -, followed, succeeded⟩
  · rw [failed, afterFailedCanary_roll]
    exact perm_ids known (rollout.executor.topology.distinct.filter _) (by simp)
  · have roll := rollout.executor.scatterUnder_roll interruption rollout.executor.options
      (others rollout.executor.topology canary) (rollout.operation direction migration) reached
    rw [followed] at roll
    rw [succeeded]
    exact (roll.cons canary).trans (perm_ids known (Targets.ids_nodup _ _) fun _ => mem_others)

/-- How a rollout accounts for the shards and leaves their parts, if one shard is visited
first. -/
theorem runCanary_settled {π : Type} {custody : Custody Deployment π MigrationOutcome}
    (visits : ∀ id, custody.Keeps id (migration.visit direction rollout.ledger id))
    {canary : ShardId} (known : canary ∈ rollout.executor.topology.ids) :
    let ran := rollout.runCanary direction migration canary moment
    ran.1.roll.Perm rollout.executor.topology.ids ∧
      custody.Settled moment.world ran.1 ran.2.world := by
  intro ran
  refine ⟨rollout.runCanaryUnder_roll .never known direction migration moment, ?_⟩
  obtain ⟨own, ends⟩ := Executor.on_ends
    (keeps_invocation visits rollout.executor.options) canary moment
  rcases rollout.runCanary_cases direction migration canary moment with
    ⟨error, reached, visit, failed⟩ |
    ⟨outcome, reached, gathered, ended, visit, followed, succeeded⟩
  · rw [visit] at own ends
    have single := afterFailedCanary_outcomes canary
      (rollout.executor.topology.ids.filter (· ≠ canary)) error
    rw [show ran = _ from failed]
    exact Custody.settled_of_single own ends single
  · rw [visit] at own ends
    obtain ⟨roll, settled⟩ := scatterWith_settled visits rollout.executor.options
      (others rollout.executor.topology canary) reached
    rw [followed] at roll settled
    rw [show ran = _ from succeeded]
    apply settled.cons own ends
    intro started
    have listed := roll.mem_iff.mp (Gathered.roll_eq _ ▸ List.mem_append_left _ started)
    exact (mem_others.mp listed).2 rfl

/-! ### All strategies -/

theorem runUnder_of_canary (interruption : Interruption) {canary : ShardId}
    (known : canary ∈ rollout.executor.topology.ids) :
    let ran := rollout.runCanaryUnder interruption direction migration canary moment
    rollout.runUnder interruption direction migration (.canary canary) moment =
      (.ok ⟨migration.id, ran.1⟩, ran.2) := by
  obtain ⟨shard, mem, named⟩ := Topology.mem_ids.mp known
  have found := Topology.get_eq_ok_iff.mpr ⟨mem, named⟩
  simp only [runUnder, found]
  rfl

theorem run_of_canary {canary : ShardId} (known : canary ∈ rollout.executor.topology.ids) :
    let ran := rollout.runCanary direction migration canary moment
    rollout.run direction migration (.canary canary) moment =
      (.ok ⟨migration.id, ran.1⟩, ran.2) :=
  runUnder_of_canary .never known

/-- A rollout whose strategy cannot be followed does nothing. -/
theorem runUnder_of_stranger (rollout : Rollout) {strategy : RolloutStrategy}
    (unknown : ¬ strategy.Known rollout.executor.topology) (interruption : Interruption)
    (direction : Direction) (migration : Migration) (moment : Moment Deployment) :
    ∃ error, rollout.runUnder interruption direction migration strategy moment =
      (.error error, moment) := by
  cases strategy with
  | sequential => exact absurd trivial unknown
  | parallel => exact absurd trivial unknown
  | canary shard =>
      cases found : rollout.executor.topology.get shard with
      | ok target =>
          obtain ⟨mem, rfl⟩ := Topology.get_eq_ok_iff.mp found
          exact absurd (Topology.mem_ids.mpr ⟨target, mem, rfl⟩) unknown
      | error error =>
          refine ⟨error, ?_⟩
          simp only [runUnder, found]
          rfl

theorem run_of_stranger (rollout : Rollout) {strategy : RolloutStrategy}
    (unknown : ¬ strategy.Known rollout.executor.topology) (direction : Direction)
    (migration : Migration) (moment : Moment Deployment) :
    ∃ error, rollout.run direction migration strategy moment = (.error error, moment) :=
  rollout.runUnder_of_stranger unknown .never direction migration moment

/-- A rollout whose strategy can be followed comes to a report. It accounts for every shard once,
and if every visit keeps a promise then it leaves the parts of the shards as was promised. -/
theorem run_keeps {π : Type} {custody : Custody Deployment π MigrationOutcome}
    (visits : ∀ id, custody.Keeps id (migration.visit direction rollout.ledger id))
    {strategy : RolloutStrategy} (known : strategy.Known rollout.executor.topology)
    (moment : Moment Deployment) :
    ∃ gathered ended, rollout.run direction migration strategy moment =
        (.ok ⟨migration.id, gathered⟩, ended) ∧
      gathered.roll.Perm rollout.executor.topology.ids ∧
      custody.Settled moment.world gathered ended.world := by
  cases strategy with
  | sequential =>
      exact ⟨_, _, rfl, scatterWith_settled visits rollout.sequentialOptions .all moment⟩
  | parallel =>
      exact ⟨_, _, rfl, scatterWith_settled visits rollout.executor.options .all moment⟩
  | canary shard =>
      exact ⟨_, _, run_of_canary known, runCanary_settled visits known⟩

/-- With the ledger in memory a rollout leaves the shares of the shards as it says. -/
theorem run_settled (rollout : Rollout) (kept : rollout.ledger = .inMemory)
    {strategy : RolloutStrategy} (known : strategy.Known rollout.executor.topology)
    (direction : Direction) (migration : Migration) (moment : Moment Deployment) :
    ∃ gathered ended, rollout.run direction migration strategy moment =
        (.ok ⟨migration.id, gathered⟩, ended) ∧
      gathered.roll.Perm rollout.executor.topology.ids ∧
      (migration.custody direction).Settled moment.world gathered ended.world :=
  run_keeps (keeps_visits kept direction migration) known moment

/-- A rollout recorded in memory, under any options and from any state that earlier rollouts have
left, whatever fails, is late or is cancelled meanwhile. If its strategy can be followed it comes
to a report that accounts for every shard once. What the report says of a shard that was started
is what happened to the share of the shard; the shares of shards that were skipped, and of those
that are not in the topology, are as they were. -/
theorem run_faithful (executor : Executor) (direction : Direction) (migration : Migration)
    (strategy : RolloutStrategy) (moment : Moment Deployment)
    (known : strategy.Known executor.topology) :
    ∃ gathered ended, run ⟨executor, .inMemory⟩ direction migration strategy moment =
        (.ok ⟨migration.id, gathered⟩, ended) ∧
      gathered.roll.Perm executor.topology.ids ∧
      (∀ answer ∈ gathered.outcomes, migration.Faithful direction answer.shard answer.result
        (moment.world.share answer.shard) (ended.world.share answer.shard)) ∧
      ∀ id, id ∈ gathered.skipped ∨ id ∉ executor.topology.ids →
        ended.world.share id = moment.world.share id := by
  obtain ⟨gathered, ended, ran, roll, settled⟩ :=
    run_settled ⟨executor, .inMemory⟩ rfl known direction migration moment
  have apart := roll.nodup_iff.mpr executor.topology.distinct
  rw [Gathered.roll_eq] at apart
  have untouched : ∀ id, id ∈ gathered.skipped ∨ id ∉ executor.topology.ids →
      ended.world.share id = moment.world.share id := by
    intro id spared
    apply settled.others id
    intro started
    rcases spared with skipped | stranger
    · exact (List.nodup_append.mp apart).2.2 id started id skipped rfl
    · have listed : id ∈ gathered.roll := Gathered.roll_eq _ ▸ List.mem_append_left _ started
      exact stranger (roll.mem_iff.mp listed)
  exact ⟨gathered, ended, ran, roll, settled.outcomes, untouched⟩

/-- A migration that goes to one of two shards first is applied to both. -/
theorem run_faithful_pair :
    let executor : Executor := ⟨.pair, { limit := .ofMillis 5 }⟩
    let migration : Migration := ⟨"1", "accounts", "CREATE TABLE a (b INT)", "DROP TABLE a", "11"⟩
    let strategy := RolloutStrategy.canary Shard.second.id
    let moment : Moment Deployment :=
      { now := 0, world := { network := .ofTopology .pair, wallClock := 0 } }
    strategy.Known executor.topology ∧
      ∃ gathered ended, run ⟨executor, .inMemory⟩ .forward migration strategy moment =
          (.ok ⟨"1", gathered⟩, ended) ∧
        gathered.outcomes = [⟨Shard.second.id, .ok (.applied ⟨0⟩)⟩,
          ⟨Shard.first.id, .ok (.applied ⟨0⟩)⟩] ∧
        ∀ answer ∈ gathered.outcomes, migration.Faithful .forward answer.shard answer.result
          (moment.world.share answer.shard) (ended.world.share answer.shard) := by
  intro executor migration strategy moment
  have known : strategy.Known executor.topology := by decide
  have reported : (run ⟨executor, .inMemory⟩ .forward migration strategy moment).1 =
      .ok ⟨"1", { answers := [⟨Shard.second.id, .ok (.applied ⟨0⟩)⟩,
        ⟨Shard.first.id, .ok (.applied ⟨0⟩)⟩] }⟩ := by
    subst executor migration strategy moment
    rfl
  obtain ⟨gathered, ended, ran, -, faithful, -⟩ :=
    run_faithful executor .forward migration strategy moment known
  rw [ran] at reported
  obtain rfl := (MigrationReport.mk.inj (Except.ok.inj reported)).2
  exact ⟨known, _, ended, ran, rfl, faithful⟩

/-! ### While a rollout is under way -/

/-- The worlds that a rollout goes through, as others see them. -/
def course (rollout : Rollout) (direction : Direction) (migration : Migration)
    (strategy : RolloutStrategy) (moment : Moment Deployment) : List Deployment :=
  let operation := rollout.operation direction migration
  match strategy with
  | .sequential => rollout.executor.course rollout.sequentialOptions .all operation moment
  | .parallel => rollout.executor.course rollout.executor.options .all operation moment
  | .canary shard =>
      rollout.executor.courseOn shard operation moment ++
        match rollout.executor.on shard operation moment with
        | (.ok _, reached) =>
            rollout.executor.course rollout.executor.options
              (others rollout.executor.topology shard) operation reached
        | (.error _, _) => []

variable {strategy : RolloutStrategy}

theorem head?_course : (rollout.course direction migration strategy moment).head? =
    some moment.world := by
  cases strategy with
  | sequential => exact Executor.head?_course _ _ _ _ _
  | parallel => exact Executor.head?_course _ _ _ _ _
  | canary shard => rfl

theorem getLast?_course (known : strategy.Known rollout.executor.topology) :
    (rollout.course direction migration strategy moment).getLast? =
      some (rollout.run direction migration strategy moment).2.world := by
  cases strategy with
  | sequential => exact Executor.getLast?_course _ _ _ _ _
  | parallel => exact Executor.getLast?_course _ _ _ _ _
  | canary canary =>
      have first := rollout.executor.getLast?_courseOn canary
        (rollout.operation direction migration) moment
      rw [run_of_canary known]
      rcases rollout.runCanary_cases direction migration canary moment with
        ⟨error, reached, visit, failed⟩ |
        ⟨outcome, reached, gathered, ended, visit, followed, succeeded⟩
      · rw [visit] at first
        simp only [course, visit, failed, List.append_nil, first]
      · have last := rollout.executor.getLast?_course rollout.executor.options
          (others rollout.executor.topology canary) (rollout.operation direction migration) reached
        rw [followed] at last
        simp only [course, visit, succeeded, List.getLast?_append, last, Option.some_or]

/-- No share is ever left as no result could leave it. -/
theorem visible_of_mem_course (kept : rollout.ledger = .inMemory) {seen : Deployment}
    (mem : seen ∈ rollout.course direction migration strategy moment) :
    (migration.custody direction).Visible moment.world seen := by
  cases strategy with
  | sequential =>
      exact Executor.visible_of_mem_course (keeps_operation kept _ direction migration) mem
  | parallel =>
      exact Executor.visible_of_mem_course (keeps_operation kept _ direction migration) mem
  | canary canary =>
      have invocations := keeps_operation kept rollout.executor.options direction migration
      obtain ⟨own, ends⟩ := Executor.on_ends invocations canary moment
      rcases List.mem_append.mp mem with first | following
      · exact Executor.visible_of_mem_courseOn invocations first
      · rcases rollout.runCanary_cases direction migration canary moment with
          ⟨error, reached, visit, -⟩ | ⟨outcome, reached, -, -, visit, -⟩
        · rw [visit] at following
          cases following
        · rw [visit] at following own ends
          have visible := Executor.visible_of_mem_course invocations following
          have alone := Executor.untouched_of_mem_course invocations following
            fun listed => (mem_others.mp listed).2 rfl
          exact visible.cons own ends alone

end Rollout

end ShardFleet
