import ShardFleet.Proofs.Migration.Foresight
import ShardFleet.Proofs.Migration.Sequence
import ShardFleet.Proofs.Migration.Stamps

/-!
Rollouts that follow one another, and rollouts that might have been.

What rollouts record of a migration on a shard never stands twice (`Ledger.Reached.standing_le`).
Where a migration is in effect everywhere, applying it does nothing
(`Rollout.completes_of_latest`), and where it was applied, rolling it back leaves one stamped record
behind (`Rollout.Completes.undone`). Two rollouts that are complete and began in the same state have
done the same, however their strategies ordered the visits (`Rollout.Completes.alike`).
`Rollout.run_repeatable` says all this of one migration.
-/

namespace ShardFleet

/-! ### Records without their times -/

namespace MigrationRecord

variable {id : String} {instant later : UInt64} {history before after last : List MigrationRecord}

/-- The record without the times that it was made and stamped at, and the one that was measured.
Whether it is stamped is kept. -/
def untimed (record : MigrationRecord) : MigrationRecord :=
  { record with
    appliedAt := 0
    duration := 0
    rolledBackAt := record.rolledBackAt.map fun _ => 0 }

theorem untimed_applied (migration : Migration) (instant : UInt64) (duration : Duration) :
    (applied migration instant duration).untimed = applied migration 0 ⟨0⟩ := rfl

theorem latestActive?_append_applied (migration : Migration) (instant : UInt64)
    (duration : Duration) (history : List MigrationRecord) :
    latestActive? (history ++ [applied migration instant duration]) migration.id =
      some (applied migration instant duration) := by
  simp [latestActive?, isActiveOf_applied]

theorem Stamped.stampFirst_eq (stamped : Stamped id instant before after) :
    Ledger.stampFirst id instant before.reverse = some after.reverse := by
  obtain ⟨earlier, record, rest, rfl, active, passed, rfl⟩ := stamped
  have stamps := Ledger.stampFirst_append instant earlier.reverse
    (fun other mem => passed other (List.mem_reverse.mp mem)) active
  simpa using stamps

/-- Which record is stamped does not depend on when. -/
theorem Stamped.untimed_eq (stamped : Stamped id instant before after)
    (other : Stamped id later before last) : after.map untimed = last.map untimed := by
  obtain ⟨earlier, record, rest, rfl, active, passed, rfl⟩ := stamped
  have restamped : Stamped id later (earlier ++ record :: rest)
      (earlier ++ { record with rolledBackAt := some later } :: rest) :=
    ⟨earlier, record, rest, rfl, active, passed, rfl⟩
  have same := Option.some.inj (restamped.stampFirst_eq.symm.trans other.stampFirst_eq)
  rw [← List.reverse_inj.mp same]
  simp [untimed]

/-- If the last record is an active one, it is this that is stamped. -/
theorem Stamped.of_append {record : MigrationRecord} (active : record.isActiveOf id = true)
    (stamped : Stamped id instant (history ++ [record]) after) :
    after = history ++ [{ record with rolledBackAt := some instant }] := by
  have only : Stamped id instant (history ++ [record])
      (history ++ [{ record with rolledBackAt := some instant }]) :=
    ⟨history, record, [], rfl, active, nofun, rfl⟩
  exact List.reverse_inj.mp (Option.some.inj (stamped.stampFirst_eq.symm.trans only.stampFirst_eq))

end MigrationRecord

/-! ### What a visit that succeeds does -/

namespace Migration

variable {migration : Migration} {direction : Direction} {id : ShardId}
  {found left met last : Share} {result : Except Error MigrationOutcome}
  {outcome value : MigrationOutcome}

/-- What a visit that succeeds comes to, by what it finds recorded. -/
def due (migration : Migration) (direction : Direction) (history : List MigrationRecord) :
    MigrationOutcome :=
  match direction, MigrationRecord.latestActive? history migration.id with
  | .forward, none => .applied ⟨0⟩
  | .forward, some _ => .alreadyApplied
  | .backward, none => .notApplied
  | .backward, some _ => .rolledBack ⟨0⟩

theorem Faithful.untimed_eq
    (faithful : migration.Faithful direction id (.ok outcome) found left) :
    outcome.untimed = migration.due direction found.history := by
  cases outcome with
  | applied duration =>
      obtain ⟨rfl, inactive, -⟩ := faithful
      simp only [due, inactive, MigrationOutcome.untimed]
  | alreadyApplied =>
      obtain ⟨rfl, -, record, active, -⟩ := faithful
      simp only [due, active, MigrationOutcome.untimed]
  | rolledBack duration =>
      obtain ⟨rfl, -, stamped⟩ := faithful
      have stands : 0 < MigrationRecord.standing migration.id found.history := by
        rw [stamped.standing_eq migration.id, if_pos rfl]
        exact Nat.succ_pos _
      obtain ⟨record, active⟩ := MigrationRecord.exists_latest_of_standing stands
      simp only [due, active, MigrationOutcome.untimed]
  | notApplied =>
      obtain ⟨rfl, -, inactive⟩ := faithful
      simp only [due, inactive, MigrationOutcome.untimed]

/-- Visits that succeed do the same to shares that are the same, apart from times. -/
theorem Faithful.alike (one : migration.Faithful direction id (.ok outcome) found left)
    (other : migration.Faithful direction id (.ok value) met last)
    (history : met.history = found.history) (log : met.log = found.log) :
    last.log = left.log ∧ last.history.map MigrationRecord.untimed =
      left.history.map MigrationRecord.untimed := by
  have same : outcome.untimed = value.untimed := by
    rw [one.untimed_eq, other.untimed_eq, history]
  -- Outcomes of different kinds differ also without their times.
  cases outcome <;> cases value <;> cases same
  · obtain ⟨-, -, sent, records⟩ := one
    obtain ⟨-, -, resent, again⟩ := other
    constructor
    · rw [resent.log_eq, sent.log_eq, log]
    · simp [records, again, history, MigrationRecord.untimed_applied]
  · obtain ⟨-, rfl, -⟩ := one
    obtain ⟨-, rfl, -⟩ := other
    exact ⟨log, by rw [history]⟩
  · obtain ⟨-, sent, stamped⟩ := one
    obtain ⟨-, resent, again⟩ := other
    constructor
    · rw [resent.log_eq, sent.log_eq, log]
    · rw [history] at again
      exact again.untimed_eq stamped
  · obtain ⟨-, rfl, -⟩ := one
    obtain ⟨-, rfl, -⟩ := other
    exact ⟨log, by rw [history]⟩

/-- Applying a migration that is not in effect records it. -/
theorem Faithful.records (faithful : migration.Faithful .forward id (.ok outcome) found left)
    (inactive : MigrationRecord.latestActive? found.history migration.id = none) :
    ∃ duration, left.history =
      found.history ++ [.applied migration found.wallClock duration] := by
  cases outcome with
  | applied duration => exact ⟨duration, faithful.2.2.2⟩
  | alreadyApplied =>
      obtain ⟨-, -, record, active, -⟩ := faithful
      cases inactive.symm.trans active
  | rolledBack => cases faithful.1
  | notApplied => cases faithful.1

/-- Applying a migration that is in effect touches nothing. -/
theorem Faithful.spares (faithful : migration.Faithful .forward id (.ok outcome) found left)
    {record : MigrationRecord}
    (active : MigrationRecord.latestActive? found.history migration.id = some record) :
    outcome = .alreadyApplied ∧ left = found := by
  cases outcome with
  | applied => cases faithful.2.1.symm.trans active
  | alreadyApplied => exact ⟨rfl, faithful.2.1⟩
  | rolledBack => cases faithful.1
  | notApplied => cases faithful.1

/-- Rolling back a migration that is in effect stamps its latest record. -/
theorem Faithful.stamps (faithful : migration.Faithful .backward id (.ok outcome) found left)
    {record : MigrationRecord}
    (active : MigrationRecord.latestActive? found.history migration.id = some record) :
    MigrationRecord.Stamped migration.id found.wallClock found.history left.history := by
  cases outcome with
  | applied => cases faithful.1
  | alreadyApplied => cases faithful.1
  | rolledBack duration => exact faithful.2.2
  | notApplied => cases faithful.2.2.symm.trans active

/-- What was applied is the latest that is in effect. -/
theorem Faithful.latest (faithful : migration.Faithful .forward id (.ok outcome) found left) :
    ∃ record, MigrationRecord.latestActive? left.history migration.id = some record ∧
      record.checksum = migration.checksum := by
  cases outcome with
  | applied duration =>
      obtain ⟨-, -, -, records⟩ := faithful
      rw [records]
      exact ⟨_, MigrationRecord.latestActive?_append_applied migration _ _ _, rfl⟩
  | alreadyApplied =>
      obtain ⟨-, rfl, latest⟩ := faithful
      exact latest
  | rolledBack => cases faithful.1
  | notApplied => cases faithful.1

/-- A visit does not record a migration that is in effect, so that one record of it stands at
most. -/
theorem Faithful.standing_le (faithful : migration.Faithful direction id result found left)
    {other : String} (single : MigrationRecord.standing other found.history ≤ 1) :
    MigrationRecord.standing other left.history ≤ 1 := by
  rcases result with error | (duration | _ | duration | _)
  · exact faithful.1 ▸ single
  · obtain ⟨-, inactive, -, records⟩ := faithful
    rw [records, MigrationRecord.standing_append_applied]
    split
    · next same =>
        have none := MigrationRecord.latestActive?_eq_none_iff.mp inactive
        rw [same] at none
        omega
    · exact single
  · exact faithful.2.1 ▸ single
  · obtain ⟨-, -, stamped⟩ := faithful
    have counted := stamped.standing_eq other
    omega
  · exact faithful.2.1 ▸ single

end Migration

/-! ### Ledgers that rollouts have written -/

/-- The ledgers in memory that rollouts lead to from the empty one. Between two rollouts anything
else may change. -/
inductive Ledger.Reached : Ledger → Prop where
  | empty : Reached .empty
  | run {executor : Executor} {direction : Direction} {migration : Migration}
      {strategy : RolloutStrategy} {moment : Moment Deployment}
      (reached : Reached moment.world.ledger) :
      Reached (Rollout.run ⟨executor, .inMemory⟩ direction migration strategy moment).2.world.ledger

/-- No migration has more than one active record on a shard. -/
theorem Ledger.Reached.standing_le {ledger : Ledger} (reached : ledger.Reached) (shard : ShardId)
    (id : String) : MigrationRecord.standing id (ledger.history shard) ≤ 1 := by
  induction reached with
  | empty => exact Nat.zero_le 1
  | @run executor direction migration strategy moment reached ih =>
      by_cases known : strategy.Known executor.topology
      · obtain ⟨gathered, ended, ran, -, settled⟩ :=
          Rollout.run_settled ⟨executor, .inMemory⟩ rfl known direction migration moment
        obtain ⟨result, faithful⟩ := settled.visible shard
        rw [ran]
        exact Migration.Faithful.standing_le faithful ih
      · obtain ⟨error, ran⟩ :=
          Rollout.run_of_stranger ⟨executor, .inMemory⟩ known direction migration moment
        rw [ran]
        exact ih

/-- A record that is not active adds nothing to what is in effect. -/
theorem Ledger.applied_of_append {ledger later : Ledger} {shard : ShardId}
    {record : MigrationRecord}
    (history : later.history shard = ledger.history shard ++ [record])
    (inactive : record.isActive = false) : later.applied shard = ledger.applied shard := by
  simp [applied, history, inactive]

/-! ### Rollouts that succeed everywhere -/

/-- If nothing else came in, the shards that succeeded are those accounted for. -/
theorem Gathered.successes_shards {α : Type} {gathered : Gathered α}
    (complete : gathered.isComplete = true) :
    gathered.successes.map Prod.fst = gathered.roll := by
  simp only [isComplete, Bool.and_eq_true, List.isEmpty_iff] at complete
  obtain ⟨⟨calm, cancelled⟩, skipped⟩ := complete
  rw [roll, cancelled, skipped, List.append_nil, List.append_nil]
  simp only [successes, failures] at calm ⊢
  generalize gathered.answers = answers at calm ⊢
  induction answers with
  | nil => rfl
  | cons answer rest ih =>
      obtain ⟨shard, _ | value⟩ := answer
      · cases calm
      · exact congrArg (shard :: ·) (ih calm)

namespace Rollout

/-- A rollout comes to this, and has succeeded on every shard. -/
structure Completes (rollout : Rollout) (direction : Direction) (migration : Migration)
    (strategy : RolloutStrategy) (moment : Moment Deployment)
    (gathered : Gathered MigrationOutcome) (ended : Moment Deployment) : Prop where
  ran : rollout.run direction migration strategy moment = (.ok ⟨migration.id, gathered⟩, ended)
  complete : gathered.isComplete = true

/-- The shards with what happened to the migration there, apart from times. -/
def variants (gathered : Gathered MigrationOutcome) : List (ShardId × MigrationOutcome) :=
  gathered.successes.map fun success => (success.1, success.2.untimed)

variable {rollout other : Rollout} {direction : Direction} {migration : Migration}
  {strategy strategy' : RolloutStrategy} {moment ended again last : Moment Deployment}
  {gathered brought : Gathered MigrationOutcome}

theorem Completes.settled (kept : rollout.ledger = .inMemory)
    (completes : rollout.Completes direction migration strategy moment gathered ended) :
    gathered.roll.Perm rollout.executor.topology.ids ∧
      (migration.custody direction).Settled moment.world gathered ended.world := by
  have known : strategy.Known rollout.executor.topology := by
    by_contra unknown
    obtain ⟨error, fails⟩ := rollout.run_of_stranger unknown direction migration moment
    cases (congrArg Prod.fst (completes.ran.symm.trans fails))
  obtain ⟨_, _, runs, roll, settled⟩ := rollout.run_settled kept known direction migration moment
  obtain ⟨report, rfl⟩ := Prod.mk.inj (completes.ran.symm.trans runs)
  obtain ⟨-, rfl⟩ := MigrationReport.mk.inj (Except.ok.inj report)
  exact ⟨roll, settled⟩

/-- What a complete rollout says of its shards is what happened to them. -/
theorem Completes.faithful (kept : rollout.ledger = .inMemory)
    (completes : rollout.Completes direction migration strategy moment gathered ended)
    {success : ShardId × MigrationOutcome} (mem : success ∈ gathered.successes) :
    migration.Faithful direction success.1 (.ok success.2) (moment.world.share success.1)
      (ended.world.share success.1) :=
  (completes.settled kept).2.outcomes ⟨success.1, .ok success.2⟩
    (List.mem_append_left _ (Gathered.mem_successes.mp mem))

theorem Completes.shards (kept : rollout.ledger = .inMemory)
    (completes : rollout.Completes direction migration strategy moment gathered ended) :
    (gathered.successes.map Prod.fst).Perm rollout.executor.topology.ids :=
  Gathered.successes_shards completes.complete ▸ (completes.settled kept).1

theorem Completes.succeeded (kept : rollout.ledger = .inMemory)
    (completes : rollout.Completes direction migration strategy moment gathered ended)
    {id : ShardId} (listed : id ∈ rollout.executor.topology.ids) :
    ∃ outcome, migration.Faithful direction id (.ok outcome) (moment.world.share id)
      (ended.world.share id) := by
  obtain ⟨success, mem, rfl⟩ := List.mem_map.mp ((completes.shards kept).mem_iff.mpr listed)
  exact ⟨success.2, completes.faithful kept mem⟩

/-- The shares of shards that are not in the topology are left alone. -/
theorem Completes.strangers (kept : rollout.ledger = .inMemory)
    (completes : rollout.Completes direction migration strategy moment gathered ended)
    {id : ShardId} (unlisted : id ∉ rollout.executor.topology.ids) :
    ended.world.share id = moment.world.share id := by
  obtain ⟨roll, settled⟩ := completes.settled kept
  refine settled.others id fun started => unlisted (roll.mem_iff.mp ?_)
  rw [Gathered.roll_eq]
  exact List.mem_append_left _ started

/-- If the value of each shard is known, so is what came in, but for the order. -/
theorem Completes.successes_perm {β : Type} {f : ShardId → β} {g : MigrationOutcome → β}
    (kept : rollout.ledger = .inMemory)
    (completes : rollout.Completes direction migration strategy moment gathered ended)
    (values : ∀ success ∈ gathered.successes, g success.2 = f success.1) :
    (gathered.successes.map fun success => (success.1, g success.2)).Perm
      (rollout.executor.topology.ids.map fun id => (id, f id)) := by
  have byShard : (gathered.successes.map fun success => (success.1, g success.2)) =
      (gathered.successes.map Prod.fst).map fun id => (id, f id) := by
    rw [List.map_map]
    exact List.map_congr_left fun success mem => Prod.ext rfl (values success mem)
  rw [byShard]
  exact (completes.shards kept).map _

/-- A complete rollout comes to what is due by what it finds recorded. -/
theorem Completes.variants_perm (kept : rollout.ledger = .inMemory)
    (completes : rollout.Completes direction migration strategy moment gathered ended) :
    (variants gathered).Perm (rollout.executor.topology.ids.map fun id =>
      (id, migration.due direction (moment.world.ledger.history id))) :=
  completes.successes_perm kept fun _ mem => (completes.faithful kept mem).untimed_eq

/-! ### The same rollout again -/

/-- A migration that is in effect everywhere, with the script that it has, is reported so
everywhere, and nothing is touched. -/
theorem completes_of_latest (kept : rollout.ledger = .inMemory)
    (known : strategy.Known rollout.executor.topology) (patient : moment.cancellation = .never)
    (latest : ∀ id ∈ rollout.executor.topology.ids, ∃ record,
      moment.world.ledger.active? id migration.id = some record ∧
        record.checksum = migration.checksum) :
    ∃ gathered ended, rollout.Completes .forward migration strategy moment gathered ended ∧
      gathered.successes.Perm
        (rollout.executor.topology.ids.map fun id => (id, .alreadyApplied)) ∧
      ∀ id, ended.world.share id = moment.world.share id := by
  have active : ∀ id ∈ rollout.executor.topology.ids, ∃ record,
      MigrationRecord.latestActive? (moment.world.share id).history migration.id = some record ∧
        record.checksum = migration.checksum := latest
  have smooth : rollout.Smooth .forward migration moment.world rollout.executor.topology.ids := by
    intro id listed
    obtain ⟨record, active, same⟩ := active id listed
    have active : MigrationRecord.latestActive? (moment.world.access id).share.history
      migration.id = some record := active
    refine ⟨.alreadyApplied, ?_⟩
    simp only [Migration.foreseen, active, if_pos same]
    rfl
  obtain ⟨gathered, ended, ran, complete, -⟩ := run_foreseen kept known patient smooth
  have completes : rollout.Completes .forward migration strategy moment gathered ended :=
    ⟨ran, complete⟩
  refine ⟨gathered, ended, completes, ?_, fun id => ?_⟩
  · have inEffect : ∀ success ∈ gathered.successes, success.2 = .alreadyApplied := by
      intro success mem
      have listed := (completes.shards kept).mem_iff.mp (List.mem_map_of_mem mem)
      obtain ⟨_, active, -⟩ := active success.1 listed
      exact ((completes.faithful kept mem).spares active).1
    have reported := completes.successes_perm (f := fun _ => .alreadyApplied)
      (g := fun outcome => outcome) kept inEffect
    simpa using reported
  · by_cases listed : id ∈ rollout.executor.topology.ids
    · obtain ⟨_, faithful⟩ := completes.succeeded kept listed
      obtain ⟨_, active, -⟩ := active id listed
      exact (faithful.spares active).2
    · exact completes.strangers kept listed

/-! ### A rollout and its reverse -/

/-- After a migration was applied that was in effect nowhere, rolling it back leaves its record
behind, stamped. -/
theorem Completes.undone (kept : rollout.ledger = .inMemory)
    (keptToo : other.ledger = .inMemory)
    (applies : rollout.Completes .forward migration strategy moment gathered ended)
    (undoes : other.Completes .backward migration strategy' again brought last)
    (shared : other.executor.topology = rollout.executor.topology)
    (onward : again.world.ledger = ended.world.ledger) {id : ShardId}
    (listed : id ∈ rollout.executor.topology.ids)
    (inactive : moment.world.ledger.active? id migration.id = none) :
    ∃ instant duration stamp, last.world.ledger.history id = moment.world.ledger.history id ++
      [{ MigrationRecord.applied migration instant duration with rolledBackAt := some stamp }] := by
  obtain ⟨_, applied⟩ := applies.succeeded kept listed
  obtain ⟨_, undone⟩ := undoes.succeeded keptToo (shared ▸ listed)
  obtain ⟨duration, records⟩ := applied.records inactive
  have continues : (again.world.share id).history = moment.world.ledger.history id ++
      [.applied migration moment.world.wallClock duration] :=
    (congrArg (Ledger.history · id) onward).trans records
  have latest : MigrationRecord.latestActive? (again.world.share id).history migration.id =
      some (.applied migration moment.world.wallClock duration) := by
    rw [continues]
    exact MigrationRecord.latestActive?_append_applied migration _ _ _
  have stamped := undone.stamps latest
  rw [continues] at stamped
  have active : (MigrationRecord.applied migration moment.world.wallClock duration).isActiveOf
      migration.id = true := by simp [MigrationRecord.isActiveOf_applied]
  exact ⟨_, duration, again.world.wallClock, stamped.of_append active⟩

/-! ### The same rollout under another strategy -/

/-- Two rollouts that are complete have done the same, apart from times. -/
structure Alike (gathered : Gathered MigrationOutcome) (world : Deployment)
    (brought : Gathered MigrationOutcome) (later : Deployment) : Prop where
  variants : (variants brought).Perm (variants gathered)
  logs : ∀ id, (later.share id).log = (world.share id).log
  histories : ∀ id, (later.ledger.history id).map MigrationRecord.untimed =
    (world.ledger.history id).map MigrationRecord.untimed

/-- Complete rollouts of a migration that began in the same state, under whatever strategies and
options, have done the same. -/
theorem Completes.alike (kept : rollout.ledger = .inMemory) (keptToo : other.ledger = .inMemory)
    (one : rollout.Completes direction migration strategy moment gathered ended)
    (another : other.Completes direction migration strategy' again brought last)
    (shared : other.executor.topology = rollout.executor.topology)
    (ledger : again.world.ledger = moment.world.ledger)
    (network : again.world.network = moment.world.network) :
    Alike gathered ended.world brought last.world := by
  have history : ∀ id, (again.world.share id).history = (moment.world.share id).history :=
    fun id => congrArg (Ledger.history · id) ledger
  have log : ∀ id, (again.world.share id).log = (moment.world.share id).log :=
    fun id => congrArg (fun network : Network => ((network.shard? id).getD {}).log) network
  have shares : ∀ id, (last.world.share id).log = (ended.world.share id).log ∧
      (last.world.ledger.history id).map MigrationRecord.untimed =
        (ended.world.ledger.history id).map MigrationRecord.untimed := by
    intro id
    by_cases listed : id ∈ rollout.executor.topology.ids
    · obtain ⟨_, faithful⟩ := one.succeeded kept listed
      obtain ⟨_, faithfulToo⟩ := another.succeeded keptToo (shared ▸ listed)
      exact faithful.alike faithfulToo (history id) (log id)
    · have stays := one.strangers kept listed
      have staysToo := another.strangers keptToo (shared ▸ listed)
      have past : last.world.ledger.history id = ended.world.ledger.history id :=
        (congrArg Share.history staysToo).trans
          ((history id).trans (congrArg Share.history stays).symm)
      exact ⟨by rw [staysToo, stays, log id], congrArg _ past⟩
  refine ⟨?_, fun id => (shares id).1, fun id => (shares id).2⟩
  have comes := another.variants_perm keptToo
  rw [ledger, shared] at comes
  exact comes.trans (one.variants_perm kept).symm

/-- If the migration succeeds on each shard on its own, then it does under every strategy. -/
theorem completes_of_alone (kept : rollout.ledger = .inMemory)
    (known : strategy.Known rollout.executor.topology) (patient : moment.cancellation = .never)
    (alone : ∀ id ∈ rollout.executor.topology.ids, ∃ outcome,
      (rollout.executor.on id (rollout.operation direction migration) moment).1 = .ok outcome) :
    ∃ gathered ended,
      rollout.Completes direction migration strategy moment gathered ended := by
  obtain ⟨gathered, ended, ran, complete, -⟩ :=
    run_foreseen kept known patient (smooth_of_alone kept patient alone)
  exact ⟨gathered, ended, ran, complete⟩

/-- Rollouts of a migration that are recorded in memory, under any options.

However rollouts have gone before, no migration has more than one active record on a shard. When the
migration has been applied completely, applying it next, under any strategy that can be followed and
with a caller who waits, finds it in effect on every shard and touches nothing. If it was in effect
nowhere before, and is then rolled back completely, what is in effect is what was before, and one
record has been added, which is stamped.

Complete rollouts of the migration that began with the same ledger and the same network have done
the same, whatever their strategies. And where the caller waits and the migration succeeds on each
shard on its own, the rollout is complete under every strategy that can be followed. -/
theorem run_repeatable (topology : Topology) (migration : Migration) :
    let rollout (options : ScatterOptions) : Rollout := ⟨⟨topology, options⟩, .inMemory⟩
    (∀ ledger : Ledger, ledger.Reached → ∀ shard id,
      MigrationRecord.standing id (ledger.history shard) ≤ 1) ∧
    (∀ options strategy moment gathered ended,
      (rollout options).Completes .forward migration strategy moment gathered ended →
      (∀ options strategy again, strategy.Known topology → again.cancellation = .never →
        again.world.ledger = ended.world.ledger →
        ∃ brought last, (rollout options).Completes .forward migration strategy again brought last ∧
          brought.successes.Perm (topology.ids.map fun id => (id, .alreadyApplied)) ∧
          ∀ id, last.world.share id = again.world.share id) ∧
      ((∀ id ∈ topology.ids, moment.world.ledger.active? id migration.id = none) →
        ∀ options strategy again brought last,
          (rollout options).Completes .backward migration strategy again brought last →
          again.world.ledger = ended.world.ledger →
          ∀ id ∈ topology.ids,
            last.world.ledger.applied id = moment.world.ledger.applied id ∧
            ∃ instant duration stamp,
              last.world.ledger.history id = moment.world.ledger.history id ++
                [{ MigrationRecord.applied migration instant duration with
                  rolledBackAt := some stamp }])) ∧
    (∀ direction options strategy moment gathered ended,
      (rollout options).Completes direction migration strategy moment gathered ended →
      ∀ options strategy again brought last,
        (rollout options).Completes direction migration strategy again brought last →
        again.world.ledger = moment.world.ledger → again.world.network = moment.world.network →
        Alike gathered ended.world brought last.world) ∧
    (∀ direction options moment, moment.cancellation = .never →
      (∀ id ∈ topology.ids, ∃ outcome, ((rollout options).executor.on id
        ((rollout options).operation direction migration) moment).1 = .ok outcome) →
      ∀ strategy, strategy.Known topology → ∃ gathered ended,
        (rollout options).Completes direction migration strategy moment gathered ended) := by
  intro rollout
  refine ⟨fun _ reached => reached.standing_le, ?_, ?_, ?_⟩
  · intro options strategy moment gathered ended applies
    constructor
    · intro options strategy again known patient onward
      apply completes_of_latest rfl known patient
      intro id listed
      obtain ⟨_, faithful⟩ := applies.succeeded rfl listed
      obtain ⟨record, latest, same⟩ := faithful.latest
      rw [onward]
      exact ⟨record, latest, same⟩
    · intro inactive options strategy again brought last undoes onward id listed
      obtain ⟨instant, duration, stamp, added⟩ :=
        applies.undone rfl rfl undoes rfl onward listed (inactive id listed)
      exact ⟨Ledger.applied_of_append added rfl, instant, duration, stamp, added⟩
  · intro direction options strategy moment gathered ended one options strategy again brought last
      another ledger network
    exact one.alike rfl rfl another rfl ledger network
  · intro direction options moment patient alone strategy known
    exact completes_of_alone rfl known patient alone

/-- A migration that succeeds on both of two shards, and then is applied to the second first. -/
theorem run_repeatable_pair :
    let rollout : Rollout := ⟨⟨.pair, { limit := .ofMillis 5 }⟩, .inMemory⟩
    let migration : Migration := ⟨"1", "accounts", "CREATE TABLE a (b INT)", "DROP TABLE a", "11"⟩
    let moment : Moment Deployment :=
      { now := 0, world := { network := .ofTopology .pair, wallClock := 0 } }
    ∃ gathered ended,
      rollout.Completes .forward migration .sequential moment gathered ended ∧
      ∃ brought last,
        rollout.Completes .forward migration (.canary Shard.second.id)
          { ended with cancellation := .never } brought last ∧
        brought.successes.Perm [(Shard.first.id, .alreadyApplied),
          (Shard.second.id, .alreadyApplied)] := by
  intro rollout migration moment
  obtain ⟨-, applied, -, completes⟩ := run_repeatable .pair migration
  have alone : ∀ id ∈ Topology.pair.ids, ∃ outcome,
      (rollout.executor.on id (rollout.operation .forward migration) moment).1 = .ok outcome := by
    intro id listed
    have succeeds : ∀ id ∈ Topology.pair.ids,
        (rollout.executor.on id (rollout.operation .forward migration) moment).1.isOk = true := by
      decide +kernel
    specialize succeeds id listed
    cases result : (rollout.executor.on id (rollout.operation .forward migration) moment).1 with
    | ok outcome => exact ⟨outcome, rfl⟩
    | error error =>
        rw [result] at succeeds
        cases succeeds
  obtain ⟨gathered, ended, done⟩ :=
    completes .forward rollout.executor.options moment rfl alone .sequential trivial
  obtain ⟨brought, last, again, reported, -⟩ :=
    (applied _ _ _ _ _ done).1 rollout.executor.options (.canary Shard.second.id)
      { ended with cancellation := .never } (by decide) rfl rfl
  exact ⟨gathered, ended, done, brought, last, again, reported⟩

end Rollout

end ShardFleet
