import ShardFleet.Proofs.Migration.Sequential

/-!
How many records of a migration stand.

The ledger in memory takes every record that it is given, also one of a migration that is in effect
already, so several active records of one migration may stand beside each other
(`MigrationRecord.standing`). Taking the migration back stamps the latest of them and leaves the
others. So it goes out of effect exactly if one record of it stood
(`LedgerCall.withdraws_iff_alone`); with more, it stays in effect although the call succeeded
(`LedgerCall.applied_after_rollBack`).
-/

namespace ShardFleet

/-! ### Records that stand -/

namespace MigrationRecord

variable {id : String} {instant : UInt64} {history before after : List MigrationRecord}

/-- How many active records of a migration a history has. -/
def standing (id : String) (history : List MigrationRecord) : Nat :=
  history.countP (·.isActiveOf id)

/-- Every active record of a migration stamped, as one update of a table of records does it that
looks for the records without a stamp. -/
def stampAll (id : String) (instant : UInt64) (history : List MigrationRecord) :
    List MigrationRecord :=
  history.map fun record =>
    if record.isActiveOf id then { record with rolledBackAt := some instant } else record

theorem isActiveOf_iff {record : MigrationRecord} :
    record.isActiveOf id = true ↔ record.id = id ∧ record.isActive = true := by
  simp [isActiveOf]

theorem isActiveOf_stamped (record : MigrationRecord) (id : String) (instant : UInt64) :
    ({ record with rolledBackAt := some instant } : MigrationRecord).isActiveOf id = false := by
  simp [isActiveOf, isActive]

theorem isActiveOf_applied (migration : Migration) (instant : UInt64) (duration : Duration)
    (id : String) :
    (applied migration instant duration).isActiveOf id = decide (migration.id = id) := by
  rw [Bool.eq_iff_iff]
  simp [isActiveOf_iff, isActive, applied]

theorem standing_eq_zero_iff :
    standing id history = 0 ↔ ∀ record ∈ history, record.isActiveOf id = false := by
  simp [standing]

theorem standing_pos_iff :
    0 < standing id history ↔ ∃ record ∈ history, record.isActiveOf id = true :=
  List.countP_pos_iff

theorem latestActive?_eq_none_iff : latestActive? history id = none ↔ standing id history = 0 := by
  simp [latestActive?, standing]

theorem exists_latest_of_standing (stands : 0 < standing id history) :
    ∃ record, latestActive? history id = some record := by
  apply Option.ne_none_iff_exists'.mp
  intro none
  exact stands.ne' (latestActive?_eq_none_iff.mp none)

theorem standing_append_applied (migration : Migration) (instant : UInt64) (duration : Duration)
    (history : List MigrationRecord) (id : String) :
    standing id (history ++ [applied migration instant duration]) =
      standing id history + if migration.id = id then 1 else 0 := by
  simp [standing, List.countP_append, List.countP_singleton, isActiveOf_applied]

/-- A stamp takes one record of its migration out, and none of another. -/
theorem Stamped.standing_eq (stamped : Stamped id instant before after) (other : String) :
    standing other before = standing other after + if id = other then 1 else 0 := by
  obtain ⟨earlier, record, later, rfl, active, -, rfl⟩ := stamped
  have counts : record.isActiveOf other = decide (id = other) := by
    obtain ⟨named, active⟩ := isActiveOf_iff.mp active
    simp [isActiveOf, named, active]
  simp only [standing, List.countP_append, List.countP_cons, counts, isActiveOf_stamped,
    decide_eq_true_eq, Bool.false_eq_true, if_false]
  omega

/-- Stamping the latest record is stamping them all if it leaves none that stands. -/
theorem Stamped.eq_stampAll_iff (stamped : Stamped id instant before after) :
    after = stampAll id instant before ↔ standing id after = 0 := by
  constructor
  · rintro rfl
    refine standing_eq_zero_iff.mpr fun record mem => ?_
    obtain ⟨first, -, rfl⟩ := List.mem_map.mp mem
    split
    · exact isActiveOf_stamped first id instant
    · next inactive => simpa using inactive
  · intro none
    have inactive := standing_eq_zero_iff.mp none
    obtain ⟨earlier, record, later, rfl, active, passed, rfl⟩ := stamped
    have same {part : List MigrationRecord} (gone : ∀ other ∈ part, other.isActiveOf id = false) :
        stampAll id instant part = part :=
      List.map_congr_left (fun other mem => if_neg (by simp [gone other mem])) |>.trans
        (List.map_id part)
    have ahead := same fun other mem => inactive other (List.mem_append_left _ mem)
    have behind := same passed
    simp only [stampAll, List.map_append, List.map_cons, active, if_true] at ahead behind ⊢
    rw [ahead, behind]

end MigrationRecord

namespace Ledger

variable {ledger : Ledger} {shard : ShardId} {id : String}

theorem mem_applied_iff :
    id ∈ ledger.applied shard ↔ 0 < MigrationRecord.standing id (ledger.history shard) := by
  rw [MigrationRecord.standing_pos_iff]
  simp only [applied, mem_distinct, List.mem_map, List.mem_filter, MigrationRecord.isActiveOf_iff]
  exact exists_congr fun record => by tauto

theorem active?_eq_none_iff : ledger.active? shard id = none ↔
    MigrationRecord.standing id (ledger.history shard) = 0 :=
  MigrationRecord.latestActive?_eq_none_iff

/-- Without a record that stands there is nothing to take back. -/
theorem rollBack_of_inactive (inactive : ledger.active? shard id = none) (instant : UInt64) :
    ledger.rollBack shard id instant = .error (notApplied shard id) := by
  have passed : ∀ record ∈ (ledger.history shard).reverse, record.isActiveOf id = false := by
    simpa [active?, MigrationRecord.latestActive?] using inactive
  have nothing : ∀ {records : List MigrationRecord},
      (∀ record ∈ records, record.isActiveOf id = false) →
        stampFirst id instant records = none := by
    intro records
    induction records with
    | nil => exact fun _ => rfl
    | cons record rest ih =>
        intro inactive
        obtain ⟨first, others⟩ := List.forall_mem_cons.mp inactive
        rw [stampFirst, if_neg (by simp [first]), ih others]
        rfl
  rw [rollBack, nothing passed]

theorem history_append (ledger : Ledger) (shard other : ShardId) (record : MigrationRecord) :
    (ledger.append shard record).history other =
      if other = shard then ledger.history other ++ [record] else ledger.history other := by
  simp only [history, append, OrderedMap.getD_alter]
  split
  · next same => rw [same]
  · rfl

end Ledger

/-! ### Calls of the ledger -/

/-- What is asked of a ledger that changes it. -/
inductive LedgerCall where
  | ensure (shard : ShardId)
  | recordApplied (shard : ShardId) (migration : Migration) (duration : Duration)
  | recordRolledBack (shard : ShardId) (id : String)

namespace LedgerCall

/-- A call as it is made of a store. -/
def job {σ : Type} (store : LedgerStore σ) : LedgerCall → Job σ Unit
  | .ensure shard => store.ensure shard
  | .recordApplied shard migration duration => store.recordApplied shard migration duration
  | .recordRolledBack shard id => store.recordRolledBack shard id

/-- Makes a call of the ledger in memory when the clocks show the given time. -/
def perform (clock : UInt64) (call : LedgerCall) : Timed Deployment (Except Error Unit) :=
  fun moment =>
    (call.job .inMemory).perform { moment with world := { moment.world with wallClock := clock } }

/-- The moment after calls that were made one after the other, each at a time of its own. -/
def after (calls : List (UInt64 × LedgerCall)) (moment : Moment Deployment) : Moment Deployment :=
  calls.foldl (fun moment call => (call.2.perform call.1 moment).2) moment

/-- How many records of a migration stand on a shard after a call, from how many stood before. -/
def counts (shard : ShardId) (id : String) (standing : Nat) : LedgerCall → Nat
  | .ensure _ => standing
  | .recordApplied other migration _ =>
      if other = shard ∧ migration.id = id then standing + 1 else standing
  | .recordRolledBack other migration =>
      if other = shard ∧ migration = id then standing - 1 else standing

variable {shard : ShardId} {id : String} {moment : Moment Deployment}

/-- The records of a migration that stand on a shard in the ledger in memory. -/
def standing (shard : ShardId) (id : String) (moment : Moment Deployment) : Nat :=
  MigrationRecord.standing id (moment.world.ledger.history shard)

/-- A migration is taken back if a record of it stands, and then its latest one is stamped. -/
theorem perform_rollBack (clock : UInt64) (stands : 0 < standing shard id moment) :
    ∃ ledger, (perform clock (.recordRolledBack shard id) moment) =
        (.ok (), { moment with world := { moment.world with ledger, wallClock := clock } }) ∧
      (∀ other, other ≠ shard → ledger.history other = moment.world.ledger.history other) ∧
      MigrationRecord.Stamped id clock (moment.world.ledger.history shard)
        (ledger.history shard) := by
  obtain ⟨record, active⟩ : ∃ record, moment.world.ledger.active? shard id = some record :=
    MigrationRecord.exists_latest_of_standing stands
  obtain ⟨ledger, stamps, others, stamped⟩ := Ledger.rollBack_of_active active clock
  refine ⟨ledger, ?_, others, stamped⟩
  simp only [perform, job, LedgerStore.inMemory, Job.perform, Job.transact, Activity.run, bind,
    StateT.bind, stamps]
  rfl

/-- Otherwise the call fails and nothing is changed. -/
theorem perform_rollBack_error (clock : UInt64) (nothing : standing shard id moment = 0) :
    perform clock (.recordRolledBack shard id) moment =
      (.error (Ledger.notApplied shard id),
        { moment with world := { moment.world with wallClock := clock } }) := by
  have fails := Ledger.rollBack_of_inactive (Ledger.active?_eq_none_iff.mpr nothing) clock
  simp only [perform, job, LedgerStore.inMemory, Job.perform, Job.transact, Activity.run, bind,
    StateT.bind, fails]
  rfl

/-- What a call changes in what stands, on its own shard and on the others. -/
theorem standing_perform (shard : ShardId) (id : String) (clock : UInt64) (call : LedgerCall)
    (moment : Moment Deployment) :
    standing shard id (call.perform clock moment).2 =
      call.counts shard id (standing shard id moment) := by
  cases call with
  | ensure other =>
      have share := Deployment.share_ensure moment.world other shard
      exact congrArg (fun share : Share => MigrationRecord.standing id share.history) share
  | recordApplied other migration duration =>
      have records : standing shard id (perform clock (.recordApplied other migration duration)
          moment).2 = MigrationRecord.standing id ((moment.world.ledger.append other
            (.applied migration clock duration)).history shard) := rfl
      rw [records, Ledger.history_append]
      by_cases here : shard = other
      · simp [counts, here, MigrationRecord.standing_append_applied, standing, apply_ite]
      · simp [counts, here, Ne.symm here, standing]
  | recordRolledBack other migration =>
      rcases Nat.eq_zero_or_pos (standing other migration moment) with nothing | stands
      · rw [perform_rollBack_error clock nothing]
        simp only [counts]
        split
        · next here =>
            obtain ⟨rfl, rfl⟩ := here
            exact nothing.trans (by omega)
        · rfl
      · obtain ⟨ledger, performed, others, stamped⟩ := perform_rollBack clock stands
        rw [performed]
        by_cases here : shard = other
        · subst here
          have counted := stamped.standing_eq id
          simp only [counts, standing, true_and]
          split at counted
          · next same => rw [if_pos same, counted, Nat.add_sub_cancel]
          · next different => rw [if_neg different, counted, Nat.add_zero]
        · simp [counts, Ne.symm here, standing, others shard here]

/-- What stands after calls, counted over the calls. -/
theorem standing_after (shard : ShardId) (id : String) (calls : List (UInt64 × LedgerCall))
    (moment : Moment Deployment) :
    standing shard id (after calls moment) =
      calls.foldl (fun standing call => call.2.counts shard id standing)
        (standing shard id moment) := by
  induction calls generalizing moment with
  | nil => rfl
  | cons call rest ih =>
      rw [after, List.foldl_cons, List.foldl_cons, ← standing_perform shard id call.1]
      exact ih _

/-- After any calls of a ledger in memory that was empty, take a migration back on a shard. This
fails, and changes nothing, if no record of the migration stands there. Otherwise it succeeds and
stamps the latest record that stands. The migration is then out of effect, with no active record,
exactly if that record stood alone, and exactly then the history is as if all active records had
been stamped. -/
theorem withdraws_iff_alone (calls : List (UInt64 × LedgerCall)) (shard : ShardId) (id : String)
    (clock : UInt64) (moment : Moment Deployment) (fresh : moment.world.ledger = .empty) :
    let before := after calls moment
    let standing := calls.foldl (fun standing call => call.2.counts shard id standing) 0
    let result := (perform clock (.recordRolledBack shard id) before).1
    let ledger := (perform clock (.recordRolledBack shard id) before).2.world.ledger
    let history := before.world.ledger.history shard
    (standing = 0 → result = .error (Ledger.notApplied shard id) ∧ ledger = before.world.ledger) ∧
    (0 < standing → result = .ok () ∧
      MigrationRecord.Stamped id clock history (ledger.history shard) ∧
      (id ∉ ledger.applied shard ↔ standing = 1) ∧
      (ledger.active? shard id = none ↔ standing = 1) ∧
      (ledger.history shard = MigrationRecord.stampAll id clock history ↔ standing = 1)) := by
  intro before count result ledger history
  have counted : standing shard id before = count := by
    have empty : standing shard id moment = 0 := by
      rw [standing, fresh]
      rfl
    rw [standing_after, empty]
  refine ⟨fun nothing => ?_, fun stands => ?_⟩
  · have fails := perform_rollBack_error clock (counted.trans nothing)
    simp only [result, ledger, fails, and_self]
  · obtain ⟨taken, performed, -, stamped⟩ :=
      perform_rollBack clock (counted.symm ▸ stands)
    have left : ledger = taken := congrArg (·.2.world.ledger) performed
    have remain : MigrationRecord.standing id history =
        MigrationRecord.standing id (taken.history shard) + 1 := by
      simpa using stamped.standing_eq id
    have alone : MigrationRecord.standing id (taken.history shard) = 0 ↔ count = 1 := by
      have counted : MigrationRecord.standing id history = count := counted
      omega
    rw [left]
    refine ⟨congrArg Prod.fst performed, stamped, ?_, ?_, ?_⟩
    · rw [Ledger.mem_applied_iff, Nat.pos_iff_ne_zero, not_not]
      exact alone
    · exact Ledger.active?_eq_none_iff.trans alone
    · exact stamped.eq_stampAll_iff.trans alone

/-- A migration that was recorded twice with a rollback between, so one record of it stands. -/
theorem withdraws_iff_alone_again :
    let migration : Migration := ⟨"1", "accounts", "CREATE TABLE a (b INT)", "DROP TABLE a", "11"⟩
    let shard := Shard.first.id
    let calls : List (UInt64 × LedgerCall) :=
      [(3, .recordApplied shard migration ⟨0⟩), (4, .recordRolledBack shard "1"),
        (5, .recordApplied shard migration ⟨0⟩)]
    let moment : Moment Deployment :=
      { now := 0, world := { network := .ofTopology .pair, wallClock := 0 } }
    let taken := perform 6 (.recordRolledBack shard "1") (after calls moment)
    moment.world.ledger = .empty ∧ taken.1 = .ok () ∧
      "1" ∉ taken.2.world.ledger.applied shard := by
  intro migration shard calls moment taken
  have fresh : moment.world.ledger = .empty := by decide
  obtain ⟨-, succeeds⟩ := withdraws_iff_alone calls shard "1" 6 moment fresh
  obtain ⟨ok, -, withdrawn, -⟩ := succeeds (by decide)
  exact ⟨fresh, ok, withdrawn.mpr (by decide)⟩

/-- A migration that was recorded twice is in effect also after it was taken back. -/
theorem applied_after_rollBack :
    let migration : Migration := ⟨"1", "accounts", "CREATE TABLE a (b INT)", "DROP TABLE a", "11"⟩
    let shard := Shard.first.id
    let calls : List (UInt64 × LedgerCall) :=
      [(0, .recordApplied shard migration ⟨0⟩), (0, .recordApplied shard migration ⟨0⟩)]
    let moment : Moment Deployment :=
      { now := 0, world := { network := .ofTopology .pair, wallClock := 0 } }
    let taken := perform 0 (.recordRolledBack shard "1") (after calls moment)
    taken.1 = .ok () ∧ "1" ∈ taken.2.world.ledger.applied shard ∧
      taken.2.world.ledger.active? shard "1" ≠ none := by
  refine ⟨rfl, ?_, ?_⟩
  · decide
  · decide

end LedgerCall

end ShardFleet
