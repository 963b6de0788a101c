import ShardFleet.Proofs.Migration.Stamps

/-!
The ledger only grows.

A call of the ledger in memory leaves the history of a shard as it was, adds an active record to it
or stamps one record of it (`MigrationRecord.Grows`), and it does so on its own shard only. A record
that was stamped is never stamped again, nor is its stamp taken off: over any calls all records
persist at their places (`MigrationRecord.Continues`).

What is in effect is read off the history in two ways, forwards for all migrations and backwards for
one of them, and taking a migration back looks for its record backwards too. All three see the same
records (`LedgerCall.append_only`).
-/

namespace ShardFleet

/-! ### Histories that grow -/

namespace MigrationRecord

/-- The record as it was, or with a stamp that it did not have. -/
def Persists (before after : MigrationRecord) : Prop :=
  after = before ∨
    before.rolledBackAt = none ∧ ∃ instant, after = { before with rolledBackAt := some instant }

theorem Persists.refl (record : MigrationRecord) : record.Persists record := .inl rfl

theorem Persists.trans {first second third : MigrationRecord} (earlier : first.Persists second)
    (later : second.Persists third) : first.Persists third := by
  rcases earlier with rfl | ⟨unset, instant, rfl⟩
  · exact later
  · rcases later with rfl | ⟨again, -⟩
    · exact .inr ⟨unset, instant, rfl⟩
    · cases again

/-- Every record persists at its place, and others may follow. -/
inductive Continues : List MigrationRecord → List MigrationRecord → Prop where
  | follow (added : List MigrationRecord) : Continues [] added
  | persist {record later : MigrationRecord} {before after : List MigrationRecord} :
      record.Persists later → Continues before after → Continues (record :: before) (later :: after)

theorem Continues.refl (history : List MigrationRecord) : Continues history history := by
  induction history with
  | nil => exact .follow []
  | cons record rest ih => exact .persist (.refl record) ih

theorem Continues.trans {first second third : List MigrationRecord}
    (earlier : Continues first second) (later : Continues second third) :
    Continues first third := by
  induction earlier generalizing third with
  | follow added => exact .follow third
  | persist here rest ih =>
      cases later with
      | persist there onward => exact .persist (here.trans there) (ih onward)

theorem Continues.append {before after : List MigrationRecord} (earlier : List MigrationRecord)
    (continues : Continues before after) : Continues (earlier ++ before) (earlier ++ after) := by
  induction earlier with
  | nil => exact continues
  | cons record rest ih => exact .persist (.refl record) ih

/-- A history as one call leaves it: as it was, with one active record more, or with a stamp on the
latest active record of a migration. -/
inductive Grows (before : List MigrationRecord) : List MigrationRecord → Prop where
  | same : Grows before before
  | added {record : MigrationRecord} (active : record.isActive = true) :
      Grows before (before ++ [record])
  | stamped {id : String} {instant : UInt64} {after : List MigrationRecord}
      (stamped : Stamped id instant before after) : Grows before after

theorem Grows.continues {before after : List MigrationRecord} (grows : Grows before after) :
    Continues before after := by
  cases grows with
  | same => exact .refl before
  | @added record =>
      have continues := (Continues.follow [record]).append before
      rwa [List.append_nil] at continues
  | stamped stamped =>
      obtain ⟨earlier, record, later, rfl, active, -, rfl⟩ := stamped
      have unset : record.rolledBackAt = none := by
        simpa [isActive] using (isActiveOf_iff.mp active).2
      exact (Continues.persist (.inr ⟨unset, _, rfl⟩) (.refl later)).append earlier

/-! ### What is in effect -/

variable {history : List MigrationRecord} {id : String} {record : MigrationRecord}

/-- The latest active record of a migration is an active record of it. -/
theorem active_of_latestActive? (found : latestActive? history id = some record) :
    record ∈ history ∧ record.isActiveOf id = true := by
  have active := List.find?_some found
  exact ⟨List.mem_reverse.mp (List.mem_of_find?_eq_some found), active⟩

/-- The place of the first active record of a migration; past the end if there is none. -/
def firstPlace (id : String) (history : List MigrationRecord) : Nat :=
  history.findIdx (·.isActiveOf id)

theorem firstPlace_cons_of_active (active : record.isActiveOf id = true) :
    firstPlace id (record :: history) = 0 := by
  simp [firstPlace, List.findIdx_cons, active]

theorem firstPlace_cons_of_other (other : record.isActiveOf id = false) :
    firstPlace id (record :: history) = firstPlace id history + 1 := by
  simp [firstPlace, List.findIdx_cons, other]

/-- Migrations in effect stand in the order of their first active records. -/
theorem pairwise_firstPlace (history : List MigrationRecord) :
    (distinct ((history.filter (·.isActive)).map MigrationRecord.id)).Pairwise
      fun id later => firstPlace id history < firstPlace later history := by
  induction history with
  | nil => exact .nil
  | cons record rest ih =>
      cases active : record.isActive with
      | false =>
          have passed : ∀ id, firstPlace id (record :: rest) = firstPlace id rest + 1 :=
            fun id => firstPlace_cons_of_other (by simp [isActiveOf, active])
          rw [List.filter_cons_of_neg (by simp [active])]
          exact ih.imp fun before => by
            rw [passed, passed]
            exact Nat.succ_lt_succ before
      | true =>
          have own : firstPlace record.id (record :: rest) = 0 :=
            firstPlace_cons_of_active (isActiveOf_iff.mpr ⟨rfl, active⟩)
          have passed : ∀ id, id ≠ record.id →
              firstPlace id (record :: rest) = firstPlace id rest + 1 :=
            fun id other => firstPlace_cons_of_other (by simp [isActiveOf, other.symm])
          rw [List.filter_cons_of_pos active, List.map_cons, distinct, List.pairwise_cons]
          constructor
          · intro later mem
            rw [own, passed later (by simpa using (List.mem_filter.mp mem).2)]
            exact Nat.succ_pos _
          · refine (List.Pairwise.filter _ ih).imp_of_mem fun first second before => ?_
            rw [passed _ (by simpa using (List.mem_filter.mp first).2),
              passed _ (by simpa using (List.mem_filter.mp second).2)]
            exact Nat.succ_lt_succ before

end MigrationRecord

namespace Ledger

variable {ledger : Ledger} {shard : ShardId} {id : String}

theorem mem_applied_iff_exists : id ∈ ledger.applied shard ↔
    ∃ record ∈ ledger.history shard, record.isActiveOf id = true :=
  mem_applied_iff.trans MigrationRecord.standing_pos_iff

/-- What is in effect has an active record that is found, and nothing else has. -/
theorem mem_applied_iff_active? : id ∈ ledger.applied shard ↔
    ∃ record ∈ ledger.history shard, record.isActiveOf id = true ∧
      ledger.active? shard id = some record := by
  constructor
  · intro listed
    obtain ⟨record, found⟩ :=
      MigrationRecord.exists_latest_of_standing (mem_applied_iff.mp listed)
    obtain ⟨mem, active⟩ := MigrationRecord.active_of_latestActive? found
    exact ⟨record, mem, active, found⟩
  · rintro ⟨record, mem, active, -⟩
    exact mem_applied_iff_exists.mpr ⟨record, mem, active⟩

end Ledger

/-! ### Calls -/

namespace LedgerCall

open MigrationRecord (Continues Grows firstPlace)

/-- The shard that a call is about. -/
def shard : LedgerCall → ShardId
  | .ensure shard | .recordApplied shard _ _ | .recordRolledBack shard _ => shard

variable (clock : UInt64) (call : LedgerCall) (moment : Moment Deployment)

theorem history_ensure (id other : ShardId) :
    (perform clock (.ensure id) moment).2.world.ledger.history other =
      moment.world.ledger.history other :=
  congrArg Share.history (Deployment.share_ensure moment.world id other)

theorem history_recordApplied (id other : ShardId) (migration : Migration) (duration : Duration) :
    (perform clock (.recordApplied id migration duration) moment).2.world.ledger.history other =
      if other = id then
        moment.world.ledger.history other ++ [.applied migration clock duration]
      else moment.world.ledger.history other :=
  moment.world.ledger.history_append id other _

/-- A history after a call. -/
theorem grows_perform (id : ShardId) :
    Grows (moment.world.ledger.history id) ((call.perform clock moment).2.world.ledger.history id) ∧
      (id ≠ call.shard → (call.perform clock moment).2.world.ledger.history id =
        moment.world.ledger.history id) := by
  cases call with
  | ensure other =>
      rw [history_ensure]
      exact ⟨.same, fun _ => rfl⟩
  | recordApplied other migration duration =>
      rw [history_recordApplied]
      split
      · next here => exact ⟨.added rfl, fun elsewhere => absurd here elsewhere⟩
      · exact ⟨.same, fun _ => rfl⟩
  | recordRolledBack other migration =>
      rcases Nat.eq_zero_or_pos (standing other migration moment) with nothing | stands
      · rw [perform_rollBack_error clock nothing]
        exact ⟨.same, fun _ => rfl⟩
      · obtain ⟨ledger, performed, others, stamped⟩ := perform_rollBack clock stands
        rw [performed]
        refine ⟨?_, others id⟩
        by_cases here : id = other
        · subst here
          exact .stamped stamped
        · have kept : ledger.history id = moment.world.ledger.history id := others id here
          exact kept ▸ .same

/-- Records persist over calls. -/
theorem continues_after (id : ShardId) (calls : List (UInt64 × LedgerCall))
    (moment : Moment Deployment) : Continues (moment.world.ledger.history id)
      ((after calls moment).world.ledger.history id) := by
  induction calls generalizing moment with
  | nil => exact .refl _
  | cons call rest ih => exact (grows_perform call.1 call.2 moment id).1.continues.trans (ih _)

/-- Taking a migration back fails if no record of it stands, and then nothing is changed but the
time that the clocks show. -/
theorem rollBack_fails_iff (id : ShardId) (migration : String) :
    let made := perform clock (.recordRolledBack id migration) moment
    (made.1 = .error (Ledger.notApplied id migration) ↔
      ∀ record ∈ moment.world.ledger.history id, record.isActiveOf migration = false) ∧
    ∀ error, made.1 = .error error → error = Ledger.notApplied id migration ∧
      made.2 = { moment with world := { moment.world with wallClock := clock } } := by
  intro made
  rw [← MigrationRecord.standing_eq_zero_iff]
  rcases Nat.eq_zero_or_pos (standing id migration moment) with nothing | stands
  · have fails : made = _ := perform_rollBack_error clock nothing
    rw [fails]
    exact ⟨⟨fun _ => nothing, fun _ => rfl⟩, fun error same => ⟨(Except.error.inj same).symm, rfl⟩⟩
  · obtain ⟨ledger, performed, -⟩ := perform_rollBack clock stands
    have succeeds : made = _ := performed
    rw [succeeds]
    refine ⟨⟨nofun, fun nothing => absurd nothing stands.ne'⟩, nofun⟩

/-! ### What is read -/

theorem perform_applied (id : ShardId) :
    (LedgerStore.inMemory.applied id).perform moment =
      (.ok (moment.world.ledger.applied id), moment) :=
  rfl

theorem perform_active_eq_iff (id : ShardId) (migration : String)
    (found : Option MigrationRecord) :
    (LedgerStore.inMemory.active id migration).perform moment = (.ok found, moment) ↔
      moment.world.ledger.active? id migration = found := by
  have read : (LedgerStore.inMemory.active id migration).perform moment =
      (.ok (moment.world.ledger.active? id migration), moment) := rfl
  rw [read]
  exact ⟨fun same => Except.ok.inj (Prod.mk.inj same).1, fun same => same ▸ rfl⟩

/-- One more call of a ledger in memory after any others, from whatever the ledger held first.
Before it all records have persisted at their places. The call leaves every history as it was, with
one active record more or with one record stamped that was not, and those of other shards than its
own as they were. Taking a migration back fails just if no record of it is active on the shard, in
one way, and then changes nothing. What is read as being in effect on a shard are the migrations
with an active record, each once, in the order of the first of these; and they are those of which an
active record is found. -/
theorem append_only (calls : List (UInt64 × LedgerCall)) (clock : UInt64) (call : LedgerCall)
    (moment : Moment Deployment) :
    let before := after calls moment
    let made := call.perform clock before
    let ledger := before.world.ledger
    (∀ id, Continues (moment.world.ledger.history id) (ledger.history id)) ∧
    (∀ id, Grows (ledger.history id) (made.2.world.ledger.history id)) ∧
    (∀ id, id ≠ call.shard → made.2.world.ledger.history id = ledger.history id) ∧
    (∀ id migration, call = .recordRolledBack id migration →
      (made.1 = .error (Ledger.notApplied id migration) ↔
        ∀ record ∈ ledger.history id, record.isActiveOf migration = false) ∧
      ∀ error, made.1 = .error error → error = Ledger.notApplied id migration ∧
        made.2 = { before with world := { before.world with wallClock := clock } }) ∧
    ∀ id, ∃ applied, (LedgerStore.inMemory.applied id).perform before = (.ok applied, before) ∧
      applied.Nodup ∧
      (applied.Pairwise fun first later =>
        firstPlace first (ledger.history id) < firstPlace later (ledger.history id)) ∧
      (∀ migration, migration ∈ applied ↔
        ∃ record ∈ ledger.history id, record.isActiveOf migration = true) ∧
      ∀ migration, migration ∈ applied ↔
        ∃ record ∈ ledger.history id, record.isActiveOf migration = true ∧
          (LedgerStore.inMemory.active id migration).perform before =
            (.ok (some record), before) := by
  intro before made ledger
  refine ⟨fun id => continues_after id calls moment,
    fun id => (grows_perform clock call before id).1,
    fun id => (grows_perform clock call before id).2, ?_, fun id => ?_⟩
  · rintro id migration rfl
    exact rollBack_fails_iff clock before id migration
  · refine ⟨ledger.applied id, perform_applied before id, nodup_distinct _,
      MigrationRecord.pairwise_firstPlace _, fun migration => Ledger.mem_applied_iff_exists,
      fun migration => ?_⟩
    simp only [perform_active_eq_iff]
    exact Ledger.mem_applied_iff_active?

/-- A migration that was taken back and applied again comes after those applied in between. -/
example :
    let first : Migration := ⟨"1", "accounts", "CREATE TABLE a (b INT)", "DROP TABLE a", "11"⟩
    let second : Migration := ⟨"2", "orders", "CREATE TABLE c (d INT)", "DROP TABLE c", "22"⟩
    let shard := Shard.first.id
    let calls : List (UInt64 × LedgerCall) :=
      [(1, .recordApplied shard first ⟨0⟩), (2, .recordApplied shard second ⟨0⟩),
        (3, .recordRolledBack shard "1"), (4, .recordApplied shard first ⟨0⟩)]
    let moment : Moment Deployment :=
      { now := 0, world := { network := .ofTopology .pair, wallClock := 0 } }
    (after calls moment).world.ledger.applied shard = ["2", "1"] := by
  decide

end LedgerCall

end ShardFleet
