import ShardFleet.Proofs.Ascending
import ShardFleet.Proofs.Migration.Rollouts

/-!
Migrations applied one after the other.

Migrations are taken in the order of their ids, each when the one before it is complete. A rollout
is complete if its script ran, or had run before, on every shard, and no later rollout takes back
what the ledger says of it. So wherever the script of a migration has run, all earlier ones are in
effect on every shard (`Rollout.applyAll_in_order`).
-/

namespace ShardFleet

/-! ### The order of migrations -/

namespace Migration

/-- The first comes before the second, or has the same id. -/
def precedes (first second : Migration) : Bool := (compare first.id second.id).isLE

theorem precedes_trans (first second third : Migration) (one : first.precedes second = true)
    (two : second.precedes third = true) : first.precedes third = true :=
  Std.TransCmp.isLE_trans one two

theorem precedes_total (first second : Migration) :
    (first.precedes second || second.precedes first) = true :=
  isLE_total first.id second.id

theorem sort_perm (migrations : List Migration) : (sort migrations).Perm migrations :=
  List.mergeSort_perm migrations _

theorem sort_pairwise (migrations : List Migration) :
    (sort migrations).Pairwise fun first second => first.precedes second = true :=
  pairwise_sortBy Migration.id migrations

/-- Migrations of one id stay in the order in which they were given. -/
theorem sort_stable (migrations : List Migration) (id : String) :
    (sort migrations).filter (·.id = id) = migrations.filter (·.id = id) := by
  have alike : (migrations.filter (·.id = id)).Pairwise
      fun first second => first.precedes second = true := by
    refine List.pairwise_of_forall_mem_list fun first mem second other => ?_
    have same : first.id = second.id := by
      simp only [List.mem_filter, decide_eq_true_eq] at mem other
      rw [mem.2, other.2]
    rw [precedes, same]
    exact Std.ReflCmp.isLE_rfl
  have within : (migrations.filter (·.id = id)).Sublist (sort migrations) :=
    List.sublist_mergeSort precedes_trans precedes_total alike List.filter_sublist
  have kept := within.filter (·.id = id)
  simp only [List.filter_filter, Bool.and_self] at kept
  exact (kept.eq_of_length ((sort_perm migrations).filter _).length_eq.symm).symm

end Migration

/-! ### Migrations in effect -/

theorem MigrationRecord.mem_of_latestActive? {history : List MigrationRecord} {id : String}
    {record : MigrationRecord} (latest : latestActive? history id = some record) :
    record ∈ history ∧ record.isActiveOf id = true :=
  ⟨List.mem_reverse.mp (List.mem_of_find?_eq_some latest),
    List.find?_some (p := fun other => isActiveOf other id) latest⟩

/-- The migration is in effect, with the script that it has now. -/
def Share.InEffect (share : Share) (migration : Migration) : Prop :=
  ∃ record ∈ share.history, record.isActiveOf migration.id = true ∧
    record.checksum = migration.checksum

theorem Share.InEffect.mono {found left : Share} {migration : Migration}
    (inEffect : found.InEffect migration) (grows : found.history <+: left.history) :
    left.InEffect migration := by
  obtain ⟨record, mem, active, same⟩ := inEffect
  exact ⟨record, grows.subset mem, active, same⟩

namespace Migration

variable {migration : Migration} {id : ShardId} {found left : Share}
  {result : Except Error MigrationOutcome}

/-- Applying a migration takes nothing back. -/
theorem Faithful.grows (faithful : migration.Faithful .forward id result found left) :
    found.history <+: left.history := by
  rcases result with error | (duration | _ | duration | _)
  · exact faithful.1 ▸ List.prefix_rfl
  · obtain ⟨-, -, -, recorded⟩ := faithful
    exact recorded ▸ List.prefix_append _ _
  · exact faithful.2.1 ▸ List.prefix_rfl
  · cases faithful.1
  · cases faithful.1

/-- Applying a migration sends its script or nothing. -/
theorem Faithful.log_eq (faithful : migration.Faithful .forward id result found left) :
    left.log = found.log ∨ left.log = found.log ++ [.plain migration.up] := by
  rcases result with error | (duration | _ | duration | _)
  · rcases faithful.2.1 with nothing | ⟨_, sent, -⟩
    · exact .inl nothing.log_eq
    · exact .inr sent.log_eq
  · exact .inr faithful.2.2.1.log_eq
  · exact .inl (faithful.2.1 ▸ rfl)
  · cases faithful.1
  · cases faithful.1

/-- A migration that was applied is in effect. -/
theorem Faithful.inEffect {outcome : MigrationOutcome}
    (faithful : migration.Faithful .forward id (.ok outcome) found left) :
    left.InEffect migration := by
  cases outcome with
  | applied duration =>
      obtain ⟨-, -, -, recorded⟩ := faithful
      refine ⟨.applied migration found.wallClock duration, ?_, ?_, rfl⟩
      · rw [recorded]
        exact List.mem_append_right _ List.mem_cons_self
      · simp [MigrationRecord.applied, MigrationRecord.isActiveOf, MigrationRecord.isActive]
  | alreadyApplied =>
      obtain ⟨-, rfl, record, active, same⟩ := faithful
      obtain ⟨mem, active⟩ := MigrationRecord.mem_of_latestActive? active
      exact ⟨record, mem, active, same⟩
  | rolledBack => cases faithful.1
  | notApplied => cases faithful.1

end Migration

/-! ### One migration after the other -/

/-- The courses follow one another, from the first world to the last. -/
def Linked {σ : Type} (last : σ) : σ → List (List σ) → Prop
  | first, [] => first = last
  | first, course :: rest =>
      course.head? = some first ∧ ∃ between, course.getLast? = some between ∧
        Linked last between rest

namespace Rollout

/-- The worlds that migrations go through which are applied one after the other, migration by
migration. -/
def courses (rollout : Rollout) (strategy : RolloutStrategy) :
    List Migration → Moment Deployment → List (List Deployment)
  | [], _ => []
  | migration :: rest, moment =>
      rollout.course .forward migration strategy moment ::
        match rollout.apply migration strategy moment with
        | (.ok report, reached) =>
            if report.isComplete then rollout.courses strategy rest reached else []
        | (.error _, _) => []

/-- Migrations are applied one after the other, from a moment on, up to the first that is not
complete: what is reported of them, and the worlds that they go through. -/
inductive Applies (rollout : Rollout) (strategy : RolloutStrategy) (ended : Moment Deployment) :
    List Migration → Moment Deployment → List MigrationReport → List (List Deployment) → Prop where
  | nothing : Applies rollout strategy ended [] ended [] []
  | stopped {migration : Migration} {rest : List Migration} {moment : Moment Deployment}
      {gathered : Gathered MigrationOutcome}
      (ran : rollout.apply migration strategy moment = (.ok ⟨migration.id, gathered⟩, ended))
      (incomplete : gathered.isComplete = false) :
      Applies rollout strategy ended (migration :: rest) moment [⟨migration.id, gathered⟩]
        [rollout.course .forward migration strategy moment]
  | next {migration : Migration} {rest : List Migration} {moment reached : Moment Deployment}
      {gathered : Gathered MigrationOutcome} {reports : List MigrationReport}
      {gone : List (List Deployment)}
      (ran : rollout.apply migration strategy moment = (.ok ⟨migration.id, gathered⟩, reached))
      (complete : gathered.isComplete = true)
      (onward : Applies rollout strategy ended rest reached reports gone) :
      Applies rollout strategy ended (migration :: rest) moment
        (⟨migration.id, gathered⟩ :: reports)
        (rollout.course .forward migration strategy moment :: gone)

variable {rollout : Rollout} {strategy : RolloutStrategy} {migrations : List Migration}
  {moment ended : Moment Deployment} {reports : List MigrationReport}
  {gone : List (List Deployment)}

/-- If the strategy can be followed, every migration that is begun comes to a report. -/
theorem applies_applyEach (rollout : Rollout) (kept : rollout.ledger = .inMemory)
    (known : strategy.Known rollout.executor.topology) (migrations : List Migration)
    (moment : Moment Deployment) :
    ∃ reports ended, rollout.applyEach strategy migrations moment = (.ok reports, ended) ∧
      Applies rollout strategy ended migrations moment reports
        (rollout.courses strategy migrations moment) := by
  induction migrations generalizing moment with
  | nil => exact ⟨[], moment, rfl, .nothing⟩
  | cons migration rest ih =>
      obtain ⟨gathered, reached, ran, -⟩ :=
        rollout.run_settled kept known .forward migration moment
      have ran : rollout.apply migration strategy moment =
        (.ok ⟨migration.id, gathered⟩, reached) := ran
      cases complete : gathered.isComplete with
      | false =>
          refine ⟨[⟨migration.id, gathered⟩], reached, ?_, ?_⟩
          · rw [applyEach, Timed.bind_apply, ran]
            simp only [MigrationReport.isComplete, complete]
            rfl
          · simp only [courses, ran, MigrationReport.isComplete, complete]
            exact .stopped ran complete
      | true =>
          obtain ⟨reports, ended, applied, applies⟩ := ih reached
          refine ⟨⟨migration.id, gathered⟩ :: reports, ended, ?_, ?_⟩
          · rw [applyEach, Timed.bind_apply, ran]
            simp only [MigrationReport.isComplete, complete, if_true]
            rw [Timed.bind_apply, applied]
            rfl
          · simp only [courses, ran, MigrationReport.isComplete, complete, if_true]
            exact .next ran complete applies

/-- Throughout the application of a migration every history is what it was at first, with what was
recorded since, and every log is what it was, with the script if it was sent. -/
theorem applying_of_mem_course (kept : rollout.ledger = .inMemory) {migration : Migration}
    {seen : Deployment} (mem : seen ∈ rollout.course .forward migration strategy moment)
    (id : ShardId) :
    (moment.world.share id).history <+: (seen.share id).history ∧
      ((seen.share id).log = (moment.world.share id).log ∨
        (seen.share id).log = (moment.world.share id).log ++ [.plain migration.up]) := by
  obtain ⟨result, faithful⟩ := visible_of_mem_course kept mem id
  exact ⟨faithful.grows, faithful.log_eq⟩

/-- When a migration is complete it is in effect on every shard. -/
theorem inEffect_of_complete {topology : Topology} {migration : Migration}
    {gathered : Gathered MigrationOutcome} {before after : Deployment}
    (complete : gathered.isComplete = true) (roll : gathered.roll.Perm topology.ids)
    (settled : (migration.custody .forward).Settled before gathered after) :
    ∀ id ∈ topology.ids, (after.share id).InEffect migration := by
  intro id mem
  obtain ⟨outcome, brought⟩ :=
    Gathered.exists_success_of_complete complete (roll.mem_iff.mpr mem)
  have faithful := settled.outcomes ⟨id, .ok outcome⟩
    (List.mem_append_left _ (Gathered.mem_successes.mp brought))
  exact Migration.Faithful.inEffect faithful

/-- When a migration has been applied completely it is in effect on every shard, and whatever was
in effect still is. -/
theorem inEffect_of_applied (kept : rollout.ledger = .inMemory)
    (known : strategy.Known rollout.executor.topology) {migration : Migration}
    {gathered : Gathered MigrationOutcome} {reached : Moment Deployment}
    (ran : rollout.apply migration strategy moment = (.ok ⟨migration.id, gathered⟩, reached))
    (complete : gathered.isComplete = true) {before : List Migration}
    (inEffect : ∀ done ∈ before, ∀ id ∈ rollout.executor.topology.ids,
      (moment.world.share id).InEffect done) :
    ∀ done ∈ before ++ [migration], ∀ id ∈ rollout.executor.topology.ids,
      (reached.world.share id).InEffect done := by
  obtain ⟨_, _, runs, roll, settled⟩ :=
    rollout.run_settled kept known .forward migration moment
  obtain ⟨report, rfl⟩ := Prod.mk.inj (ran.symm.trans runs)
  obtain ⟨-, rfl⟩ := MigrationReport.mk.inj (Except.ok.inj report)
  intro done mem id listed
  rcases List.mem_append.mp mem with earlier | new
  · obtain ⟨result, faithful⟩ := settled.visible id
    exact (inEffect done earlier id listed).mono (Migration.Faithful.grows faithful)
  · rw [List.mem_singleton.mp new]
    exact inEffect_of_complete complete roll settled id listed

namespace Applies

theorem reports_prefix
    (applies : Applies rollout strategy ended migrations moment reports gone) :
    reports.map MigrationReport.id <+: migrations.map Migration.id := by
  induction applies with
  | nothing => exact List.prefix_rfl
  | stopped => exact List.prefix_cons_inj _ |>.mpr (List.nil_prefix)
  | next _ _ _ ih => exact List.prefix_cons_inj _ |>.mpr ih

theorem length_eq (applies : Applies rollout strategy ended migrations moment reports gone) :
    gone.length = reports.length := by
  induction applies with
  | nothing => rfl
  | stopped => rfl
  | next _ _ _ ih => exact congrArg Nat.succ ih

/-- Every report but the last is complete. -/
theorem complete_of_mem
    (applies : Applies rollout strategy ended migrations moment reports gone) :
    ∀ report ∈ reports.dropLast, report.isComplete = true := by
  induction applies with
  | nothing => exact fun _ absent => by cases absent
  | stopped => exact fun _ absent => by cases absent
  | @next _ _ _ _ _ reports _ _ complete _ ih =>
      intro report mem
      cases reports with
      | nil => cases mem
      | cons second rest =>
          rcases List.mem_cons.mp mem with rfl | later
          · exact complete
          · exact ih report later

/-- Whoever stops early stops at a migration that is not complete. -/
theorem incomplete_of_short
    (applies : Applies rollout strategy ended migrations moment reports gone)
    (short : reports.length < migrations.length) :
    ∃ last, reports.getLast? = some last ∧ last.isComplete = false := by
  induction applies with
  | nothing => cases short
  | stopped _ incomplete => exact ⟨_, rfl, incomplete⟩
  | next _ _ _ ih =>
      obtain ⟨last, found, incomplete⟩ := ih (Nat.lt_of_succ_lt_succ short)
      refine ⟨last, ?_, incomplete⟩
      rw [List.getLast?_cons, found, Option.getD_some]

theorem linked (known : strategy.Known rollout.executor.topology)
    (applies : Applies rollout strategy ended migrations moment reports gone) :
    Linked ended.world moment.world gone := by
  induction applies with
  | nothing => rfl
  | stopped ran =>
      refine ⟨head?_course, _, getLast?_course known, ?_⟩
      have ran : (rollout.run .forward _ strategy _) = _ := ran
      rw [ran]
      rfl
  | next ran _ _ ih =>
      refine ⟨head?_course, _, getLast?_course known, ?_⟩
      have ran : (rollout.run .forward _ strategy _) = _ := ran
      rw [ran]
      exact ih

/-- When a migration is begun, all earlier ones are in effect on every shard. -/
theorem begins (kept : rollout.ledger = .inMemory)
    (known : strategy.Known rollout.executor.topology)
    (applies : Applies rollout strategy ended migrations moment reports gone)
    (before : List Migration)
    (inEffect : ∀ done ∈ before, ∀ id ∈ rollout.executor.topology.ids,
      (moment.world.share id).InEffect done)
    {earlier later : List Migration} {migration : Migration} {course : List Deployment}
    (split : migrations = earlier ++ migration :: later)
    (found : gone[earlier.length]? = some course) :
    ∃ start, course = rollout.course .forward migration strategy start ∧
      ∀ done ∈ before ++ earlier, ∀ id ∈ rollout.executor.topology.ids,
        (start.world.share id).InEffect done := by
  induction applies generalizing before earlier with
  | nothing => simp at split
  | @stopped first _ moment =>
      cases earlier with
      | nil =>
          obtain ⟨rfl, -⟩ := List.cons.inj split
          refine ⟨moment, (Option.some.inj found).symm, ?_⟩
          rwa [List.append_nil]
      | cons => simp at found
  | @next first _ moment reached gathered _ _ ran complete _ ih =>
      cases earlier with
      | nil =>
          obtain ⟨rfl, -⟩ := List.cons.inj split
          refine ⟨moment, (Option.some.inj found).symm, ?_⟩
          rwa [List.append_nil]
      | cons other earlier =>
          -- The migration just applied joins those in effect when the next one is begun.
          obtain ⟨rfl, rest⟩ := List.cons.inj split
          have now := inEffect_of_applied kept known ran complete inEffect
          obtain ⟨start, course, inEffect⟩ := ih _ now rest found
          refine ⟨start, course, ?_⟩
          rwa [List.append_assoc] at inEffect

end Applies

/-- Applying many migrations, recorded in memory, with a strategy that can be followed. They are
taken in the order of their ids, those of one id as they were given. There are reports for the
first of them: all but the last are complete, and if some migration has no report the last is not.

The worlds that the call goes through fall into one course for each report. Throughout the course
of a migration the shards receive no statement but its script, each at most once, and every
migration before it is in effect on every shard. -/
theorem applyAll_in_order (executor : Executor) (migrations : List Migration)
    (strategy : RolloutStrategy) (moment : Moment Deployment)
    (known : strategy.Known executor.topology) :
    let ordered := Migration.sort migrations
    let courses := courses ⟨executor, .inMemory⟩ strategy ordered moment
    (ordered.Perm migrations ∧
      (ordered.Pairwise fun first second => first.precedes second = true) ∧
      ∀ id, ordered.filter (·.id = id) = migrations.filter (·.id = id)) ∧
    ∃ reports ended, applyAll ⟨executor, .inMemory⟩ migrations strategy moment =
        (.ok reports, ended) ∧
      reports.map MigrationReport.id <+: ordered.map Migration.id ∧
      (∀ report ∈ reports.dropLast, report.isComplete = true) ∧
      (reports.length < ordered.length →
        ∃ last, reports.getLast? = some last ∧ last.isComplete = false) ∧
      courses.length = reports.length ∧ Linked ended.world moment.world courses ∧
      ∀ earlier migration later course, ordered = earlier ++ migration :: later →
        courses[earlier.length]? = some course →
        ∃ start, course.head? = some start ∧ ∀ seen ∈ course,
          (∀ id, (seen.share id).log = (start.share id).log ∨
            (seen.share id).log = (start.share id).log ++ [.plain migration.up]) ∧
          ∀ done ∈ earlier, ∀ id ∈ executor.topology.ids, (seen.share id).InEffect done := by
  intro ordered courses
  obtain ⟨reports, ended, applied, applies⟩ :=
    applies_applyEach ⟨executor, .inMemory⟩ rfl known ordered moment
  refine ⟨⟨Migration.sort_perm migrations, Migration.sort_pairwise migrations,
    Migration.sort_stable migrations⟩, reports, ended, applied, applies.reports_prefix,
    applies.complete_of_mem, applies.incomplete_of_short, applies.length_eq,
    applies.linked known, ?_⟩
  intro earlier migration later course split found
  obtain ⟨start, rfl, inEffect⟩ := applies.begins rfl known [] nofun split found
  refine ⟨start.world, head?_course, fun seen mem => ⟨fun id => ?_, ?_⟩⟩
  · exact (applying_of_mem_course rfl mem id).2
  · intro done among id listed
    exact (inEffect done among id listed).mono (applying_of_mem_course rfl mem id).1

/-- Two migrations given in the wrong order, with one shard of two to begin with: wherever the
second is under way, the first is in effect on both shards. -/
theorem applyAll_in_order_pair :
    let executor : Executor := ⟨.pair, { limit := .ofMillis 5 }⟩
    let first : Migration := ⟨"1", "accounts", "CREATE TABLE a (b INT)", "DROP TABLE a", "11"⟩
    let second : Migration := ⟨"2", "orders", "CREATE TABLE c (d INT)", "DROP TABLE c", "12"⟩
    let strategy := RolloutStrategy.canary Shard.second.id
    let moment : Moment Deployment :=
      { now := 0, world := { network := .ofTopology .pair, wallClock := 0 } }
    strategy.Known executor.topology ∧
      ∃ course, (courses ⟨executor, .inMemory⟩ strategy (Migration.sort [second, first])
          moment)[1]? = some course ∧
        ∀ seen ∈ course, ∀ id ∈ executor.topology.ids, (seen.share id).InEffect first := by
  intro executor first second strategy moment
  have known : strategy.Known executor.topology := by decide
  have order : (compare second.id first.id).isLE = false := by decide
  have sorted : Migration.sort [second, first] = [first] ++ second :: [] := by
    simp [Migration.sort, List.mergeSort, List.MergeSort.Internal.splitInTwo, order]
  have both : (courses ⟨executor, .inMemory⟩ strategy [first, second] moment).length = 2 := by
    decide +kernel
  have begun : 1 < (courses ⟨executor, .inMemory⟩ strategy (Migration.sort [second, first])
      moment).length := by
    rw [sorted, List.singleton_append, both]
    exact Nat.one_lt_two
  obtain ⟨-, reports, ended, -, -, -, -, -, -, inOrder⟩ :=
    applyAll_in_order executor [second, first] strategy moment known
  obtain ⟨start, -, throughout⟩ :=
    inOrder [first] second [] _ sorted (List.getElem?_eq_getElem begun)
  refine ⟨known, _, List.getElem?_eq_getElem begun, fun seen mem => ?_⟩
  exact (throughout seen mem).2 first List.mem_cons_self

end Rollout

end ShardFleet
