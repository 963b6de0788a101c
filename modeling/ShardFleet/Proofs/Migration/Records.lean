import ShardFleet.Proofs.Connections
import ShardFleet.Proofs.Migration.Rollouts

/-!
Which scripts a ledger on the shards records.

With the ledger in a table on every shard a script and its record are two statements, and the visit
waits between them. A visit sends its statements in one order (`LedgerTable.untilRecord`), each
after the one before has succeeded, and its result tells how far it came
(`Migration.Accounted`, `Migration.keeps_recording`).

So a script that ran is recorded, unless the visit was cut off at that place, or the shard refused
the record; in both cases the report says so (`Rollout.apply_records`). A time limit can cut there
(`Rollout.script_unrecorded`).
-/

namespace ShardFleet

variable {id : ShardId} {world : Deployment}

/-! ### The statements of a visit -/

namespace LedgerTable

/-- What is sent to a shard until the script of a migration has run there. -/
def untilScript (table : LedgerTable) (migration : Migration) : List Statement :=
  [table.createStatement, table.historyStatement, .plain migration.up]

/-- What is sent to a shard until the migration is recorded, at an instant and with the time that
its script took. -/
def untilRecord (table : LedgerTable) (migration : Migration) (instant : UInt64)
    (duration : Duration) : List Statement :=
  table.untilScript migration ++ [table.insertStatement migration instant duration]

/-- Some of the statements up to the script, all of which succeed on the shard. -/
structure Begun (table : LedgerTable) (migration : Migration) (found : Share)
    (done : List Statement) : Prop where
  due : done <+: table.untilScript migration
  accepted : ∀ statement ∈ done, found.Accepts statement

variable {table : LedgerTable} {migration : Migration} {found : Share} {done : List Statement}

theorem begun_nil : table.Begun migration found [] := ⟨List.nil_prefix, nofun⟩

theorem Begun.next {statement : Statement} (begun : table.Begun migration found done)
    (due : done ++ [statement] <+: table.untilScript migration)
    (last : found.Accepts statement) : table.Begun migration found (done ++ [statement]) := by
  refine ⟨due, fun other mem => ?_⟩
  rcases List.mem_append.mp mem with earlier | new
  · exact begun.accepted other earlier
  · exact List.mem_singleton.mp new ▸ last

end LedgerTable

namespace Share

/-- These statements were sent to the shard since, and each of them succeeded. -/
structure Carried (found : Share) (statements : List Statement) (left : Share) : Prop where
  noted : found.Noted statements left
  accepted : ∀ statement ∈ statements, found.Accepts statement

/-- These statements were sent to the shard since and succeeded, and then one more, which did
not. -/
structure Stopped (found : Share) (statements : List Statement) (statement : Statement)
    (reason : Error) (left : Share) : Prop where
  noted : found.Noted (statements ++ [statement]) left
  accepted : ∀ earlier ∈ statements, found.Accepts earlier
  refused : found.Answers statement (.error reason)

end Share

/-- An error of a visit that was cut off where it waited. -/
def Error.CutsOff (id : ShardId) (error : Error) : Prop :=
  error = .cancelled ∨ ∃ limit, error = .shardTimeout id limit

/-! ### One statement over a connection of its own -/

namespace Access

variable {found : Access} {done : List Statement} {statement : Statement}
  {permitted : List Statement → Prop}

theorem tends_execute_alone {ends : Except Error Unit → Deployment → Prop}
    (allowed : permitted done) (noted : found.Noted done (world.access id))
    (refused : ∀ error, found.refusal = some error → ends (.error error) world)
    (failed : ∀ (later : Deployment) message,
      found.Noted (done ++ [statement]) (later.access id) →
      found.share.Answers statement (.error (.statement message)) →
      ends (.error (.statement message)) later)
    (succeeded : ∀ later : Deployment, found.Noted (done ++ [statement]) (later.access id) →
      found.share.Accepts statement → ends (.ok ()) later) :
    Activity.Tends Deployment.access id (fun later => found.Within permitted (later.access id))
      ends
      (Connection.use id do
        let _ ← Connection.execute id statement) world := by
  refine tends_use noted refused fun opened shard _ present noted => ?_
  refine Job.tends_bind.mpr (tends_execute allowed present noted ?_ ?_)
  · intro later message noted answer
    exact failed _ message noted.release answer
  · intro later affected noted accepted
    exact succeeded _ noted.release accepted

theorem tends_query_alone {α : Type} {ends : Except Error α → Deployment → Prop}
    {read : List Row → Except Error α} (allowed : permitted done)
    (noted : found.Noted done (world.access id))
    (refused : ∀ error, found.refusal = some error → ends (.error error) world)
    (failed : ∀ (later : Deployment) message,
      found.Noted (done ++ [statement]) (later.access id) →
      found.share.Answers statement (.error (.statement message)) →
      ends (.error (.statement message)) later)
    (succeeded : ∀ (later : Deployment) rows,
      found.Noted (done ++ [statement]) (later.access id) → found.share.Accepts statement →
      ends (read rows) later) :
    Activity.Tends Deployment.access id (fun later => found.Within permitted (later.access id))
      ends
      (Connection.use id do
        let rows ← Connection.query id statement
        read rows) world := by
  refine tends_use noted refused fun opened shard _ present noted => ?_
  refine Job.tends_bind.mpr (tends_query allowed present noted ?_ ?_)
  · intro later message noted answer
    exact failed _ message noted.release answer
  · intro later noted accepted
    exact succeeded _ _ noted.release accepted

end Access

namespace Migration

variable {migration : Migration} {table : LedgerTable}

/-! ### What a result tells -/

/-- What a result says of a shard is how far the visit came. A migration that is reported as applied
was recorded with the time that is reported. Any other visit stopped at a statement that failed,
and reports this, or before the script ran; where the script was the last, the visit was cut
off. -/
def Accounted (migration : Migration) (table : LedgerTable) (id : ShardId)
    (result : Except Error MigrationOutcome) (found left : Share) : Prop :=
  match result with
  | .ok (.applied duration) =>
      found.Carried (table.untilRecord migration found.wallClock duration) left
  | .ok .alreadyApplied => found.Carried [table.createStatement, table.historyStatement] left
  | .ok _ => False
  | .error error =>
      (∃ done, done <+: table.untilScript migration ∧ found.Carried done left ∧
        (done = table.untilScript migration → error.CutsOff id)) ∨
      ∃ duration done statement reason,
        done ++ [statement] <+: table.untilRecord migration found.wallClock duration ∧
          found.Stopped done statement reason left ∧
          error = migration.failure .forward id reason

variable {found left : Share} {done : List Statement}

/-- A visit that did not come to the script may end with any error. -/
theorem accounted_before (begun : table.Begun migration found done)
    (unfinished : done.length < 3) (noted : found.Noted done left) (error : Error) :
    migration.Accounted table id (.error error) found left := by
  refine .inl ⟨done, begun.due, ⟨noted, begun.accepted⟩, fun all => ?_⟩
  rw [all] at unfinished
  exact absurd unfinished (Nat.lt_irrefl 3)

theorem accounted_cut {error : Error} (begun : table.Begun migration found done)
    (noted : found.Noted done left) (cut : error.CutsOff id) :
    migration.Accounted table id (.error error) found left :=
  .inl ⟨done, begun.due, ⟨noted, begun.accepted⟩, fun _ => cut⟩

/-! ### Scripts that ran -/

/-- The script of the migration was sent to the shard since, in its turn, and succeeded. -/
def Ran (migration : Migration) (table : LedgerTable) (found left : Share) : Prop :=
  ∃ sent, found.Noted sent left ∧ table.untilScript migration <+: sent ∧
    found.Accepts (.plain migration.up)

/-- The script of the migration was sent to the shard since, and so was its record with the time
that it took; both succeeded. -/
def RecordedIn (migration : Migration) (table : LedgerTable) (found left : Share) : Prop :=
  ∃ duration, found.Carried (table.untilRecord migration found.wallClock duration) left

/-- The script of the migration is not recorded, and the error of the visit says why: the visit was
cut off where the record was due, or the shard refused the record. -/
def Unrecorded (migration : Migration) (table : LedgerTable) (id : ShardId) (error : Error)
    (found left : Share) : Prop :=
  found.Carried (table.untilScript migration) left ∧ error.CutsOff id ∨
    ∃ duration reason, found.Stopped (table.untilScript migration)
      (table.insertStatement migration found.wallClock duration) reason left ∧
        error = migration.failure .forward id reason

variable {result : Except Error MigrationOutcome}

/-- What was sent, whatever the result, came in its order. -/
theorem Accounted.sent (accounted : migration.Accounted table id result found left) :
    ∃ duration sent, sent <+: table.untilRecord migration found.wallClock duration ∧
      found.Noted sent left := by
  cases result with
  | ok outcome =>
      cases outcome with
      | applied duration => exact ⟨duration, _, List.prefix_rfl, accounted.noted⟩
      | alreadyApplied =>
          exact ⟨⟨0⟩, [table.createStatement, table.historyStatement], List.prefix_append _ _,
            accounted.noted⟩
      | rolledBack duration => exact accounted.elim
      | notApplied => exact accounted.elim
  | error error =>
      rcases accounted with
        ⟨done, due, carried, -⟩ | ⟨duration, done, statement, reason, due, stopped, -⟩
      · exact ⟨⟨0⟩, done, due.trans (List.prefix_append _ _), carried.noted⟩
      · exact ⟨duration, _, due, stopped.noted⟩

/-- A visit under which the script ran has recorded it, or fails and says why not. -/
theorem Accounted.recorded (accounted : migration.Accounted table id result found left)
    (ran : migration.Ran table found left) :
    migration.RecordedIn table found left ∨
      ∃ error, result = .error error ∧ migration.Unrecorded table id error found left := by
  obtain ⟨sent, noted, began, script⟩ := ran
  obtain ⟨shard, present, -⟩ := show ∃ shard, _ from script
  cases result with
  | ok outcome =>
      cases outcome with
      | applied duration => exact .inl ⟨duration, accounted⟩
      | alreadyApplied =>
          rw [noted.unique present accounted.noted] at began
          exact absurd began.length_le (Nat.not_succ_le_self 2)
      | rolledBack duration => exact accounted.elim
      | notApplied => exact accounted.elim
  | error error =>
      refine .inr ⟨error, rfl, ?_⟩
      rcases accounted with
        ⟨done, due, carried, cut⟩ | ⟨duration, done, statement, reason, due, stopped, reported⟩
      · rw [noted.unique present carried.noted] at began
        obtain rfl := due.eq_of_length_le began.length_le
        exact .inl ⟨carried, cut rfl⟩
      · rw [noted.unique present stopped.noted] at began
        rcases List.prefix_concat_iff.mp due with whole | short
        · obtain ⟨rfl, single⟩ := List.append_inj' whole rfl
          obtain rfl := List.singleton_inj.mp single
          exact .inr ⟨duration, reason, stopped, reported⟩
        · -- The last statement would be the script, which did not fail.
          have whole : done ++ [statement] =
              [table.createStatement, table.historyStatement] ++ [.plain migration.up] :=
            short.eq_of_length_le began.length_le
          obtain ⟨-, single⟩ := List.append_inj' whole rfl
          obtain rfl := List.singleton_inj.mp single
          exact nomatch stopped.refused.unique script

/-- Where nothing was sent no script ran. -/
theorem not_ran_of_untouched (migration : Migration) (table : LedgerTable) (found : Share) :
    ¬ migration.Ran table found found := by
  rintro ⟨sent, noted, began, shard, present, -⟩
  rw [noted.unique present (.refl found)] at began
  exact absurd began.length_le (Nat.not_succ_le_zero 2)

/-! ### Visits -/

/-- What is promised of the shards of a migration that is recorded in a table. -/
def recording (migration : Migration) (table : LedgerTable) :
    Custody Deployment Access MigrationOutcome where
  part := Deployment.access
  idle := fun _ found left => found.Within (table.Begun migration found.share) left
  ends := fun id result found left => migration.Accounted table id result found.share left.share
  idle_refl := fun _ found => ⟨[], LedgerTable.begun_nil, .refl found⟩
  calledOff := fun ⟨_, begun, noted⟩ => accounted_cut begun noted.share (.inl rfl)
  overdue := fun ⟨_, begun, noted⟩ => accounted_cut begun noted.share (.inr ⟨_, rfl⟩)
  stray := fun _ found =>
    accounted_before LedgerTable.begun_nil (Nat.zero_lt_succ 2) (Share.Noted.refl found.share) _

/-- What is left is told by a result of the visit, reported as a failure of the migration if it is
an error. -/
def Told (migration : Migration) (table : LedgerTable) (id : ShardId) (found : Access)
    (result : Except Error MigrationOutcome) (later : Deployment) : Prop :=
  migration.Accounted table id (result.mapError (migration.failure .forward id)) found.share
    (later.access id).share

variable {found : Access}

theorem told_failed {statement : Statement} {message : String} (duration : Duration)
    (begun : table.Begun migration found.share done)
    (due : done ++ [statement] <+:
      table.untilRecord migration found.share.wallClock duration)
    (noted : found.Noted (done ++ [statement]) (world.access id))
    (answer : found.share.Answers statement (.error (.statement message))) :
    migration.Told table id found (.error (.statement message)) world :=
  .inr ⟨duration, done, statement, _, due, ⟨noted.share, begun.accepted, answer⟩, rfl⟩

/-- Where the script has succeeded its record is sent, over a connection that is granted like the
ones before. -/
theorem tends_record {duration : Duration}
    (begun : table.Begun migration found.share (table.untilScript migration))
    (granted : found.refusal = none)
    (noted : found.Noted (table.untilScript migration) (world.access id)) :
    Activity.Tends Deployment.access id
      (fun later => found.Within (table.Begun migration found.share) (later.access id))
      (fun result later => migration.Told table id found result (Connection.release id later))
      (do
        (LedgerStore.onShards table).recordApplied id migration duration
        return .applied duration : Work MigrationOutcome) world := by
  have instant : world.wallClock = found.share.wallClock := noted.share.wallClock
  refine Job.tends_bind.mpr (Job.tends_bind.mpr (Job.tends_look.mpr ?_))
  simp only [ExceptT.bindCont, instant]
  refine Access.tends_execute_alone begun noted ?_ ?_ ?_
  · intro error refused
    rw [granted] at refused
    cases refused
  · intro later message noted answer
    exact told_failed duration begun List.prefix_rfl noted.release answer
  · intro later noted last
    refine ⟨noted.release.share, fun statement mem => ?_⟩
    rcases List.mem_append.mp mem with earlier | new
    · exact begun.accepted statement earlier
    · exact List.mem_singleton.mp new ▸ last

theorem tends_runForward_recording
    (begun : table.Begun migration found.share [table.createStatement, table.historyStatement])
    (noted : found.Noted [table.createStatement, table.historyStatement] (world.access id)) :
    Activity.Tends Deployment.access id
      (fun later => found.Within (table.Begun migration found.share) (later.access id))
      (migration.Told table id found) (migration.runForward (.onShards table) id) world := by
  refine Access.tends_use noted ?_ fun opened shard granted present noted => ?_
  · intro error _
    exact accounted_before begun (Nat.lt_succ_self 2) noted.share _
  · refine Job.tends_bind.mpr (Job.tends_time.mpr fun start => ?_)
    refine Job.tends_bind.mpr (Access.tends_execute begun present noted ?_ ?_)
    · intro later message noted answer
      exact told_failed ⟨0⟩ begun (List.prefix_append _ _) noted.release answer
    · intro later affected noted last
      refine Job.tends_bind.mpr (Job.tends_bind.mpr (Job.tends_time.mpr fun now => ?_))
      exact tends_record (begun.next List.prefix_rfl last) granted noted

theorem tends_applyTo_recording (migration : Migration) (table : LedgerTable)
    (finds : world.access id = found) :
    Activity.Tends Deployment.access id
      (fun later => found.Within (table.Begun migration found.share) (later.access id))
      (migration.Told table id found) (migration.applyTo (.onShards table) id) world := by
  have untouched : found.Noted [] (world.access id) := finds ▸ .refl _
  refine Job.tends_bind.mpr
    (Access.tends_execute_alone LedgerTable.begun_nil untouched ?_ ?_ ?_)
  · intro error _
    exact accounted_before LedgerTable.begun_nil (Nat.zero_lt_succ 2) untouched.share _
  · intro later message noted answer
    exact told_failed ⟨0⟩ LedgerTable.begun_nil (List.prefix_append _ _) noted answer
  · intro opened noted first
    have opening : table.Begun migration found.share [table.createStatement] :=
      LedgerTable.begun_nil.next (List.prefix_append _ _) first
    refine Job.tends_bind.mpr (Job.tends_bind.mpr
      (Access.tends_query_alone opening noted ?_ ?_ ?_))
    · intro error _
      exact accounted_before opening (Nat.lt_of_sub_pos (Nat.zero_lt_succ 1)) noted.share _
    · intro later message noted answer
      exact told_failed ⟨0⟩ opening (List.prefix_append _ _) noted answer
    · intro later rows noted second
      have looked : table.Begun migration found.share
          [table.createStatement, table.historyStatement] :=
        opening.next (List.prefix_append _ _) second
      cases read : LedgerTable.recordsOf rows with
      | error error => exact accounted_before looked (Nat.lt_succ_self 2) noted.share _
      | ok records =>
          refine Job.tends_pure.mpr ?_
          simp only [ExceptT.bindCont]
          cases MigrationRecord.latestActive? records migration.id with
          | none => exact tends_runForward_recording looked noted
          | some record =>
              simp only
              split
              · exact Job.tends_pure.mpr ⟨noted.share, looked.accepted⟩
              · refine Job.tends_throw.mpr ?_
                exact accounted_before looked (Nat.lt_succ_self 2) noted.share _

/-- With the ledger in a table every visit accounts for what it has sent. -/
theorem keeps_recording (migration : Migration) (table : LedgerTable) (id : ShardId) :
    (migration.recording table).Keeps id (migration.visit .forward (.onShards table) id) :=
  fun _ => Job.tends_adapt.mpr (tends_applyTo_recording migration table rfl)

end Migration

namespace Rollout

variable {executor : Executor} {strategy : RolloutStrategy}

/-- A rollout whose strategy can be followed accounts for what it sent to the shards that it
started, and leaves alone all others. -/
theorem apply_accounted (known : strategy.Known executor.topology) (table : LedgerTable)
    (migration : Migration) (moment : Moment Deployment) :
    ∃ gathered ended, apply ⟨executor, .onShards table⟩ migration strategy moment =
        (.ok ⟨migration.id, gathered⟩, ended) ∧
      (∀ answer ∈ gathered.outcomes, migration.Accounted table answer.shard answer.result
        (moment.world.share answer.shard) (ended.world.share answer.shard)) ∧
      ∀ id, id ∉ gathered.outcomes.map Answer.shard →
        ended.world.share id = moment.world.share id := by
  let rollout : Rollout := ⟨executor, .onShards table⟩
  have visits : ∀ id, (migration.recording table).Keeps id
      (migration.visit .forward rollout.ledger id) := migration.keeps_recording table
  obtain ⟨gathered, ended, ran, -, settled⟩ := run_keeps visits known moment
  exact ⟨gathered, ended, ran, settled.outcomes, fun id spared =>
    congrArg Access.share (settled.others id spared)⟩

/-- What was sent to a shard came in its order. -/
theorem apply_sends (known : strategy.Known executor.topology) (table : LedgerTable)
    (migration : Migration) (moment : Moment Deployment) (id : ShardId) :
    ∃ duration sent,
      sent <+: table.untilRecord migration (moment.world.share id).wallClock duration ∧
      (moment.world.share id).Noted sent
        ((apply ⟨executor, .onShards table⟩ migration strategy moment).2.world.share id) := by
  obtain ⟨gathered, ended, ran, accounted, others⟩ :=
    apply_accounted known table migration moment
  rw [ran]
  by_cases started : id ∈ gathered.outcomes.map Answer.shard
  · obtain ⟨answer, mem, rfl⟩ := List.mem_map.mp started
    exact (accounted answer mem).sent
  · rw [others id started]
    exact ⟨⟨0⟩, [], List.nil_prefix, .refl _⟩

/-- A rollout recorded in a table on every shard, under any strategy and options, whatever fails, is
late or is cancelled meanwhile. What was sent to a shard came in its order, and nothing came more
than once. Where the script ran it is recorded with the time that it took, unless the shard is
reported as cut off where the record was due, or as having refused the record. A shard that is
reported as changed is recorded with the time that is reported. -/
theorem apply_records (executor : Executor) (table : LedgerTable) (migration : Migration)
    (strategy : RolloutStrategy) (moment : Moment Deployment) :
    ∃ result ended, apply ⟨executor, .onShards table⟩ migration strategy moment = (result, ended) ∧
      ∀ id,
        let found := moment.world.share id
        let left := ended.world.share id
        (∃ duration sent, sent <+: table.untilRecord migration found.wallClock duration ∧
          found.Noted sent left) ∧
        (migration.Ran table found left →
          migration.RecordedIn table found left ∨ ∃ gathered error,
            result = .ok ⟨migration.id, gathered⟩ ∧ ⟨id, .error error⟩ ∈ gathered.outcomes ∧
              migration.Unrecorded table id error found left) ∧
        ∀ gathered duration, result = .ok ⟨migration.id, gathered⟩ →
          ⟨id, .ok (.applied duration)⟩ ∈ gathered.answers →
            found.Carried (table.untilRecord migration found.wallClock duration) left := by
  by_cases known : strategy.Known executor.topology
  · obtain ⟨gathered, ended, ran, accounted, others⟩ :=
      apply_accounted known table migration moment
    refine ⟨_, ended, ran, fun id => ⟨?_, fun script => ?_, ?_⟩⟩
    · have sent := apply_sends known table migration moment id
      rw [ran] at sent
      exact sent
    · by_cases started : id ∈ gathered.outcomes.map Answer.shard
      · obtain ⟨⟨shard, result⟩, mem, rfl⟩ := List.mem_map.mp started
        refine ((accounted _ mem).recorded script).imp_right ?_
        rintro ⟨error, rfl, why⟩
        exact ⟨gathered, error, rfl, mem, why⟩
      · rw [others id started] at script
        exact absurd script (migration.not_ran_of_untouched table _)
    · rintro other duration same listed
      cases same
      exact accounted _ (List.mem_append_left _ listed)
  · obtain ⟨error, refused⟩ := run_of_stranger ⟨executor, .onShards table⟩ known .forward migration
      moment
    refine ⟨_, moment, refused, fun id => ⟨?_, fun script => ?_, ?_⟩⟩
    · exact ⟨⟨0⟩, [], List.nil_prefix, .refl _⟩
    · exact absurd script (migration.not_ran_of_untouched table _)
    · rintro gathered duration same
      cases same

/-- Three statements take thirty milliseconds, and the time limit is thirty-five: the script of the
first shard runs and is not recorded. -/
theorem script_unrecorded :
    let executor : Executor := ⟨.pair, { limit := .ofMillis 35 }⟩
    let table : LedgerTable := ⟨"ledger", .numbered⟩
    let migration : Migration := ⟨"1", "accounts", "CREATE TABLE a (b INT)", "DROP TABLE a", "11"⟩
    let network := (Network.ofTopology .pair).update Shard.first.id fun shard =>
      { shard with latency := .ofMillis 10 }
    let moment : Moment Deployment := { now := 0, world := { network, wallClock := 0 } }
    let ended := (apply ⟨executor, .onShards table⟩ migration .sequential moment).2
    let found := moment.world.share Shard.first.id
    let left := ended.world.share Shard.first.id
    migration.Ran table found left ∧ ¬ migration.RecordedIn table found left := by
  intro executor table migration network moment ended found left
  have three : left.log.length = 3 := by decide +kernel
  have fresh : found.log.length = 0 := by decide +kernel
  have script : found.Accepts (.plain migration.up) := ⟨_, rfl, rfl⟩
  obtain ⟨shard, present, -⟩ := id script
  have known : RolloutStrategy.sequential.Known executor.topology := trivial
  constructor
  · obtain ⟨duration, sent, due, noted⟩ :=
      apply_sends known table migration moment Shard.first.id
    have length : sent.length = 3 := by
      have grown := congrArg List.length (noted.log_append present)
      rw [List.length_append, fresh, Nat.zero_add] at grown
      exact grown.symm.trans three
    refine ⟨sent, noted, ?_, script⟩
    exact List.prefix_of_prefix_length_le (List.prefix_append _ _) due length.ge
  · rintro ⟨duration, carried⟩
    have grown := congrArg List.length (carried.noted.log_append present)
    rw [List.length_append, fresh, three] at grown
    cases grown

end Rollout

end ShardFleet
