import ShardFleet.Migration.Rollout
import ShardFleet.Proofs.Migration.Shares
import ShardFleet.Proofs.Scatter.Custody

/-!
What a migration leaves of one shard.

With the ledger in memory a visit waits at one place only: for its script. Whoever gives it up
there finds the shard as it was, because the script is noted when the wait is over and is recorded
at the same instant. So script and ledger move together (`Migration.Faithful`,
`Migration.keeps_visit`).
-/

namespace ShardFleet

variable {α : Type} {id : ShardId} {found : Share} {world : Deployment}

/-! ### Work over a connection -/

namespace Connection

variable {shard : SimulatedShard} {statement : Statement}

theorem touches_onShard (world : Deployment) (id : ShardId)
    (f : SimulatedShard → SimulatedShard) :
    TouchesOnly Deployment.share id world (world.onShard id f) := by
  intro other different
  rw [Deployment.share_onShard, if_neg different]

/-- A shard to which a connection is granted is there. -/
theorem present_of_granted (granted : world.network.refusal? id = none) :
    ∃ shard, (world.share id).simulated = some shard := by
  unfold Network.refusal? at granted
  split at granted
  · cases granted
  · split at granted
    · next present => exact Option.isSome_iff_exists.mp present
    · cases granted

/-- A connection is refused because the shard cannot be reached or is not there. -/
theorem refusal_cases {error : Error} (refused : world.network.refusal? id = some error) :
    error = .shardUnreachable id "connection refused" ∨ error = .unknownShard id.name := by
  unfold Network.refusal? at refused
  split at refused
  · exact .inl (Option.some.inj refused).symm
  · split at refused
    · cases refused
    · exact .inr (Option.some.inj refused).symm

theorem refusal_ne_cancelled {error : Error} (refused : world.network.refusal? id = some error) :
    error ≠ .cancelled := by
  rcases refusal_cases refused with rfl | rfl <;> simp

theorem tends_use {ends : Except Error α → Deployment → Prop} {work : Work α}
    (refused : ∀ error, world.network.refusal? id = some error → ends (.error error) world)
    (granted : world.network.refusal? id = none →
      Activity.Tends Deployment.share id (fun later => found.Quiet (later.share id))
        (fun result later => ends result (release id later)) work (world.onShard id .connect)) :
    Activity.Tends Deployment.share id (fun later => found.Quiet (later.share id)) ends
      (use id work) world := by
  refine Job.tends_bind.mpr ?_
  unfold acquire
  cases refusal : world.network.refusal? id with
  | some error =>
      exact (Job.tends_transact_error (by rw [refusal])).mpr (refused error refusal)
  | none =>
      refine (Job.tends_transact_ok (world.onShard id .connect) () (by rw [refusal])).mpr ?_
      refine ⟨touches_onShard world id _, ?_⟩
      refine Activity.Tends.guarded (fun later => touches_onShard later id _) ?_
        (granted refusal)
      intro later still
      rw [release, Deployment.share_onShard_self]
      exact still.disconnect

/-- A shard that noted nothing but a statement answers it as it would have before. -/
theorem verdict_of_noted {later : Deployment} (present : found.simulated = some shard)
    (noted : found.Noted [statement] (later.share id)) :
    (later.shard id).verdict statement = shard.verdict statement := by
  obtain ⟨answering, there, noted⟩ := noted.present present
  have now : later.network.shard? id = some answering := there
  rw [Deployment.shard, now]
  exact noted.verdict statement

theorem tends_send {ends : Except Error Unit → Deployment → Prop}
    (present : found.simulated = some shard) (quiet : found.Quiet (world.share id))
    (answered : ∀ later : Deployment, found.Noted [statement] (later.share id) →
      (later.share id).history = found.history → ends (shard.verdict statement) later) :
    Activity.Tends Deployment.share id (fun later => found.Quiet (later.share id)) ends
      (send id statement) world := by
  unfold send await
  simp only [Job.tends_bind, Job.tends_look, ExceptT.bindCont]
  refine Job.tends_sleep.mpr ⟨quiet, fun later _ still => ?_⟩
  refine Job.tends_bind.mpr (Job.tends_change.mpr ⟨touches_onShard later id _, ?_⟩)
  have noted : found.Noted [statement]
      ((later.onShard id (·.receive statement)).share id) := by
    rw [Deployment.share_onShard_self]
    exact still.receive statement
  refine Job.tends_look.mpr ?_
  rw [verdict_of_noted present noted]
  refine answered _ noted ?_
  rw [Deployment.share_onShard_self]
  exact still.history

theorem tends_execute {ends : Except Error Nat → Deployment → Prop}
    (present : found.simulated = some shard) (quiet : found.Quiet (world.share id))
    (failed : ∀ (later : Deployment) message,
      found.Sent statement (.error (.statement message)) (later.share id) →
      (later.share id).history = found.history → ends (.error (.statement message)) later)
    (succeeded : ∀ (later : Deployment) affected, found.Sent statement (.ok ()) (later.share id) →
      (later.share id).history = found.history → ends (.ok affected) later) :
    Activity.Tends Deployment.share id (fun later => found.Quiet (later.share id)) ends
      (execute id statement) world := by
  refine Job.tends_bind.mpr (tends_send present quiet fun later noted history => ?_)
  cases verdict : shard.verdict statement with
  | error error =>
      obtain ⟨message, rfl⟩ := SimulatedShard.verdict_error verdict
      exact failed later message ⟨noted, shard, present, verdict⟩ history
  | ok value =>
      refine Job.tends_look.mpr ?_
      exact succeeded later _ ⟨noted, shard, present, verdict⟩ history

end Connection

/-! ### The ledger in memory -/

/-- Opening the ledger of a shard and looking a migration up in it touches nothing. -/
theorem LedgerStore.tends_consult {ends : Except Error α → Deployment → Prop}
    {idle : Deployment → Prop} {migration : String} {next : Option MigrationRecord → Work α}
    (finds : world.share id = found)
    (onward : ∀ opened : Deployment, opened.share id = found →
      Activity.Tends Deployment.share id idle ends
        (next (MigrationRecord.latestActive? found.history migration)) opened) :
    Activity.Tends Deployment.share id idle ends
      (do
        LedgerStore.inMemory.ensure id
        next (← LedgerStore.inMemory.active id migration) : Work α) world := by
  have opened := (world.share_ensure id id).trans finds
  refine Job.tends_bind.mpr (Job.tends_change.mpr ⟨fun other _ => world.share_ensure id other, ?_⟩)
  refine Job.tends_bind.mpr (Job.tends_bind.mpr (Job.tends_look.mpr (Job.tends_pure.mpr ?_)))
  have looked : ({ world with ledger := world.ledger.ensure id } : Deployment).ledger.history id =
      found.history := congrArg Share.history opened
  rw [looked]
  exact onward _ opened

namespace Migration

variable {migration : Migration}

/-- Running a script over a connection of its own, and then something else. Either the shard
cannot be reached and nothing is touched, or the script fails and that is all, or it succeeds. -/
theorem tends_script {ends : Except Error MigrationOutcome → Deployment → Prop}
    {script : Statement} {rest : Nat → Work MigrationOutcome}
    (finds : world.share id = found)
    (refused : ∀ error, world.network.refusal? id = some error → ends (.error error) world)
    (failed : ∀ (later : Deployment) message,
      found.Sent script (.error (.statement message)) (later.share id) →
      (later.share id).history = found.history → ends (.error (.statement message)) later)
    (succeeded : ∀ (later : Deployment) begun, found.Sent script (.ok ()) (later.share id) →
      (later.share id).history = found.history →
      Activity.Tends Deployment.share id (fun later => found.Quiet (later.share id))
        (fun result later => ends result (Connection.release id later)) (rest begun) later) :
    Activity.Tends Deployment.share id (fun later => found.Quiet (later.share id)) ends
      (Connection.use id do
        let begun ← Job.time
        let _ ← Connection.execute id script
        rest begun) world := by
  refine Connection.tends_use refused fun granted => ?_
  obtain ⟨shard, present⟩ := Connection.present_of_granted granted
  have quiet : found.Quiet ((world.onShard id .connect).share id) := by
    rw [Deployment.share_onShard_self, finds]
    exact (Share.Quiet.refl found).connect
  refine Job.tends_bind.mpr (Job.tends_time.mpr fun begun => ?_)
  refine Job.tends_bind.mpr (Connection.tends_execute (finds ▸ present) quiet ?_ ?_)
  · intro later message sent history
    refine failed _ message ?_ ?_
    · rw [Connection.release, Deployment.share_onShard_self]
      exact sent.disconnect _
    · rw [Connection.release, Deployment.share_onShard_self]
      exact history
  · intro later affected sent history
    exact succeeded later begun sent history

/-- A script that succeeded is recorded at the same instant. -/
theorem tends_runForward {ends : Except Error MigrationOutcome → Deployment → Prop}
    (finds : world.share id = found)
    (refused : ∀ error, world.network.refusal? id = some error → ends (.error error) world)
    (failed : ∀ (later : Deployment) message,
      found.Sent (.plain migration.up) (.error (.statement message)) (later.share id) →
      (later.share id).history = found.history → ends (.error (.statement message)) later)
    (applied : ∀ (later : Deployment) duration,
      found.Sent (.plain migration.up) (.ok ()) (later.share id) →
      (later.share id).history =
        found.history ++ [.applied migration found.wallClock duration] →
      ends (.ok (.applied duration)) later) :
    Activity.Tends Deployment.share id (fun later => found.Quiet (later.share id)) ends
      (migration.runForward .inMemory id) world := by
  refine tends_script finds refused failed fun later begun sent history => ?_
  refine Job.tends_bind.mpr (Job.tends_bind.mpr (Job.tends_time.mpr fun now => ?_))
  refine Job.tends_bind.mpr (Job.tends_change.mpr ⟨?_, ?_⟩)
  · intro other different
    rw [Deployment.share_append, if_neg different]
  · refine applied _ _ ?_ ?_
    · rw [Connection.release, Deployment.share_onShard_self, Deployment.share_append, if_pos rfl]
      exact sent.disconnect _
    · rw [Connection.release, Deployment.share_onShard_self, Deployment.share_append, if_pos rfl,
        ← sent.noted.wallClock, ← history]
      rfl

/-- A reverse script that succeeded stamps the migration at the same instant, since it is in
effect. -/
theorem tends_runBackward {ends : Except Error MigrationOutcome → Deployment → Prop}
    {record : MigrationRecord} (finds : world.share id = found)
    (active : MigrationRecord.latestActive? found.history migration.id = some record)
    (refused : ∀ error, world.network.refusal? id = some error → ends (.error error) world)
    (failed : ∀ (later : Deployment) message,
      found.Sent (.plain migration.down) (.error (.statement message)) (later.share id) →
      (later.share id).history = found.history → ends (.error (.statement message)) later)
    (rolledBack : ∀ (later : Deployment) duration,
      found.Sent (.plain migration.down) (.ok ()) (later.share id) →
      MigrationRecord.Stamped migration.id found.wallClock found.history
        (later.share id).history →
      ends (.ok (.rolledBack duration)) later) :
    Activity.Tends Deployment.share id (fun later => found.Quiet (later.share id)) ends
      (migration.runBackward .inMemory id) world := by
  refine tends_script finds refused failed fun later begun sent history => ?_
  have stillActive : later.ledger.active? id migration.id = some record := by
    have same : later.ledger.history id = found.history := history
    rw [Ledger.active?, same]
    exact active
  obtain ⟨ledger, stamps, others, stamped⟩ :=
    Ledger.rollBack_of_active stillActive later.wallClock
  refine Job.tends_bind.mpr ?_
  refine (Job.tends_transact_ok { later with ledger } () (by rw [stamps]; rfl)).mpr ⟨?_, ?_⟩
  · intro other different
    simp only [Deployment.share, others other different]
  · refine Job.tends_bind.mpr (Job.tends_bind.mpr (Job.tends_time.mpr fun now => ?_))
    refine rolledBack _ _ ?_ ?_
    · rw [Connection.release, Deployment.share_onShard_self]
      exact sent.disconnect _
    · rw [Connection.release, Deployment.share_onShard_self, ← sent.noted.wallClock, ← history]
      exact stamped

/-! ### Faithful outcomes -/

/-- The script that takes a migration in a direction. -/
def script (migration : Migration) : Direction → Statement
  | .forward => .plain migration.up
  | .backward => .plain migration.down

/-- What a result says of a shard is what happened to it, from the share that was found to the one
that is left. A change was made by its script, which succeeded and was the one statement sent, and
is in the history. With any other result no statement succeeded and the history is as it was;
where the ledger already said what to do, nothing was touched at all. -/
def Faithful (migration : Migration) (direction : Direction) (id : ShardId)
    (result : Except Error MigrationOutcome) (found left : Share) : Prop :=
  match result with
  | .ok (.applied duration) =>
      direction = .forward ∧
        MigrationRecord.latestActive? found.history migration.id = none ∧
        found.Sent (migration.script direction) (.ok ()) left ∧
        left.history = found.history ++ [.applied migration found.wallClock duration]
  | .ok (.rolledBack _) =>
      direction = .backward ∧ found.Sent (migration.script direction) (.ok ()) left ∧
        MigrationRecord.Stamped migration.id found.wallClock found.history left.history
  | .ok .alreadyApplied =>
      direction = .forward ∧ left = found ∧
        ∃ record, MigrationRecord.latestActive? found.history migration.id = some record ∧
          record.checksum = migration.checksum
  | .ok .notApplied =>
      direction = .backward ∧ left = found ∧
        MigrationRecord.latestActive? found.history migration.id = none
  | .error error =>
      left.history = found.history ∧
        (found.Noted [] left ∨ ∃ reason,
          found.Sent (migration.script direction) (.error reason) left ∧
            error = migration.failure direction id reason) ∧
        ∀ recorded, error = migration.failure .forward id
          (.checksumMismatch migration.id recorded migration.checksum) → left = found

variable {direction : Direction}

/-- A shard that was not touched may have failed in any way. -/
theorem faithful_refl (error : Error) :
    migration.Faithful direction id (.error error) found found :=
  ⟨rfl, .inl (.refl found), fun _ _ => rfl⟩

/-- A shard that nothing was sent to may have failed in any way but one: a mismatch of checksums
is found out before a connection is asked for. -/
theorem faithful_of_quiet {left : Share} {error : Error} (quiet : found.Quiet left)
    (other : ∀ recorded, error ≠ migration.failure .forward id
      (.checksumMismatch migration.id recorded migration.checksum)) :
    migration.Faithful direction id (.error error) found left :=
  ⟨quiet.history, .inl quiet.noted, fun recorded same => absurd same (other recorded)⟩

theorem message_statement (reason : String) :
    (Error.statement reason).message = "statement error: " ++ reason :=
  rfl

theorem message_checksumMismatch (migration recorded expected : String) :
    (Error.checksumMismatch migration recorded expected).message =
      "checksum mismatch for migration " ++ migration ++ ": recorded " ++ recorded ++
        ", expected " ++ expected :=
  rfl

/-- No statement that fails is taken for a mismatch of checksums. -/
theorem failure_statement_ne (message recorded : String) :
    migration.failure direction id (.statement message) ≠ migration.failure .forward id
      (.checksumMismatch migration.id recorded migration.checksum) := by
  intro same
  cases direction with
  | backward =>
      simp only [failure, Error.standsAlone, Bool.false_eq_true, if_false] at same
      cases same
  | forward =>
      simp only [failure, Error.standsAlone, Bool.false_eq_true, if_false,
        Error.migrationFailed.injEq, true_and, message_statement, message_checksumMismatch] at same
      -- The two texts differ in their first letter.
      have initials := congrArg (fun text : String => text.toList.head?) same
      simp [String.toList_append] at initials

theorem faithful_failed {left : Share} {message : String}
    (sent : found.Sent (migration.script direction) (.error (.statement message)) left)
    (history : left.history = found.history) :
    migration.Faithful direction id
      (.error (migration.failure direction id (.statement message))) found left :=
  ⟨history, .inr ⟨_, sent, rfl⟩, fun recorded same =>
    absurd same (failure_statement_ne message recorded)⟩

/-- What is promised of the shards of a migration. -/
def custody (migration : Migration) (direction : Direction) :
    Custody Deployment Share MigrationOutcome where
  part := Deployment.share
  idle := fun _ found left => found.Quiet left
  ends := migration.Faithful direction
  idle_refl := fun _ => .refl
  calledOff := fun quiet => faithful_of_quiet quiet nofun
  overdue := fun quiet => faithful_of_quiet quiet nofun
  stray := fun _ _ => faithful_refl _

/-- A connection that is refused is reported as it is. -/
theorem faithful_refused {error : Error} (refused : world.network.refusal? id = some error) :
    migration.Faithful direction id (.error (migration.failure direction id error)) found
      found := by
  have reported : migration.failure direction id error = error := by
    rcases Connection.refusal_cases refused with rfl | rfl <;> rfl
  rw [reported]
  exact faithful_refl error

theorem tends_applyTo (migration : Migration) (finds : world.share id = found) :
    Activity.Tends Deployment.share id (fun later => found.Quiet (later.share id))
      (fun result later => migration.Faithful .forward id
        (result.mapError (migration.failure .forward id)) found (later.share id))
      (migration.applyTo .inMemory id) world := by
  refine LedgerStore.tends_consult finds fun opened same => ?_
  cases active : MigrationRecord.latestActive? found.history migration.id with
  | none =>
      refine tends_runForward same ?_ ?_ ?_
      · intro error refused
        rw [same]
        exact faithful_refused refused
      · intro later message sent history
        exact faithful_failed sent history
      · intro later duration sent recorded
        exact ⟨rfl, active, sent, recorded⟩
  | some record =>
      simp only
      split
      · next agrees =>
          refine Job.tends_pure.mpr ?_
          rw [same]
          exact ⟨rfl, rfl, record, active, agrees⟩
      · refine Job.tends_throw.mpr ?_
        rw [same]
        exact faithful_refl _

theorem tends_rollBackOn (migration : Migration) (finds : world.share id = found) :
    Activity.Tends Deployment.share id (fun later => found.Quiet (later.share id))
      (fun result later => migration.Faithful .backward id
        (result.mapError (migration.failure .backward id)) found (later.share id))
      (migration.rollBackOn .inMemory id) world := by
  refine LedgerStore.tends_consult finds fun opened same => ?_
  cases active : MigrationRecord.latestActive? found.history migration.id with
  | none =>
      refine Job.tends_pure.mpr ?_
      rw [same]
      exact ⟨rfl, rfl, active⟩
  | some record =>
      simp only
      split
      · refine Job.tends_throw.mpr ?_
        rw [same]
        exact faithful_refl _
      · refine tends_runBackward same active ?_ ?_ ?_
        · intro error refused
          rw [same]
          exact faithful_refused refused
        · intro later message sent history
          exact faithful_failed sent history
        · intro later duration sent stamped
          exact ⟨rfl, sent, stamped⟩

/-- With the ledger in memory every visit of a shard is faithful. -/
theorem keeps_visit (migration : Migration) (direction : Direction) (id : ShardId) :
    (migration.custody direction).Keeps id (migration.visit direction .inMemory id) := by
  intro world
  refine Job.tends_adapt.mpr ?_
  cases direction with
  | forward => exact tends_applyTo migration rfl
  | backward => exact tends_rollBackOn migration rfl

end Migration

end ShardFleet
