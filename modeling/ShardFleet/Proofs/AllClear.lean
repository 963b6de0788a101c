import ShardFleet.Proofs.Reference.Drift
import ShardFleet.Proofs.Scatter.LeftOut
import ShardFleet.Schema.Survey

/-!
No false all-clear.

The reports on reference tables and on schemas list what differs and what failed; shards that were
called off or never started they do not mention. A report in which nothing differs and nothing
failed still speaks for every shard: a report is only made if the caller has not cancelled, and then
nobody is left out unless something failed. So every shard was read, and was found to be like the
one it is compared with (`all_clear_sound`).
-/

namespace ShardFleet

variable {σ α : Type}

/-! ### Calls on everyone -/

theorem Gathered.failures_eq_nil_of_sort {gathered : Gathered α}
    (sorted : gathered.sort.failures = []) : gathered.failures = [] :=
  List.perm_nil.mp (sorted ▸ gathered.sort_failures_perm.symm)

namespace Executor

variable {executor : Executor} {targets : Targets} {operation : Shard → Operation σ α}
  {moment : Moment σ}

theorem roll_nodup : (executor.scatter targets operation moment).1.roll.Nodup :=
  (executor.scatterWith_roll executor.options targets operation moment).nodup_iff.mpr
    (targets.ids_nodup executor.topology)

/-- If nothing failed and the caller did not cancel, every target brought a value in, and its part
of the world is left as was promised for that value. -/
theorem exists_success_of_untold
    (sincere : ∀ shard, (operation shard).Sincere)
    (calm : (executor.scatter targets operation moment).1.failures = [])
    (unheard : (executor.scatter targets operation moment).1.callerCancelled = false)
    {id : ShardId} (targeted : targets.Covers executor.topology id) :
    ∃ value, (id, value) ∈ (executor.scatter targets operation moment).1.successes ∧
      ∀ {π : Type} {custody : Custody σ π α},
        (∀ shard, custody.Keeps shard.id (executor.invocation operation shard)) →
        custody.Ends moment.world ⟨id, .ok value⟩
          (executor.scatter targets operation moment).2.world := by
  have complete := complete_of_untold (fun shard _ => sincere shard) calm unheard
  have roll := executor.scatterWith_roll executor.options targets operation moment
  obtain ⟨value, brought⟩ := Gathered.exists_success_of_complete complete
    (roll.mem_iff.mpr (Targets.mem_ids.mpr targeted))
  refine ⟨value, brought, fun {_} {custody} keeps => ?_⟩
  have settled : custody.Settled moment.world (executor.scatter targets operation moment).1
      (executor.scatter targets operation moment).2.world :=
    scatterWith_settled keeps
  exact settled.outcomes _ (List.mem_append_left _ (Gathered.mem_successes.mp brought))

end Executor

/-! ### Reference tables -/

namespace Replicator

variable {replicator : Replicator σ} {table : ReferenceTable} {moment ended : Moment σ}
  {report : DriftReport}

/-- Drift is detected by reading every shard. -/
theorem detectDrift_reads (replicator : Replicator σ) (table : ReferenceTable)
    (moment : Moment σ) :
    let read := replicator.executor.scatter .all
      (fun shard => .ofJob (replicator.store.contentHash shard.id table)) moment
    replicator.detectDrift table moment =
      (DriftReport.ofGathered table.name replicator.source read.1.sort, read.2) :=
  Timed.bind_apply _ _ moment

/-- A consistent report on a table has a digest of every shard, which is that of the source and was
read there. -/
theorem alike_of_consistent (sincere : ∀ id, (replicator.store.contentHash id table).Sincere)
    (made : replicator.detectDrift table moment = (.ok report, ended))
    (consistent : report.isConsistent = true) {id : ShardId}
    (known : id ∈ replicator.executor.topology.ids) :
    report.hashes.get? id = some report.expected ∧
      ∀ {π : Type} {custody : Custody σ π String},
        (∀ shard, custody.Keeps shard (replicator.store.contentHash shard table)) →
        custody.Ends moment.world ⟨id, .ok report.expected⟩ ended.world := by
  rw [replicator.detectDrift_reads] at made
  obtain ⟨reported, rfl⟩ := Prod.mk.inj made
  obtain ⟨unheard, expected, -, whole⟩ := DriftReport.ofGathered_eq_ok_iff.mp reported
  rw [Gathered.sort_callerCancelled] at unheard
  obtain ⟨noDrift, noFailure⟩ := Bool.and_eq_true_iff.mp consistent
  have calm := Gathered.failures_eq_nil_of_sort (by simpa [whole] using noFailure)
  have targeted : Targets.Covers .all replicator.executor.topology id := known
  obtain ⟨hash, brought, kept⟩ := Executor.exists_success_of_untold
    (fun shard => Operation.sincere_ofJob (sincere shard.id)) calm unheard targeted
  have digest : report.hashes.get? id = some hash := by
    rw [whole]
    exact (Gathered.get?_ofList_sort Executor.roll_nodup).mpr brought
  have same : hash = report.expected := by
    by_contra different
    have drifted := DriftReport.mem_drifted.mpr ⟨hash, digest, different⟩
    rw [List.isEmpty_iff.mp noDrift] at drifted
    cases drifted
  rw [← same]
  exact ⟨digest, fun keeps => kept fun shard => (keeps shard.id).within _ _⟩

end Replicator

/-! ### Schemas -/

/-- What is promised of reading a schema, as a promise about comparing it: what is compared was
read. -/
def Custody.comparing {π : Type} (custody : Custody σ π ShardSchema) (expected : ShardSchema) :
    Custody σ π SchemaDiff where
  part := custody.part
  idle := custody.idle
  ends := fun id result found left => ∀ diff, result = .ok diff →
    ∃ actual, diff = .between actual expected ∧ custody.ends id (.ok actual) found left
  idle_refl := custody.idle_refl
  calledOff := fun _ => nofun
  overdue := fun _ => nofun
  stray := fun _ _ => nofun

namespace Surveyor

variable {surveyor : Surveyor σ} {baseline : ShardId} {moment ended : Moment σ}
  {report : SurveyReport}

theorem comparisonFailed_ne_cancelled {shard : ShardId} {error : Error}
    (other : error ≠ .cancelled) : comparisonFailed shard error ≠ .cancelled := by
  cases error <;> simp_all [comparisonFailed]

theorem sincere_compareWith (sincere : ∀ id, (surveyor.introspect id).Sincere)
    (expected : ShardSchema) (shard : Shard) :
    (surveyor.compareWith expected shard).Sincere :=
  Operation.sincere_ofJob (((sincere shard.id).adapt fun _ => comparisonFailed_ne_cancelled).bind
    fun _ => Job.sincere_pure _)

/-- Comparing a schema keeps what reading it keeps. -/
theorem keeps_compareWith {π : Type} {custody : Custody σ π ShardSchema}
    (keeps : ∀ id, custody.Keeps id (surveyor.introspect id)) (expected : ShardSchema)
    (shard : Shard) :
    (custody.comparing expected).Keeps shard.id
      (surveyor.executor.invocation (surveyor.compareWith expected) shard) := by
  refine Custody.Keeps.within (fun world => ?_) _ _
  refine Job.tends_bind.mpr (Job.tends_adapt.mpr ((keeps shard.id world).mono ?_))
  intro result later ends
  cases result with
  | ok actual =>
      intro diff same
      exact ⟨actual, (Except.ok.inj same).symm, ends⟩
  | error error => exact nofun

/-- A survey fails with the baseline. -/
theorem compareAll_of_unread {error : Error}
    (unread : (surveyor.snapshot baseline moment.cancellation.hasFired).perform moment =
      (.error error, ended)) :
    surveyor.compareAll baseline moment = (.error error, ended) := by
  have first : (surveyor.snapshot baseline (Timed.cancelled moment).1).perform
      (Timed.cancelled moment).2 = (.error error, ended) := unread
  unfold compareAll
  rw [Timed.bind_apply, Timed.bind_apply, first]
  rfl

/-- Otherwise it compares the others with the schema of the baseline. -/
theorem compareAll_of_read {expected : ShardSchema} {begun : Moment σ}
    (read : (surveyor.snapshot baseline moment.cancellation.hasFired).perform moment =
      (.ok expected, begun)) :
    surveyor.compareAll baseline moment =
      let compared := surveyor.executor.scatter
        (.some (surveyor.executor.topology.ids.filter (· ≠ baseline)))
        (surveyor.compareWith expected) begun
      (SurveyReport.ofGathered baseline compared.1.sort, compared.2) := by
  have first : (surveyor.snapshot baseline (Timed.cancelled moment).1).perform
      (Timed.cancelled moment).2 = (.ok expected, begun) := read
  unfold compareAll
  rw [Timed.bind_apply, Timed.bind_apply, first]
  rfl

/-- A report on schemas is made of what was read of the baseline first and then of the others. -/
theorem compareAll_eq_ok (made : surveyor.compareAll baseline moment = (.ok report, ended)) :
    ∃ expected begun, (surveyor.snapshot baseline moment.cancellation.hasFired).perform moment =
        (.ok expected, begun) ∧
      let compared := surveyor.executor.scatter
        (.some (surveyor.executor.topology.ids.filter (· ≠ baseline)))
        (surveyor.compareWith expected) begun
      SurveyReport.ofGathered baseline compared.1.sort = .ok report ∧ compared.2 = ended := by
  cases read : (surveyor.snapshot baseline moment.cancellation.hasFired).perform moment with
  | mk result begun =>
      cases result with
      | error error =>
          rw [compareAll_of_unread read] at made
          cases made
      | ok expected =>
          rw [compareAll_of_read read] at made
          exact ⟨expected, begun, rfl, Prod.mk.inj made⟩

/-- A consistent report on schemas was made with the schema of the baseline, and every other shard
was read and does not differ from it. -/
theorem alike_of_consistent (sincere : ∀ id, (surveyor.introspect id).Sincere)
    (made : surveyor.compareAll baseline moment = (.ok report, ended))
    (consistent : report.isConsistent = true) :
    ∃ expected begun, (surveyor.snapshot baseline moment.cancellation.hasFired).perform moment =
        (.ok expected, begun) ∧
      ∀ id ∈ surveyor.executor.topology.ids, id ≠ baseline → ∃ diff : SchemaDiff,
        diff.isEmpty = true ∧
        ∀ {π : Type} {custody : Custody σ π ShardSchema},
          (∀ shard, custody.Keeps shard (surveyor.introspect shard)) →
          ∃ actual, diff = .between actual expected ∧
            custody.Ends begun.world ⟨id, .ok actual⟩ ended.world := by
  obtain ⟨expected, begun, read, reported, rfl⟩ := compareAll_eq_ok made
  refine ⟨expected, begun, read, fun id known other => ?_⟩
  rw [SurveyReport.ofGathered, Gathered.sort_callerCancelled] at reported
  split at reported
  · cases reported
  · next unheard =>
      obtain rfl := Except.ok.inj reported
      obtain ⟨noDrift, noFailure⟩ := Bool.and_eq_true_iff.mp consistent
      have calm := Gathered.failures_eq_nil_of_sort
        (List.map_eq_nil_iff.mp (List.isEmpty_iff.mp noFailure))
      have alike := List.filter_eq_nil_iff.mp (List.isEmpty_iff.mp noDrift)
      have targeted : Targets.Covers (.some (surveyor.executor.topology.ids.filter (· ≠ baseline)))
          surveyor.executor.topology id :=
        List.mem_filter.mpr ⟨known, by simpa using other⟩
      obtain ⟨diff, brought, kept⟩ := Executor.exists_success_of_untold
        (sincere_compareWith sincere expected) calm (by simpa using unheard) targeted
      refine ⟨diff, ?_, fun keeps => kept (keeps_compareWith keeps expected) diff rfl⟩
      have among := List.mem_map_of_mem (f := Prod.snd)
        ((Gathered.sort_successes_perm _).mem_iff.mpr brought)
      simpa using alike diff among

end Surveyor

/-! ### Both reports -/

/-- Reports that give the all-clear, under any options, whatever fails, is late or is cancelled
meanwhile, if no reading claims on its own to have been called off. A consistent report on a
reference table has an entry for every shard of the topology, which is the digest of the source.
A consistent report on schemas was made with a schema read of the baseline, and the differences of
every other shard from it are none. The digest, or the schema that was compared, was read on the
shard: whatever its reading promises of the part of the shard when it ends with this value holds
of the part that the call found and the part that it left. -/
theorem all_clear_sound (moment : Moment σ) :
    (∀ (replicator : Replicator σ) (table : ReferenceTable) (report : DriftReport)
        (ended : Moment σ),
      (∀ id, (replicator.store.contentHash id table).Sincere) →
      replicator.detectDrift table moment = (.ok report, ended) → report.isConsistent = true →
      ∀ id ∈ replicator.executor.topology.ids,
        report.hashes.get? id = some report.expected ∧
        ∀ {π : Type} {custody : Custody σ π String},
          (∀ shard, custody.Keeps shard (replicator.store.contentHash shard table)) →
          custody.Ends moment.world ⟨id, .ok report.expected⟩ ended.world) ∧
    (∀ (surveyor : Surveyor σ) (baseline : ShardId) (report : SurveyReport) (ended : Moment σ),
      (∀ id, (surveyor.introspect id).Sincere) →
      surveyor.compareAll baseline moment = (.ok report, ended) → report.isConsistent = true →
      ∃ expected begun,
        (surveyor.snapshot baseline moment.cancellation.hasFired).perform moment =
          (.ok expected, begun) ∧
        ∀ id ∈ surveyor.executor.topology.ids, id ≠ baseline → ∃ diff : SchemaDiff,
          diff.isEmpty = true ∧
          ∀ {π : Type} {custody : Custody σ π ShardSchema},
            (∀ shard, custody.Keeps shard (surveyor.introspect shard)) →
            ∃ actual, diff = .between actual expected ∧
              custody.Ends begun.world ⟨id, .ok actual⟩ ended.world) := by
  constructor
  · intro replicator table report ended sincere made consistent id known
    exact Replicator.alike_of_consistent sincere made consistent known
  · intro surveyor baseline report ended sincere made consistent
    exact Surveyor.alike_of_consistent sincere made consistent

/-- Two shards that hold no rows of a table in memory, and have the same schema. -/
theorem all_clear_sound_pair :
    let table := ReferenceTable.new "countries" ["code"] ["name"]
    let tables := [(⟨"countries", [⟨"code", "TEXT", false, none⟩]⟩ : TableSchema)]
    let moment : Moment Deployment :=
      { now := 0
        world := {
          network := .ofTopology .pair
          schemas := .ofList [(Shard.first.id, tables), (Shard.second.id, tables)]
          wallClock := 0 } }
    let replicator : Replicator Deployment :=
      ⟨⟨.pair, {}⟩, .inMemory, Shard.first.id, by decide⟩
    let surveyor : Surveyor Deployment := ⟨⟨.pair, {}⟩, .inMemory⟩
    (∃ drift, (replicator.detectDrift table moment).1 = .ok drift ∧
      drift.hashes.get? Shard.second.id = some drift.expected) ∧
    ∃ survey expected actual, (surveyor.compareAll Shard.first.id moment).1 = .ok survey ∧
      moment.world.schemaOf Shard.second.id = .ok actual ∧
      (SchemaDiff.between actual expected).isEmpty = true := by
  intro table tables moment replicator surveyor
  obtain ⟨alike, likewise⟩ := all_clear_sound moment
  constructor
  · have waits : ∃ drift, (replicator.detectDrift table moment).1 = .ok drift ∧
        drift.failures = [] ∧ _ := Replicator.exists_drift rfl
    obtain ⟨drift, made, quiet, -⟩ := waits
    obtain ⟨seen, source⟩ := Replicator.hash_of_drift made
    have same : drift.drifted = [] := by
      refine List.eq_nil_iff_forall_not_mem.mpr fun id drifted => ?_
      obtain ⟨hash, there, different⟩ := DriftReport.mem_drifted.mp drifted
      rw [(seen id hash there).2, source] at different
      exact different rfl
    have sincere : ∀ id, (replicator.store.contentHash id table).Sincere := fun id =>
      (Job.sincere_read _).bind fun _ => Job.sincere_pure _
    have consistent : drift.isConsistent = true := by simp [DriftReport.isConsistent, same, quiet]
    have whole : replicator.detectDrift table moment =
        (.ok drift, (replicator.detectDrift table moment).2) := Prod.ext made rfl
    obtain ⟨entry, -⟩ := alike replicator table drift _ sincere whole consistent
      Shard.second.id (by decide)
    exact ⟨drift, made, entry⟩
  · have consistent : (surveyor.compareAll Shard.first.id moment).1.toOption.map
        SurveyReport.isConsistent = some true := by decide +kernel
    cases made : surveyor.compareAll Shard.first.id moment with
    | mk result ended =>
        cases result with
        | error error =>
            rw [made] at consistent
            cases consistent
        | ok survey =>
            rw [made] at consistent
            have sincere : ∀ id, (surveyor.introspect id).Sincere := by
              refine fun id => Job.sincere_look fun world => ?_
              unfold Deployment.schemaOf
              split <;> simp
            obtain ⟨expected, begun, read, others⟩ := likewise surveyor Shard.first.id survey ended
              sincere made (Option.some.inj consistent)
            obtain ⟨diff, none, kept⟩ := others Shard.second.id (by decide) (by decide)
            have looks : ∀ id, (Custody.looking fun id world => world.schemaOf id).Keeps id
                (surveyor.introspect id) :=
              fun id world => Job.tends_look.mpr ⟨rfl, fun _ seen => seen⟩
            obtain ⟨actual, rfl, -, seen⟩ := kept looks
            have still : begun = moment := (congrArg Prod.snd read).symm
            rw [still] at seen
            exact ⟨survey, expected, actual, rfl, seen actual rfl, none⟩

end ShardFleet
