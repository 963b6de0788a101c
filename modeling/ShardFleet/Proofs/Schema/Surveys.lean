import ShardFleet.Proofs.Reference.Unread
import ShardFleet.Proofs.Scatter.Assured
import ShardFleet.Proofs.Schema.Readings

/-!
Surveys agree with comparisons.

A comparison reads two shards side by side. A survey reads the baseline once and then, under the
options of its executor, every other shard. So long as readings meet what they met, each brings
what is known of its shard (`Surveyor.snapshot_assures`), and so both come to the differences of
what is known of the shard and of the baseline (`Surveyor.compare_fulfils`,
`Surveyor.scatter_answers`). A survey that tolerates failures has every other shard in one of its
lists, the one where a comparison would put it, or fails where every comparison fails
(`Surveyor.compareAll_agrees`).
-/

namespace ShardFleet

variable {σ ν α β : Type} {view : σ → ν} {met : ν}

/-! ### Answers that are known -/

/-- Every shard has one answer, and it is what is known of the shard. -/
structure Gathered.Answers (gathered : Gathered α) (ids : List ShardId)
    (known : ShardId → Option α) : Prop where
  each : (gathered.answers.map Answer.shard).Perm ids
  fulfils : ∀ answer ∈ gathered.answers, Fulfils (known answer.shard) answer.result
  unheard : gathered.callerCancelled = false

namespace Gathered

variable {gathered : Gathered α} {ids : List ShardId} {known : ShardId → Option α} {id : ShardId}

theorem Answers.sort (answers : gathered.Answers ids known) : gathered.sort.Answers ids known :=
  ⟨(gathered.sort_answers_perm.map _).trans answers.each,
    fun answer mem => answers.fulfils answer (gathered.sort_answers_perm.mem_iff.mp mem),
    answers.unheard⟩

theorem Answers.ascending (answers : gathered.Answers ids known) (distinct : ids.Nodup) :
    (gathered.sort.answers.map Answer.shard).Pairwise fun a b => compare a b = .lt :=
  pairwise_lt_of_nodup (List.pairwise_map.mpr (pairwise_sortBy Answer.shard gathered.answers))
    (answers.sort.each.nodup_iff.mpr distinct)

theorem Answers.perm {others : List ShardId} (answers : gathered.Answers ids known)
    (perm : ids.Perm others) : gathered.Answers others known :=
  { answers with each := answers.each.trans perm }

theorem Answers.exists_answer (answers : gathered.Answers ids known) (listed : id ∈ ids) :
    ∃ result, ⟨id, result⟩ ∈ gathered.answers ∧ Fulfils (known id) result := by
  obtain ⟨⟨shard, result⟩, mem, rfl⟩ := List.mem_map.mp (answers.each.mem_iff.mpr listed)
  exact ⟨result, mem, answers.fulfils _ mem⟩

theorem Answers.success_iff (answers : gathered.Answers ids known) (listed : id ∈ ids) {value : α} :
    (id, value) ∈ gathered.successes ↔ known id = some value := by
  rw [mem_successes]
  constructor
  · intro mem
    exact (answers.fulfils _ mem).eq_ok_iff.mp rfl
  · intro comes
    obtain ⟨result, mem, fulfils⟩ := answers.exists_answer listed
    exact fulfils.eq_ok_iff.mpr comes ▸ mem

theorem Answers.failure_iff (answers : gathered.Answers ids known) (listed : id ∈ ids) :
    (∃ error, (id, error) ∈ gathered.failures) ↔ known id = none := by
  simp only [mem_failures]
  constructor
  · rintro ⟨error, mem⟩
    exact (answers.fulfils _ mem).exists_error_iff.mp ⟨error, rfl⟩
  · intro comes
    obtain ⟨result, mem, fulfils⟩ := answers.exists_answer listed
    obtain ⟨error, rfl⟩ := fulfils.exists_error_iff.mpr comes
    exact ⟨error, mem⟩

/-- Whoever answered succeeded or failed. -/
theorem successes_append_failures_perm (gathered : Gathered α) :
    (gathered.successes.map Prod.fst ++ gathered.failures.map Prod.fst).Perm
      (gathered.answers.map Answer.shard) := by
  unfold successes failures
  induction gathered.answers with
  | nil => exact .refl _
  | cons answer rest ih =>
      obtain ⟨shard, result⟩ := answer
      cases result with
      | ok value => exact ih.cons shard
      | error error => exact List.perm_middle.trans (ih.cons shard)

theorem failures_sublist_answers (gathered : Gathered α) :
    (gathered.failures.map Prod.fst).Sublist (gathered.answers.map Answer.shard) := by
  refine map_filterMap_sublist ?_ gathered.answers
  rintro ⟨shard, error | _⟩ entry failed <;> cases failed
  rfl

end Gathered

/-- In a call that tolerates failures and whose caller waits, with known shards as targets, every
target comes to what is known of it, so long as each leaves what is shown as it is. -/
theorem Executor.scatterWith_answers {executor : Executor} {options : ScatterOptions}
    {targets : Targets} {operation : Shard → Operation σ α} {moment : Moment σ}
    (tolerant : options.tolerance = .bestEffort) (patient : moment.cancellation = .never)
    (present : targets.strays executor.topology = []) {known : ShardId → Option α}
    (assured : ∀ shard ∈ targets.known executor.topology,
      (Call.invocation ⟨operation, options⟩ shard).Assures (shown view) shard.id
        (view moment.world) (Fulfils (known shard.id))) :
    (executor.scatterWith options targets operation moment).1.Answers
      (targets.ids executor.topology) known := by
  let gathered := (executor.scatterWith options targets operation moment).1
  let results (id : ShardId) : Except Error α → Prop := Fulfils (known id)
  obtain ⟨outcomes, skipped⟩ : (∀ answer ∈ gathered.outcomes, results answer.shard answer.result) ∧
      gathered.skipped = [] := scatterWith_assured tolerant patient present assured
  have kept : gathered.cancelled = [] := by
    refine List.eq_nil_iff_forall_not_mem.mpr fun id listed => ?_
    exact (outcomes ⟨id, .error .cancelled⟩
      (List.mem_append_right _ (List.mem_map_of_mem listed))).sincere rfl
  have each : gathered.roll.Perm _ := executor.scatterWith_roll options targets operation moment
  rw [Gathered.roll, kept, skipped, List.append_nil, List.append_nil] at each
  refine ⟨each, fun answer mem => outcomes answer (List.mem_append_left _ mem), ?_⟩
  obtain ⟨last, ends, whole⟩ := executor.scatterWith_ends options targets operation moment
  rw [whole]
  exact (ends.1.awaited (executor.start_awaited options targets operation patient)).unheard

/-! ### Reports -/

/-- Every one of the shards is in one of the lists of the report, each of which is in the order of
the shards: with its differences if the comparison brings some, as consistent if it brings none,
and as a failure if it fails. -/
structure SurveyReport.Agrees (report : SurveyReport) (others : List ShardId)
    (compared : ShardId → Except Error SchemaDiff) : Prop where
  once : (report.drifted.map SchemaDiff.shard ++ report.consistent ++
    report.failures.map ShardFailure.shard).Perm others
  drifted : ∀ id ∈ others, ∀ diff, diff ∈ report.drifted ∧ diff.shard = id ↔
    compared id = .ok diff ∧ diff.isEmpty = false
  consistent : ∀ id ∈ others, id ∈ report.consistent ↔
    ∃ diff, compared id = .ok diff ∧ diff.isEmpty = true
  failures : ∀ id ∈ others, id ∈ report.failures.map ShardFailure.shard ↔
    ∃ error, compared id = .error error
  ascending : ∀ list ∈ [report.drifted.map SchemaDiff.shard, report.consistent,
    report.failures.map ShardFailure.shard], list.Pairwise fun a b => compare a b = .lt

namespace SurveyReport

variable {gathered : Gathered SchemaDiff} {others : List ShardId}
  {known : ShardId → Option SchemaDiff}

/-- Differences carry the name of their shard. -/
theorem map_values_shard (answers : gathered.Answers others known)
    (named : ∀ id diff, known id = some diff → diff.shard = id) :
    gathered.values.map SchemaDiff.shard = gathered.successes.map Prod.fst := by
  rw [Gathered.values, List.map_map]
  refine List.map_congr_left fun entry mem => ?_
  have fulfils := answers.fulfils _ (Gathered.mem_successes.mp mem)
  exact named _ _ (fulfils.eq_ok_iff.mp rfl)

theorem mem_values_iff (answers : gathered.Answers others known)
    (named : ∀ id diff, known id = some diff → diff.shard = id) {id : ShardId}
    (listed : id ∈ others) {diff : SchemaDiff} :
    diff ∈ gathered.values ∧ diff.shard = id ↔ known id = some diff := by
  rw [← answers.success_iff listed]
  constructor
  · rintro ⟨mem, rfl⟩
    obtain ⟨⟨shard, diff⟩, brought, rfl⟩ := List.mem_map.mp mem
    have fulfils := answers.fulfils _ (Gathered.mem_successes.mp brought)
    rwa [named shard diff (fulfils.eq_ok_iff.mp rfl)]
  · intro brought
    have fulfils := answers.fulfils _ (Gathered.mem_successes.mp brought)
    exact ⟨List.mem_map_of_mem brought, named id diff (fulfils.eq_ok_iff.mp rfl)⟩

/-- A report on answers that are known agrees with all comparisons that come to what is known. -/
theorem exists_agrees (answers : gathered.Answers others known) (distinct : others.Nodup)
    (named : ∀ id diff, known id = some diff → diff.shard = id) (baseline : ShardId) :
    ∃ report, ofGathered baseline gathered.sort = .ok report ∧
      ∀ compared, (∀ id ∈ others, Fulfils (known id) (compared id)) →
        report.Agrees others compared := by
  have sorted := answers.sort
  refine ⟨_, if_neg (by simp [sorted.unheard]), fun compared fulfils => ?_⟩
  have failures : (gathered.sort.failures.map fun entry => (⟨entry.1, entry.2⟩ : ShardFailure)).map
      ShardFailure.shard = gathered.sort.failures.map Prod.fst := List.map_map
  constructor
  · have split := (List.filter_append_perm (·.isEmpty) gathered.sort.values).map SchemaDiff.shard
    rw [List.map_append, map_values_shard sorted named] at split
    refine List.Perm.trans ?_ (gathered.sort.successes_append_failures_perm.trans sorted.each)
    rw [failures]
    exact (List.perm_append_comm.trans split).append_right _
  · intro id listed diff
    rw [(fulfils id listed).eq_ok_iff, ← mem_values_iff sorted named listed]
    simp only [List.mem_filter, Bool.not_eq_true']
    tauto
  · intro id listed
    simp only [(fulfils id listed).eq_ok_iff, ← mem_values_iff sorted named listed, List.mem_map,
      List.mem_filter]
    exact exists_congr fun diff => by tauto
  · intro id listed
    rw [(fulfils id listed).exists_error_iff, ← sorted.failure_iff listed, failures]
    simp
  · have ascending := answers.ascending distinct
    have values : (gathered.sort.values.map SchemaDiff.shard).Pairwise fun a b =>
        compare a b = .lt := by
      rw [map_values_shard sorted named]
      exact ascending.sublist gathered.sort.successes_sublist_answers
    refine List.forall_mem_cons.mpr ⟨?_, List.forall_mem_cons.mpr ⟨?_, ?_⟩⟩
    · exact values.sublist (List.filter_sublist.map _)
    · exact values.sublist (List.filter_sublist.map _)
    · refine List.forall_mem_singleton.mpr (failures ▸ ?_)
      exact ascending.sublist gathered.sort.failures_sublist_answers

end SurveyReport

/-! ### Readings under a time limit -/

namespace Surveyor

variable {surveyor : Surveyor σ} {reading : ShardId → Option ShardSchema} {moment : Moment σ}
  {id baseline owner : ShardId} {expected : ShardSchema}

/-- Readings are steady within the time limit of the surveyor. -/
abbrev Steady (surveyor : Surveyor σ) (view : σ → ν) (met : ν)
    (reading : ShardId → Option ShardSchema) : Prop :=
  surveyor.introspect.Steady view met surveyor.executor.options.limit.ticks reading

/-- What is read of a shard, which has to be in the topology. -/
def known (surveyor : Surveyor σ) (reading : ShardId → Option ShardSchema) (id : ShardId) :
    Option ShardSchema :=
  if surveyor.executor.topology.contains id then reading id else none

/-- A snapshot is what is read of the shard. -/
theorem snapshot_assures (steady : surveyor.Steady view met reading) (id : ShardId) :
    (surveyor.snapshot id false).Assures (shown view) owner met
      (Fulfils (surveyor.known reading id)) := by
  intro world same
  refine Job.tends_adapt.mpr (Activity.Tends.mono ?_ fun result _ fulfils =>
    Fulfils.mapError fulfils fun _ => comparisonFailed_ne_cancelled)
  unfold Executor.attempt Topology.get known Topology.contains
  cases found : surveyor.executor.topology.find? id with
  | none => exact Fulfils.error nofun
  | some shard =>
      obtain ⟨-, rfl⟩ := Topology.find?_eq_some_iff.mp found
      refine Operation.assures_within (fun world same => ?_) world same
      change Activity.Spends _ _ (Fulfils (reading shard.id) _) _ _ _ _
      refine (steady.reads shard.id owner world same).mono ?_ fun _ _ _ comes => comes
      intro late
      rw [late]
      exact .error nofun

theorem known_shard (steady : surveyor.Steady view met reading) {schema : ShardSchema}
    (read : surveyor.known reading id = some schema) : schema.shard = id := by
  unfold known at read
  split at read
  · exact steady.named id schema read
  · cases read

/-- The differences between what is read of two shards. -/
def difference (surveyor : Surveyor σ) (reading : ShardId → Option ShardSchema)
    (id baseline : ShardId) : Option SchemaDiff := do
  let actual ← surveyor.known reading id
  let expected ← surveyor.known reading baseline
  return .between actual expected

/-- A comparison comes to the differences of what is read. -/
theorem compare_fulfils (steady : surveyor.Steady view (view moment.world) reading)
    (patient : moment.cancellation = .never) (id baseline : ShardId) :
    Fulfils (surveyor.difference reading id baseline) (surveyor.compare id baseline moment).1 := by
  have both : (Job.both (surveyor.snapshot id false) (surveyor.snapshot baseline false)).Assures
      (shown view) id (view moment.world) _ :=
    Job.both_assures (snapshot_assures steady id) (snapshot_assures steady baseline)
  have comes := ((both.map fun read => SchemaDiff.between read.1 read.2).perform patient).1
  unfold compare
  rw [Timed.bind_apply, Timed.cancelled, Cancellation.unfired patient]
  refine ⟨comes.value.trans ?_, comes.sincere⟩
  unfold difference
  cases surveyor.known reading id <;> cases surveyor.known reading baseline <;> rfl

theorem difference_shard (steady : surveyor.Steady view met reading) {diff : SchemaDiff}
    (differs : surveyor.difference reading id baseline = some diff) : diff.shard = id := by
  obtain ⟨actual, read, expected, -, rfl⟩ : ∃ actual, surveyor.known reading id = some actual ∧
      ∃ expected, surveyor.known reading baseline = some expected ∧
        .between actual expected = diff := by
    simpa [difference, Option.bind_eq_some_iff] using differs
  exact known_shard steady read

/-- Without a schema of the baseline there are no differences. -/
theorem difference_of_unread (unread : surveyor.known reading baseline = none) (id : ShardId) :
    surveyor.difference reading id baseline = none := by
  unfold difference
  rw [unread]
  cases surveyor.known reading id <;> rfl

/-- Compared with the schema of the baseline, a shard of the topology differs from it as a
comparison says. -/
theorem compareWith_assures (steady : surveyor.Steady view met reading)
    (read : surveyor.known reading baseline = some expected) {shard : Shard}
    (mem : shard ∈ surveyor.executor.topology.shards) :
    (surveyor.executor.invocation (surveyor.compareWith expected) shard).Assures (shown view)
      shard.id met (Fulfils (surveyor.difference reading shard.id baseline)) := by
  have known : surveyor.difference reading shard.id baseline =
      (reading shard.id).map fun actual => .between actual expected := by
    have contained := Topology.contains_iff.mpr (Topology.mem_ids.mpr ⟨shard, mem, rfl⟩)
    unfold difference
    rw [read, Surveyor.known, if_pos contained]
    cases reading shard.id <;> rfl
  rw [known]
  refine Operation.assures_within fun world same => ?_
  refine Job.spends_bind.mpr (Job.spends_adapt.mpr ?_)
  refine (steady.reads shard.id shard.id world same).mono ?_ ?_
  · intro late
    rw [late]
    exact .error nofun
  · intro result left later fulfils
    have kept : Fulfils (reading shard.id) (result.mapError (comparisonFailed shard.id)) :=
      fulfils.mapError fun _ => comparisonFailed_ne_cancelled
    cases result with
    | ok actual => exact kept.map
    | error error => exact kept.map

/-! ### Surveys -/

/-- The others are read as they are in comparisons. -/
theorem scatter_answers (steady : surveyor.Steady view (view moment.world) reading)
    (tolerant : surveyor.executor.options.tolerance = .bestEffort)
    (patient : moment.cancellation = .never)
    (read : surveyor.known reading baseline = some expected) :
    (surveyor.executor.scatter (.some (surveyor.executor.topology.ids.filter (· ≠ baseline)))
      (surveyor.compareWith expected) moment).1.Answers
        (surveyor.executor.topology.ids.filter (· ≠ baseline))
        (fun id => surveyor.difference reading id baseline) := by
  let others : List ShardId := surveyor.executor.topology.ids.filter (· ≠ baseline)
  let targets : Targets := .some others
  have present : targets.strays surveyor.executor.topology = [] :=
    Targets.strays_eq_nil fun _ covered => (List.mem_filter.mp covered).1
  have assured : ∀ shard ∈ targets.known surveyor.executor.topology,
      (surveyor.executor.invocation (surveyor.compareWith expected) shard).Assures (shown view)
        shard.id (view moment.world) (Fulfils (surveyor.difference reading shard.id baseline)) := by
    intro shard mem
    obtain ⟨id, -, found⟩ := List.mem_filterMap.mp mem
    exact compareWith_assures steady read (Topology.find?_eq_some_iff.mp found).1
  have each : (targets.ids surveyor.executor.topology).Perm others := by
    have distinct := surveyor.executor.topology.distinct.filter (· ≠ baseline)
    exact (List.perm_ext_iff_of_nodup (Targets.ids_nodup _ _) distinct).mpr fun _ => Targets.mem_ids
  exact (Executor.scatterWith_answers tolerant patient present assured).perm each

/-- A survey that tolerates failures has a report that agrees with comparisons, or fails because
the baseline cannot be read. -/
theorem compareAll_of_steady (steady : surveyor.Steady view (view moment.world) reading)
    (tolerant : surveyor.executor.options.tolerance = .bestEffort)
    (patient : moment.cancellation = .never) (baseline : ShardId) :
    (∀ expected, surveyor.known reading baseline = some expected →
      ∃ report, (surveyor.compareAll baseline moment).1 = .ok report ∧
        ∀ compared, (∀ id, Fulfils (surveyor.difference reading id baseline) (compared id)) →
          report.Agrees (surveyor.executor.topology.ids.filter (· ≠ baseline)) compared) ∧
      (surveyor.known reading baseline = none →
        ∃ error, (surveyor.compareAll baseline moment).1 = .error error) := by
  have unfired := Cancellation.unfired patient
  have snapshot : (surveyor.snapshot baseline false).Assures (shown view) baseline
      (shown view baseline moment.world) _ := snapshot_assures steady baseline
  obtain ⟨fulfils, untouched, waits⟩ := snapshot.perform patient
  cases first : (surveyor.snapshot baseline false).perform moment with
  | mk result begun =>
      rw [first] at fulfils untouched waits
      constructor
      · intro expected read
        obtain rfl := fulfils.eq_ok_iff.mpr read
        rw [compareAll_of_read (unfired ▸ first)]
        have same : view begun.world = view moment.world := touchesOnly_shown_iff.mp untouched
        have answers := scatter_answers (same ▸ steady) tolerant waits read
        have distinct := surveyor.executor.topology.distinct.filter (· ≠ baseline)
        obtain ⟨report, reported, agrees⟩ := SurveyReport.exists_agrees answers distinct
          (fun _ _ => difference_shard steady) baseline
        exact ⟨report, reported, fun compared comes => agrees compared fun id _ => comes id⟩
      · intro unread
        obtain ⟨error, rfl⟩ := fulfils.exists_error_iff.mpr unread
        rw [compareAll_of_unread (unfired ▸ first)]
        exact ⟨error, rfl⟩

/-- Surveys that tolerate failures, of schemas in memory or in the catalogs of the shards, whatever
these are, however long the shards take and whichever of them fail. If the baseline can be read
there is a report in which every other shard is in the one list where comparing it with the
baseline would put it, whenever this is done, so long as readings meet what they met. If the
baseline cannot be read, the survey fails, and so does every comparison. -/
theorem compareAll_agrees (surveyor : Surveyor Deployment)
    (provided : surveyor.introspect.Provided)
    (tolerant : surveyor.executor.options.tolerance = .bestEffort) (baseline : ShardId)
    (moment : Moment Deployment) (patient : moment.cancellation = .never) :
    let survey := (surveyor.compareAll baseline moment).1
    let read := ((surveyor.snapshot baseline false).perform moment).1
    let compared (later : Moment Deployment) (id : ShardId) :=
      (surveyor.compare id baseline later).1
    let alike (later : Moment Deployment) : Prop :=
      later.cancellation = .never ∧ later.world.outlook = moment.world.outlook
    ((∃ expected, read = .ok expected) → ∃ report, survey = .ok report ∧
      ∀ later, alike later →
        report.Agrees (surveyor.executor.topology.ids.filter (· ≠ baseline)) (compared later)) ∧
    ((∃ error, read = .error error) → (∃ error, survey = .error error) ∧
      ∀ later, alike later → ∀ id, ∃ error, compared later id = .error error) := by
  intro survey read compared alike
  obtain ⟨reading, steady⟩ :=
    provided.steady moment.world.outlook surveyor.executor.options.limit.ticks
  have snapshot : (surveyor.snapshot baseline false).Assures (shown Deployment.outlook) baseline
      (shown Deployment.outlook baseline moment.world) _ := snapshot_assures steady baseline
  have fulfils : Fulfils (surveyor.known reading baseline) read := (snapshot.perform patient).1
  obtain ⟨reports, fails⟩ := compareAll_of_steady steady tolerant patient baseline
  have comes (later : Moment Deployment) (same : alike later) (id : ShardId) :
      Fulfils (surveyor.difference reading id baseline) (compared later id) :=
    compare_fulfils (same.2 ▸ steady) same.1 id baseline
  constructor
  · rintro ⟨expected, readable⟩
    obtain ⟨report, reported, agrees⟩ := reports expected (fulfils.eq_ok_iff.mp readable)
    exact ⟨report, reported, fun later same => agrees _ (comes later same)⟩
  · intro unreadable
    have unread := fulfils.exists_error_iff.mp unreadable
    refine ⟨fails unread, fun later same id => ?_⟩
    exact (comes later same id).exists_error_iff.mpr (difference_of_unread unread id)

/-- The catalog of the first shard has no columns and that of the second has some. The third takes
too long. -/
theorem compareAll_agrees_late :
    let third : Shard := ⟨⟨"third"⟩, "10.0.0.3", []⟩
    let topology : Topology := ⟨[.first, .second, third], by decide, by decide⟩
    let countries : List Row := [.ofList [("table_name", .text "countries"),
      ("column_name", .text "code"), ("data_type", .text "text"), ("is_nullable", .bool false)]]
    let moment : Moment Deployment :=
      { now := 0
        world := {
          network := ((Network.ofTopology topology).update Shard.second.id
            (·.respondTo "information_schema" countries)).update third.id
              fun shard => { shard with latency := .ofSeconds 31 }
          wallClock := 0 } }
    let surveyor : Surveyor Deployment := ⟨⟨topology, {}⟩, .onShards {}⟩
    ∃ report, (surveyor.compareAll Shard.first.id moment).1 = .ok report ∧
      report.Agrees [Shard.second.id, third.id] fun id =>
        (surveyor.compare id Shard.first.id moment).1 := by
  intro third topology countries moment surveyor
  obtain ⟨reports, -⟩ := compareAll_agrees surveyor (.onShards {}) rfl Shard.first.id moment rfl
  have read : ((surveyor.snapshot Shard.first.id false).perform moment).1.toOption.map
      ShardSchema.tables = some [] := by decide +kernel
  obtain ⟨expected, readable, -⟩ := exists_eq_ok read
  obtain ⟨report, reported, agrees⟩ := reports ⟨expected, readable⟩
  exact ⟨report, reported, agrees moment ⟨rfl, rfl⟩⟩

end Surveyor

end ShardFleet
