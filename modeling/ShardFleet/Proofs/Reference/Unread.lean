import ShardFleet.Proofs.AllClear
import ShardFleet.Proofs.Attempts
import ShardFleet.Proofs.Migration.Sequential

/-!
What is said of drift when the source could not be read.

A reading of all shards has one thing to tell of the source: its digest, its failure, or that it was
left out (`Gathered.success_or_failure_or_leftOut`). With a digest there is a report, and a failure
is passed on as it came in. A source that was left out is said to have been cancelled. It was, if
the caller has cancelled; but a reading that does not tolerate failures also leaves the source out
when another shard fails (`Replicator.detectDrift_says`), and then it is said to be cancelled
although nobody has cancelled (`Replicator.detectDrift_cancelled_unasked`).
-/

namespace ShardFleet

variable {σ : Type}

/-! ### Why there is no report -/

namespace DriftReport

variable {table : String} {source : ShardId} {gathered : Gathered String} {error : Error}

/-- A shard with a single failure has the error of this one. -/
theorem errorOf_of_mem {failures : List ShardFailure} (failed : ⟨source, error⟩ ∈ failures)
    (single : ∀ failure ∈ failures, failure.shard = source → failure = ⟨source, error⟩) :
    errorOf failures source = error := by
  unfold errorOf
  cases found : failures.find? (·.shard = source) with
  | none => exact absurd (List.find?_eq_none.mp found _ failed) (by simp)
  | some failure =>
      have here : failure.shard = source := by simpa using List.find?_some found
      rw [single failure (List.mem_of_find?_eq_some found) here]
      rfl

/-- A shard without a failure is said to have been called off. -/
theorem errorOf_of_absent {failures : List ShardFailure}
    (absent : ∀ failure ∈ failures, failure.shard ≠ source) :
    errorOf failures source = .cancelled := by
  have none : failures.find? (·.shard = source) = none :=
    List.find?_eq_none.mpr fun failure mem => by simpa using absent failure mem
  rw [errorOf, none]
  rfl

/-- Nothing is compared for a caller who has cancelled. -/
theorem ofGathered_of_heard (heard : gathered.callerCancelled = true) :
    ofGathered table source gathered.sort = .error .cancelled :=
  if_pos heard

section Unheard

variable (apart : gathered.roll.Nodup) (unheard : gathered.callerCancelled = false)

include apart unheard

/-- Without the digest of the source its error is reported. -/
theorem ofGathered_of_unread (unread : ∀ hash, (source, hash) ∉ gathered.successes) :
    ofGathered table source gathered.sort =
      .error (errorOf (gathered.sort.failures.map fun entry => ⟨entry.1, entry.2⟩) source) := by
  have none : (OrderedMap.ofList gathered.sort.successes).get? source = none :=
    Option.eq_none_iff_forall_ne_some.mpr fun hash found =>
      unread hash ((Gathered.get?_ofList_sort apart).mp found)
  have waits : gathered.sort.callerCancelled = false := unheard
  unfold ofGathered
  rw [waits]
  simp only [Bool.false_eq_true, if_false, none]

/-- The failure of the source is passed on. -/
theorem ofGathered_of_failed (failed : (source, error) ∈ gathered.failures) :
    ofGathered table source gathered.sort = .error error := by
  have answered := Gathered.mem_failures.mp failed
  have unread : ∀ hash, (source, hash) ∉ gathered.successes := fun hash brought => by
    cases Gathered.answer_unique apart answered (Gathered.mem_successes.mp brought) rfl
  rw [ofGathered_of_unread apart unheard unread]
  refine congrArg _ (errorOf_of_mem ?_ fun failure mem here => ?_)
  · exact List.mem_map.mpr ⟨_, gathered.sort_failures_perm.mem_iff.mpr failed, rfl⟩
  · obtain ⟨⟨shard, other⟩, listed, rfl⟩ := List.mem_map.mp mem
    have told := Gathered.mem_failures.mp (gathered.sort_failures_perm.mem_iff.mp listed)
    cases Gathered.answer_unique apart answered told here.symm
    rfl

/-- With the digest of the source there is a report. -/
theorem exists_ofGathered_eq_ok {hash : String} (brought : (source, hash) ∈ gathered.successes) :
    ∃ report, ofGathered table source gathered.sort = .ok report :=
  ⟨_, ofGathered_eq_ok_iff.mpr
    ⟨unheard, hash, (Gathered.get?_ofList_sort apart).mpr brought, rfl⟩⟩

end Unheard

/-- A source that was left out is said to have been called off. -/
theorem ofGathered_of_leftOut (apart : gathered.roll.Nodup)
    (leftOut : gathered.LeavesOut source) :
    ofGathered table source gathered.sort = .error .cancelled := by
  have answered : ∀ answer ∈ gathered.answers, answer.shard ≠ source :=
    fun _ => Gathered.shard_ne_of_leftOut apart leftOut
  have unread : ∀ hash, (source, hash) ∉ gathered.successes := fun hash brought =>
    answered _ (Gathered.mem_successes.mp brought) rfl
  cases heard : gathered.callerCancelled with
  | true => exact ofGathered_of_heard heard
  | false =>
      rw [ofGathered_of_unread apart heard unread]
      refine congrArg _ (errorOf_of_absent fun failure mem => ?_)
      obtain ⟨entry, listed, rfl⟩ := List.mem_map.mp mem
      exact answered _ (Gathered.mem_failures.mp (gathered.sort_failures_perm.mem_iff.mp listed))

/-- The digest that a report compares with is that of the source. -/
theorem mem_successes_of_ofGathered {report : DriftReport} (apart : gathered.roll.Nodup)
    (made : ofGathered table source gathered.sort = .ok report) :
    (source, report.expected) ∈ gathered.successes := by
  obtain ⟨-, expected, found, rfl⟩ := ofGathered_eq_ok_iff.mp made
  exact (Gathered.get?_ofList_sort apart).mp found

end DriftReport

/-! ### Readings that are never called off by themselves -/

namespace Upsert

/-- A statement that cannot be made was not called off. -/
theorem selectStatement_ne_cancelled (table : ReferenceTable) :
    selectStatement table ≠ .error .cancelled := by
  have quoted : ∀ name, Identifier.quote name ≠ .error .cancelled := fun name => by
    simp only [Identifier.quote]
    split <;> exact nofun
  have list : ∀ names, quotedList names ≠ .error .cancelled := fun names =>
    bind_ne_error (mapM_ne_error quoted names) fun _ => nofun
  exact bind_ne_error (list _) fun _ => bind_ne_error (list _) fun _ =>
    bind_ne_error (quoted _) fun _ => nofun

end Upsert

namespace TableStore

theorem sincere_contentHash {store : TableStore σ} {id : ShardId} {table : ReferenceTable}
    (sincere : (store.readAll id table).Sincere) : (store.contentHash id table).Sincere :=
  sincere.bind fun _ => Job.sincere_pure _

theorem sincere_readAll_onShards (options : StatementOptions) (id : ShardId)
    (table : ReferenceTable) : ((onShards options).readAll id table).Sincere := by
  have made := Upsert.selectStatement_ne_cancelled table
  refine Job.Sincere.bind ?_ fun statement =>
    Connection.sincere_use (Connection.sincere_query id statement) id
  exact made

end TableStore

/-! ### Drift -/

namespace Replicator

/-- The digests of a table on all shards, as they come in. -/
def reading (replicator : Replicator σ) (table : ReferenceTable) : Timed σ (Gathered String) :=
  replicator.executor.scatter .all
    (fun shard => .ofJob (replicator.store.contentHash shard.id table))

section

variable {replicator : Replicator σ} {table : ReferenceTable} {moment : Moment σ}

theorem detectDrift_eq_reading :
    replicator.detectDrift table moment =
      (DriftReport.ofGathered table.name replicator.source (replicator.reading table moment).1.sort,
        (replicator.reading table moment).2) :=
  replicator.detectDrift_reads table moment

theorem reading_roll_nodup : (replicator.reading table moment).1.roll.Nodup :=
  Executor.roll_nodup

theorem source_mem_reading_roll : replicator.source ∈ (replicator.reading table moment).1.roll :=
  (replicator.executor.scatterWith_roll _ .all _ moment).mem_iff.mpr
    (Topology.contains_iff.mp replicator.known)

/-- A failure that is told of a shard is what reading it there came to, and its part of the world
is left as was promised for it. -/
theorem ends_of_failed {failure : ShardId × Error}
    (failed : failure ∈ (replicator.reading table moment).1.failures)
    {π : Type} {custody : Custody σ π String}
    (keeps : ∀ shard, custody.Keeps shard (replicator.store.contentHash shard table)) :
    custody.Ends moment.world ⟨failure.1, .error failure.2⟩
      (replicator.detectDrift table moment).2.world := by
  have settled : custody.Settled moment.world (replicator.reading table moment).1
      (replicator.reading table moment).2.world :=
    Executor.scatterWith_settled fun shard => (keeps shard.id).within _ _
  rw [detectDrift_eq_reading]
  exact settled.outcomes _ (List.mem_append_left _ (Gathered.mem_failures.mp failed))

theorem sincere_reading (sincere : ∀ id, (replicator.store.contentHash id table).Sincere) :
    ∀ shard ∈ Targets.all.known replicator.executor.topology, Operation.Sincere
      (.ofJob (replicator.store.contentHash shard.id table) : Operation σ String) :=
  fun shard _ => Operation.sincere_ofJob (sincere shard.id)

/-- A source that was left out is said to have been called off. -/
theorem detectDrift_of_leftOut
    (leftOut : (replicator.reading table moment).1.LeavesOut replicator.source) :
    (replicator.detectDrift table moment).1 = .error .cancelled := by
  rw [detectDrift_eq_reading]
  exact DriftReport.ofGathered_of_leftOut reading_roll_nodup leftOut

theorem fired_of_heard (heard : (replicator.reading table moment).1.callerCancelled = true) :
    (replicator.detectDrift table moment).2.cancellation.hasFired = true := by
  rw [detectDrift_eq_reading]
  exact Executor.fired_of_heard heard

/-- A source is left out because the caller has cancelled, or because another shard failed in a
reading that does not tolerate failures. -/
theorem fired_or_failed_of_leftOut
    (sincere : ∀ id, (replicator.store.contentHash id table).Sincere)
    (leftOut : (replicator.reading table moment).1.LeavesOut replicator.source) :
    (replicator.detectDrift table moment).2.cancellation.hasFired = true ∨
      replicator.executor.options.tolerance = .failFast ∧
        ∃ failure ∈ (replicator.reading table moment).1.failures,
          failure.1 ≠ replicator.source := by
  have cut := Gathered.skipped_or_cancelled_of_leftOut leftOut
  cases tolerance : replicator.executor.options.tolerance with
  | bestEffort =>
      have heard := Executor.heard_of_leftOut tolerance (sincere_reading sincere) cut
      exact .inl (fired_of_heard heard)
  | failFast =>
      rcases Executor.told_of_leftOut (sincere_reading sincere) cut with failed | heard
      · obtain ⟨failure, mem⟩ := List.exists_mem_of_ne_nil _ failed
        exact .inr ⟨rfl, failure, mem, Gathered.shard_ne_of_leftOut reading_roll_nodup leftOut
          (Gathered.mem_failures.mp mem)⟩
      · exact .inl (fired_of_heard heard)

/-- What is said of drift, and what it is said for. -/
theorem detectDrift_cases (moment : Moment σ)
    (sincere : ∀ id, (replicator.store.contentHash id table).Sincere) :
    let read := (replicator.reading table moment).1
    let result := (replicator.detectDrift table moment).1
    (read.callerCancelled = true ∧ result = .error .cancelled) ∨
    (read.LeavesOut replicator.source ∧ result = .error .cancelled) ∨
    (∃ error, (replicator.source, error) ∈ read.failures ∧ error ≠ .cancelled ∧
      result = .error error) ∨
    ∃ report, (replicator.source, report.expected) ∈ read.successes ∧ result = .ok report := by
  intro read result
  have told : result = DriftReport.ofGathered table.name replicator.source read.sort :=
    congrArg Prod.fst detectDrift_eq_reading
  have apart : read.roll.Nodup := reading_roll_nodup
  rw [told]
  cases heard : read.callerCancelled with
  | true => exact .inl ⟨rfl, DriftReport.ofGathered_of_heard heard⟩
  | false =>
      rcases Gathered.success_or_failure_or_leftOut source_mem_reading_roll with
        ⟨hash, brought⟩ | ⟨error, failed⟩ | leftOut
      · obtain ⟨report, made⟩ := DriftReport.exists_ofGathered_eq_ok apart heard brought
        have compared := DriftReport.mem_successes_of_ofGathered apart made
        exact .inr (.inr (.inr ⟨report, compared, made⟩))
      · have other : error ≠ .cancelled := fun off =>
          Executor.answer_ne_cancelled (sincere_reading sincere) (Gathered.mem_failures.mp failed)
            (congrArg _ off)
        exact .inr (.inr (.inl
          ⟨error, failed, other, DriftReport.ofGathered_of_failed apart heard failed⟩))
      · exact .inr (.inl ⟨leftOut, DriftReport.ofGathered_of_leftOut apart leftOut⟩)

end

/-- What is said of drift, under any options, whatever fails, is late or is cancelled meanwhile, if
no reading claims on its own to have been called off. It is said to be cancelled only if the caller
has cancelled by the end, or if the source was left out by a reading that does not tolerate
failures because another shard failed; then nobody need have cancelled. Otherwise, without a digest
of the source, it is the failure of the source that is told: the source was read, and its part of
the world is left as was promised for this failure. A report compares with the digest that came in
from the source. -/
theorem detectDrift_says (replicator : Replicator σ) (table : ReferenceTable) (moment : Moment σ)
    (sincere : ∀ id, (replicator.store.contentHash id table).Sincere) :
    let read := (replicator.reading table moment).1
    let drift := replicator.detectDrift table moment
    let source := replicator.source
    (drift.1 = .error .cancelled →
      drift.2.cancellation.hasFired = true ∨
        replicator.executor.options.tolerance = .failFast ∧ read.LeavesOut source ∧
          ∃ failure ∈ read.failures, failure.1 ≠ source) ∧
    (read.LeavesOut source → drift.1 = .error .cancelled) ∧
    ((∀ hash, (source, hash) ∉ read.successes) → drift.1 ≠ .error .cancelled →
      ∃ error, drift.1 = .error error ∧ (source, error) ∈ read.failures ∧
        ∀ {π : Type} {custody : Custody σ π String},
          (∀ shard, custody.Keeps shard (replicator.store.contentHash shard table)) →
          custody.Ends moment.world ⟨source, .error error⟩ drift.2.world) ∧
    ∀ report, drift.1 = .ok report → (source, report.expected) ∈ read.successes := by
  intro read drift source
  have cases := detectDrift_cases moment sincere
  refine ⟨fun cancelled => ?_, fun leftOut => ?_, fun unread other => ?_, fun report made => ?_⟩
  · rcases cases with ⟨heard, -⟩ | ⟨leftOut, -⟩ | ⟨error, -, other, failed⟩ | ⟨report, -, made⟩
    · exact .inl (fired_of_heard heard)
    · exact (fired_or_failed_of_leftOut sincere leftOut).imp_right
        fun ⟨tolerance, failure⟩ => ⟨tolerance, leftOut, failure⟩
    · exact absurd (Except.error.inj (failed.symm.trans cancelled)) other
    · cases made.symm.trans cancelled
  · exact detectDrift_of_leftOut leftOut
  · rcases cases with ⟨-, off⟩ | ⟨-, off⟩ | ⟨error, failed, -, told⟩ | ⟨report, brought, -⟩
    · exact absurd off other
    · exact absurd off other
    · exact ⟨error, told, failed, fun keeps => ends_of_failed failed keeps⟩
    · exact absurd brought (unread _)
  · have told : drift.1 = DriftReport.ofGathered table.name source read.sort :=
      congrArg Prod.fst detectDrift_eq_reading
    exact DriftReport.mem_successes_of_ofGathered reading_roll_nodup (told.symm.trans made)

/-- A source that cannot be reached, in a reading that tolerates failures. -/
theorem detectDrift_says_unreachable :
    let table := ReferenceTable.new "countries" ["code"] ["name"]
    let network := (Network.ofTopology .pair).setReachable Shard.first.id false
    let moment : Moment Deployment := { now := 0, world := { network, wallClock := 0 } }
    let replicator : Replicator Deployment :=
      ⟨⟨.pair, {}⟩, .onShards {}, Shard.first.id, by decide⟩
    (∀ id, (replicator.store.contentHash id table).Sincere) ∧
    ∃ error, (replicator.detectDrift table moment).1 = .error error ∧ error ≠ .cancelled ∧
      (Shard.first.id, error) ∈ (replicator.reading table moment).1.failures := by
  intro table network moment replicator
  have sincere : ∀ id, (replicator.store.contentHash id table).Sincere := fun id =>
    TableStore.sincere_contentHash (TableStore.sincere_readAll_onShards {} id table)
  obtain ⟨why, -, failure, -⟩ := replicator.detectDrift_says table moment sincere
  have patient : (replicator.detectDrift table moment).2.cancellation.hasFired = false := by
    decide +kernel
  have other : (replicator.detectDrift table moment).1 ≠ .error .cancelled := by
    intro cancelled
    rcases why cancelled with fired | ⟨strict, -⟩
    · exact Bool.false_ne_true (patient.symm.trans fired)
    · exact absurd strict (by decide)
  have unlisted : Shard.first.id ∉
      (replicator.reading table moment).1.successes.map Prod.fst := by
    decide +kernel
  have unread : ∀ hash, (Shard.first.id, hash) ∉ (replicator.reading table moment).1.successes :=
    fun hash brought => unlisted (List.mem_map_of_mem (f := Prod.fst) brought)
  obtain ⟨error, told, failed, -⟩ := failure unread other
  have honest : error ≠ .cancelled := by
    rintro rfl
    exact other told
  exact ⟨sincere, error, told, honest, failed⟩

/-- Of two shards the first cannot be reached, and the second, the source, waits for it in a reading
that does not tolerate failures. Drift is said to be cancelled, and nobody has cancelled. -/
theorem detectDrift_cancelled_unasked :
    let table := ReferenceTable.new "countries" ["code"] ["name"]
    let network := (Network.ofTopology .pair).setReachable Shard.first.id false
    let moment : Moment Deployment := { now := 0, world := { network, wallClock := 0 } }
    let replicator : Replicator Deployment :=
      ⟨⟨.pair, { maxConcurrency := 1, tolerance := .failFast }⟩, .onShards {}, Shard.second.id,
        by decide⟩
    (replicator.detectDrift table moment).1 = .error .cancelled ∧
      (replicator.detectDrift table moment).2.cancellation.hasFired = false := by
  intro table network moment replicator
  have skipped : Shard.second.id ∈ (replicator.reading table moment).1.skipped := by
    decide +kernel
  constructor
  · exact detectDrift_of_leftOut (List.mem_append_right _ skipped)
  · decide +kernel

end Replicator

end ShardFleet
