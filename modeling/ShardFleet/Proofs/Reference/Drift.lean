import ShardFleet.Deployment.Stores
import ShardFleet.Proofs.OrderedMap
import ShardFleet.Proofs.Scatter.Looking
import ShardFleet.Reference.Replication

/-!
What a drift report says.

A report compares the digests that came in with that of the source (`ofGathered_eq_ok_iff`). For
tables kept in memory each digest is that of what the shard holds (`Replicator.hash_of_drift`), and
a caller who waits gets a report without failures (`Replicator.exists_drift`).
-/

namespace ShardFleet

/-! ### Sorted outcomes -/

namespace Gathered

variable {α : Type}

theorem sort_answers_perm (gathered : Gathered α) : gathered.sort.answers.Perm gathered.answers :=
  List.mergeSort_perm _ _

theorem sort_successes_perm (gathered : Gathered α) :
    gathered.sort.successes.Perm gathered.successes :=
  gathered.sort_answers_perm.filterMap _

theorem sort_callerCancelled (gathered : Gathered α) :
    gathered.sort.callerCancelled = gathered.callerCancelled :=
  rfl

theorem sort_failures_perm (gathered : Gathered α) :
    gathered.sort.failures.Perm gathered.failures :=
  gathered.sort_answers_perm.filterMap _

/-- A table of the values that came in, in the order of the shards, has the value of each. -/
theorem get?_ofList_sort {gathered : Gathered α} (apart : gathered.roll.Nodup) {id : ShardId}
    {value : α} :
    (OrderedMap.ofList gathered.sort.successes).get? id = some value ↔
      (id, value) ∈ gathered.successes := by
  have sorted := gathered.sort_successes_perm
  have answered := apart.sublist gathered.successes_sublist
  rw [OrderedMap.get?_ofList_eq_some_iff ((sorted.map Prod.fst).nodup_iff.mpr answered),
    sorted.mem_iff]

end Gathered

/-! ### Reports -/

namespace DriftReport

variable {table : String} {source id : ShardId} {gathered : Gathered String} {report : DriftReport}

/-- A report is made if the caller has not cancelled and the digest of the source came in; it
holds the digests and the failures that came in. -/
theorem ofGathered_eq_ok_iff :
    ofGathered table source gathered = .ok report ↔
      gathered.callerCancelled = false ∧
        ∃ expected, (OrderedMap.ofList gathered.successes).get? source = some expected ∧
          report = { table, source, expected, hashes := OrderedMap.ofList gathered.successes,
                     failures := gathered.failures.map fun entry => ⟨entry.1, entry.2⟩ } := by
  unfold ofGathered
  cases gathered.callerCancelled with
  | true => simp
  | false =>
      cases found : (OrderedMap.ofList gathered.successes).get? source with
      | none => simp [found]
      | some expected => simp [found, eq_comm]

theorem mem_drifted :
    id ∈ report.drifted ↔ ∃ hash, report.hashes.get? id = some hash ∧ hash ≠ report.expected := by
  simp only [drifted, OrderedMap.keys, List.mem_map, Prod.exists, exists_and_right,
    exists_eq_right, OrderedMap.mem_entries, OrderedMap.get?_filter_eq_some, decide_eq_true_eq]

end DriftReport

/-! ### Tables in memory -/

namespace Replicator

variable {executor : Executor} {source : ShardId}
  {known : executor.topology.contains source = true} {table : ReferenceTable}
  {moment : Moment Deployment} {drift : DriftReport}

/-- The digest of what a shard holds of a table. -/
def hashOn (table : ReferenceTable) (id : ShardId) (world : Deployment) : String :=
  ContentHash.ofRows (world.tables.readAll id table)

/-- The digests of what all shards hold, as they come in. -/
def digests (executor : Executor) (table : ReferenceTable) : Timed Deployment (Gathered String) :=
  executor.scatter .all (.looking fun id world => .ok (hashOn table id world))

/-- Drift is detected by looking at the digest of every shard. -/
theorem detectDrift_eq :
    (⟨executor, .inMemory, source, known⟩ : Replicator Deployment).detectDrift table moment =
      (DriftReport.ofGathered table.name source (digests executor table moment).1.sort,
        (digests executor table moment).2) :=
  rfl

theorem digests_roll (executor : Executor) (table : ReferenceTable) (moment : Moment Deployment) :
    (digests executor table moment).1.roll.Perm executor.topology.ids :=
  executor.scatterWith_roll executor.options .all _ moment

/-- A report has the digests that came in. -/
theorem get?_digests {id : ShardId} {hash : String} :
    (OrderedMap.ofList (digests executor table moment).1.sort.successes).get? id = some hash ↔
      (id, hash) ∈ (digests executor table moment).1.successes :=
  Gathered.get?_ofList_sort
    ((digests_roll executor table moment).nodup_iff.mpr executor.topology.distinct)

/-- Every digest in a report is that of what a shard of the topology holds, and the digest of the
source is that of what the source holds. -/
theorem hash_of_drift
    (made : ((⟨executor, .inMemory, source, known⟩ : Replicator Deployment).detectDrift table
      moment).1 = .ok drift) :
    (∀ id hash, drift.hashes.get? id = some hash →
        id ∈ executor.topology.ids ∧ hash = hashOn table id moment.world) ∧
      drift.expected = hashOn table source moment.world := by
  rw [detectDrift_eq] at made
  obtain ⟨-, expected, found, rfl⟩ := DriftReport.ofGathered_eq_ok_iff.mp made
  have seen : ∀ id hash, (id, hash) ∈ (digests executor table moment).1.successes →
      id ∈ executor.topology.ids ∧ hash = hashOn table id moment.world := by
    intro id hash brought
    have listed := (Gathered.successes_sublist _).mem (List.mem_map_of_mem brought)
    exact ⟨(digests_roll executor table moment).mem_iff.mp listed,
      (Except.ok.inj (Executor.scatterWith_looking.2 _ brought)).symm⟩
  exact ⟨fun id hash there => seen id hash (get?_digests.mp there),
    (seen source expected (get?_digests.mp found)).2⟩

/-- A caller who waits gets a report without failures, which has a digest of every shard. -/
theorem exists_drift (patient : moment.cancellation = .never) :
    ∃ drift, ((⟨executor, .inMemory, source, known⟩ : Replicator Deployment).detectDrift table
        moment).1 = .ok drift ∧
      drift.failures = [] ∧
      ∀ id ∈ executor.topology.ids, ∃ hash, drift.hashes.get? id = some hash := by
  have whole : (digests executor table moment).1.isComplete = true ∧
      (digests executor table moment).1.callerCancelled = false :=
    Executor.scatterWith_complete patient (fun _ covered => Topology.contains_iff.mpr covered)
      fun _ _ => ⟨_, rfl⟩
  have digest : ∀ id ∈ executor.topology.ids, ∃ hash,
      (OrderedMap.ofList (digests executor table moment).1.sort.successes).get? id = some hash := by
    intro id listed
    obtain ⟨hash, brought⟩ := Gathered.exists_success_of_complete whole.1
      ((digests_roll executor table moment).mem_iff.mpr listed)
    exact ⟨hash, get?_digests.mpr brought⟩
  have unheard : (digests executor table moment).1.sort.callerCancelled = false := by
    rw [Gathered.sort_callerCancelled]
    exact whole.2
  have quiet : (digests executor table moment).1.sort.failures = [] := by
    have none : (digests executor table moment).1.failures = [] := by
      simpa using (Bool.and_eq_true_iff.mp (Bool.and_eq_true_iff.mp whole.1).1).1
    exact List.perm_nil.mp (none ▸ Gathered.sort_failures_perm _)
  obtain ⟨expected, found⟩ := digest source (Topology.contains_iff.mp known)
  rw [detectDrift_eq]
  refine ⟨_, DriftReport.ofGathered_eq_ok_iff.mpr ⟨unheard, expected, found, rfl⟩, ?_, digest⟩
  rw [quiet, List.map_nil]

end Replicator

end ShardFleet
