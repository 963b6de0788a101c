import ShardFleet.Proofs.Scatter.Progress
import ShardFleet.Proofs.Topology

/-!
A scatter-gather call accounts for every target once.

The targets of a call are those that are in no topology, which count as failures at once, and the
shards that are handed out (`Targets.split_perm`). What a call has recorded it never takes back
(`Call.Reaches.extends`). Together with the roll of the call this gives the main statement: the
call comes to its end, and every target has exactly one entry in what it brings back
(`Executor.scatterWith_accounts_once`).
-/

namespace ShardFleet

variable {σ α : Type}

/-! ### Targets -/

namespace Targets

/-- The shard is targeted. -/
def Covers (targets : Targets) (topology : Topology) (id : ShardId) : Prop :=
  match targets with
  | .all => id ∈ topology.ids
  | .some ids => id ∈ ids

instance (targets : Targets) (topology : Topology) (id : ShardId) :
    Decidable (targets.Covers topology id) := by
  unfold Covers
  split <;> infer_instance

/-- The targets that are in no topology. -/
def strays (targets : Targets) (topology : Topology) : List ShardId :=
  (targets.ids topology).filter fun id => !topology.contains id

/-- The shards that are targeted. -/
def known (targets : Targets) (topology : Topology) : List Shard :=
  (targets.ids topology).filterMap topology.find?

theorem mem_ids {targets : Targets} {topology : Topology} {id : ShardId} :
    id ∈ targets.ids topology ↔ targets.Covers topology id := by
  cases targets with
  | all => rfl
  | some ids => exact mem_distinct

theorem ids_nodup (targets : Targets) (topology : Topology) : (targets.ids topology).Nodup := by
  cases targets with
  | all => exact topology.distinct
  | some ids => exact nodup_distinct ids

/-- Targets that are all in the topology leave no strays. -/
theorem strays_eq_nil {targets : Targets} {topology : Topology}
    (within : ∀ id, targets.Covers topology id → id ∈ topology.ids) :
    targets.strays topology = [] := by
  refine List.filter_eq_nil_iff.mpr fun id mem => ?_
  simpa using Topology.contains_iff.mpr (within id (mem_ids.mp mem))

theorem known_ids (topology : Topology) (ids : List ShardId) :
    (ids.filterMap topology.find?).map Shard.id = ids.filter topology.contains := by
  induction ids with
  | nil => rfl
  | cons id rest ih =>
      cases found : topology.find? id with
      | none =>
          have missing : topology.contains id = false := by simp [Topology.contains, found]
          rw [List.filterMap_cons_none found, List.filter_cons_of_neg (by simp [missing]), ih]
      | some shard =>
          have present : topology.contains id = true := by simp [Topology.contains, found]
          have named : shard.id = id := by
            simpa using List.find?_some found
          rw [List.filterMap_cons_some found, List.filter_cons_of_pos present, List.map_cons,
            named, ih]

/-- Every target is a stray or a shard of the topology. -/
theorem split_perm (targets : Targets) (topology : Topology) :
    (targets.strays topology ++ (targets.known topology).map Shard.id).Perm
      (targets.ids topology) := by
  unfold strays known
  rw [known_ids]
  exact List.perm_append_comm.trans (List.filter_append_perm _ _)

theorem split_nodup (targets : Targets) (topology : Topology) :
    (targets.strays topology ++ (targets.known topology).map Shard.id).Nodup :=
  (targets.split_perm topology).nodup_iff.mpr (targets.ids_nodup topology)

end Targets

/-! ### What is recorded stays recorded -/

/-- The second has recorded all that the first has, in the same order, and perhaps more. -/
structure Gathered.Extends (later earlier : Gathered α) : Prop where
  answers : earlier.answers <+: later.answers
  cancelled : earlier.cancelled <+: later.cancelled

namespace Gathered

theorem Extends.refl (gathered : Gathered α) : gathered.Extends gathered :=
  ⟨List.prefix_rfl, List.prefix_rfl⟩

theorem Extends.trans {first second third : Gathered α} (upper : third.Extends second)
    (lower : second.Extends first) : third.Extends first :=
  ⟨lower.answers.trans upper.answers, lower.cancelled.trans upper.cancelled⟩

theorem extends_record (gathered : Gathered α) (answer : Answer α) :
    (gathered.record answer).Extends gathered := by
  unfold record
  split
  · exact ⟨List.prefix_rfl, List.prefix_append _ _⟩
  · exact ⟨List.prefix_append _ _, List.prefix_rfl⟩

end Gathered

namespace Call

/-- Only collecting changes what is gathered. -/
theorem Move.gathered {call : Call σ α} {run next : Run σ α} (move : call.Move run next) :
    next.gathered = run.gathered ∨
      next.gathered = { run.gathered with callerCancelled := true } ∨
      ∃ answer ∈ run.finished, next.gathered = run.gathered.record answer := by
  cases move with
  | handOut => exact .inl rfl
  | notice => exact .inr (.inl rfl)
  | record _ _ _ finished =>
      rw [Run.record_eq, finished]
      exact .inr (.inr ⟨_, List.mem_cons_self, rfl⟩)
  | work =>
      rw [Run.hearCaller_eq]
      exact .inl rfl
  | turn _ _ turn =>
      rw [Run.countTurn_eq, turn.frame]
      exact .inl rfl
  | collect => exact .inl rfl
  | moveOn =>
      rw [Run.hearCaller_eq]
      exact .inl rfl

theorem Move.extends {call : Call σ α} {run next : Run σ α} (move : call.Move run next) :
    next.gathered.Extends run.gathered := by
  rcases move.gathered with same | heard | ⟨answer, -, recorded⟩
  · exact same ▸ .refl _
  · exact heard ▸ ⟨List.prefix_rfl, List.prefix_rfl⟩
  · exact recorded ▸ run.gathered.extends_record answer

/-- What is recorded stays recorded, in its order. -/
theorem Reaches.extends {call : Call σ α} {start run : Run σ α}
    (reaches : call.Reaches start run) : run.gathered.Extends start.gathered := by
  induction reaches with
  | refl => exact .refl _
  | tail _ step ih => exact (step_eq_some_iff.mp step).extends.trans ih

end Call

/-! ### What is brought back -/

namespace Run

/-- What a call brings back if it is over in this state. -/
def outcome (run : Run σ α) : Gathered α :=
  { run.gathered with skipped := run.pending.map Shard.id }

/-- The moment at which a call that began at `moment` is over, if it is over in this state. -/
def after (run : Run σ α) (moment : Moment σ) : Moment σ :=
  { moment with
    now := run.now
    world := run.world
    cancellation := run.cancellation
    queued := run.queued }

theorem after_world (run : Run σ α) (moment : Moment σ) : (run.after moment).world = run.world :=
  rfl

end Run

/-- All shards that an outcome accounts for. -/
def Gathered.roll (gathered : Gathered α) : List ShardId :=
  gathered.answers.map Answer.shard ++ gathered.cancelled ++ gathered.skipped

theorem Gathered.mem_successes {gathered : Gathered α} {entry : ShardId × α} :
    entry ∈ gathered.successes ↔ ⟨entry.1, .ok entry.2⟩ ∈ gathered.answers := by
  obtain ⟨id, value⟩ := entry
  simp only [successes, List.mem_filterMap]
  constructor
  · rintro ⟨⟨shard, result⟩, mem, brought⟩
    cases result with
    | ok other => cases brought; exact mem
    | error error => cases brought
  · intro mem
    exact ⟨_, mem, rfl⟩

/-- What is picked out of a list under its own names has these names in the order of the list. -/
theorem map_filterMap_sublist {κ β γ : Type} {pick : β → Option γ} {name : β → κ} {key : γ → κ}
    (keeps : ∀ b c, pick b = some c → key c = name b) (xs : List β) :
    ((xs.filterMap pick).map key).Sublist (xs.map name) := by
  induction xs with
  | nil => exact .slnil
  | cons b rest ih =>
      cases picked : pick b with
      | none =>
          rw [List.filterMap_cons_none picked]
          exact ih.cons _
      | some c =>
          rw [List.filterMap_cons_some picked, List.map_cons, keeps b c picked]
          exact ih.cons_cons _

theorem Gathered.successes_sublist_answers (gathered : Gathered α) :
    (gathered.successes.map Prod.fst).Sublist (gathered.answers.map Answer.shard) := by
  refine map_filterMap_sublist ?_ gathered.answers
  rintro ⟨shard, _ | value⟩ entry brought <;> cases brought
  rfl

/-- The shards that brought a value in are among those accounted for. -/
theorem Gathered.successes_sublist (gathered : Gathered α) :
    (gathered.successes.map Prod.fst).Sublist gathered.roll := by
  rw [roll, List.append_assoc]
  exact gathered.successes_sublist_answers.trans (List.sublist_append_left _ _)

/-! ### One thing of each shard -/

namespace Gathered

variable {gathered : Gathered α} {id : ShardId}

theorem isComplete_iff :
    gathered.isComplete = true ↔
      gathered.failures = [] ∧ gathered.cancelled = [] ∧ gathered.skipped = [] := by
  simp [isComplete, and_assoc]

theorem mem_failures {entry : ShardId × Error} :
    entry ∈ gathered.failures ↔ ⟨entry.1, .error entry.2⟩ ∈ gathered.answers := by
  obtain ⟨id, error⟩ := entry
  simp only [failures, List.mem_filterMap]
  constructor
  · rintro ⟨⟨shard, result⟩, mem, failed⟩
    cases result with
    | ok value => cases failed
    | error other => cases failed; exact mem
  · intro mem
    exact ⟨_, mem, rfl⟩

/-- The shard was called off or never started. -/
def LeavesOut (gathered : Gathered α) (id : ShardId) : Prop :=
  id ∈ gathered.cancelled ++ gathered.skipped

theorem skipped_or_cancelled_of_leftOut (leftOut : gathered.LeavesOut id) :
    gathered.skipped ≠ [] ∨ gathered.cancelled ≠ [] := by
  rcases List.mem_append.mp leftOut with cancelled | skipped
  · exact .inr (List.ne_nil_of_mem cancelled)
  · exact .inl (List.ne_nil_of_mem skipped)

/-- A shard that is accounted for brought a value in, failed, or was left out. -/
theorem success_or_failure_or_leftOut (listed : id ∈ gathered.roll) :
    (∃ value, (id, value) ∈ gathered.successes) ∨ (∃ error, (id, error) ∈ gathered.failures) ∨
      gathered.LeavesOut id := by
  rw [roll, List.append_assoc] at listed
  rcases List.mem_append.mp listed with answered | leftOut
  · obtain ⟨⟨shard, result⟩, mem, rfl⟩ := List.mem_map.mp answered
    cases result with
    | ok value => exact .inl ⟨value, mem_successes.mpr mem⟩
    | error error => exact .inr (.inl ⟨error, mem_failures.mpr mem⟩)
  · exact .inr (.inr leftOut)

/-- Whoever has an answer was not left out. -/
theorem shard_ne_of_leftOut (apart : gathered.roll.Nodup) (leftOut : gathered.LeavesOut id)
    {answer : Answer α} (answered : answer ∈ gathered.answers) : answer.shard ≠ id := by
  rw [roll, List.append_assoc] at apart
  exact (List.nodup_append.mp apart).2.2 _ (List.mem_map_of_mem answered) _ leftOut

/-- A shard has one answer. -/
theorem answer_unique (apart : gathered.roll.Nodup) {one two : Answer α}
    (first : one ∈ gathered.answers) (second : two ∈ gathered.answers)
    (same : one.shard = two.shard) : one = two := by
  rw [roll, List.append_assoc] at apart
  exact List.inj_on_of_nodup_map (List.nodup_append.mp apart).1 first second same

/-- A call that is complete has a value of every shard that it accounts for. -/
theorem exists_success_of_complete (complete : gathered.isComplete = true)
    (listed : id ∈ gathered.roll) : ∃ value, (id, value) ∈ gathered.successes := by
  obtain ⟨failures, cancelled, skipped⟩ := isComplete_iff.mp complete
  rcases success_or_failure_or_leftOut listed with brought | ⟨error, failed⟩ | leftOut
  · exact brought
  · simp [failures] at failed
  · simp [LeavesOut, cancelled, skipped] at leftOut

end Gathered

/-- When a call is over, what it brings back accounts for its roll. -/
theorem Call.roll_of_over {call : Call σ α} {run : Run σ α} (ended : call.step run = none) :
    run.outcome.roll = run.roll := by
  obtain ⟨-, flights, finished, -⟩ := step_eq_none_iff.mp ended
  simp [Run.roll, Run.outcome, Gathered.roll, Gathered.recorded, flights, finished]

namespace Executor

/-- The state in which a call of the executor begins. -/
def start (executor : Executor) (options : ScatterOptions) (targets : Targets)
    (operation : Shard → Operation σ α) (moment : Moment σ) : Run σ α :=
  Call.begin ⟨operation, options⟩ (targets.strays executor.topology)
    (targets.known executor.topology) moment

theorem start_orderly (executor : Executor) (options : ScatterOptions) (targets : Targets)
    (operation : Shard → Operation σ α) (moment : Moment σ) :
    (executor.start options targets operation moment).Orderly :=
  Call.orderly_begin _ (targets.split_nodup executor.topology) moment

theorem start_awaited (executor : Executor) (options : ScatterOptions) (targets : Targets)
    (operation : Shard → Operation σ α) {moment : Moment σ}
    (patient : moment.cancellation = .never) :
    (executor.start options targets operation moment).Awaited :=
  ⟨patient, by simp [start, Call.begin, patient, Cancellation.hasFired]⟩

theorem start_roll (executor : Executor) (options : ScatterOptions) (targets : Targets)
    (operation : Shard → Operation σ α) (moment : Moment σ) :
    (executor.start options targets operation moment).roll =
      targets.strays executor.topology ++ (targets.known executor.topology).map Shard.id := by
  simp [Run.roll, start, Call.begin, Gathered.recorded, Function.comp_def]

/-- What a call of the executor brings back is what it has in the end. -/
theorem scatterWith_eq (executor : Executor) (options : ScatterOptions) (targets : Targets)
    (operation : Shard → Operation σ α) (moment : Moment σ) :
    let last := Call.final ⟨operation, options⟩ (targets.strays executor.topology)
      (targets.known executor.topology) moment
    executor.scatterWith options targets operation moment = (last.outcome, last.after moment) := by
  unfold scatterWith Targets.strays Targets.known
  rfl

/-- A call of the executor comes to its end, and brings back what it has then. -/
theorem scatterWith_ends (executor : Executor) (options : ScatterOptions) (targets : Targets)
    (operation : Shard → Operation σ α) (moment : Moment σ) :
    ∃ last, Call.Ends ⟨operation, options⟩
        (executor.start options targets operation moment) last ∧
      executor.scatterWith options targets operation moment =
        (last.outcome, last.after moment) := by
  refine ⟨Call.final ⟨operation, options⟩ (targets.strays executor.topology)
    (targets.known executor.topology) moment, ⟨Call.reaches_advance _ _ _,
      Call.step_final _ (targets.split_nodup executor.topology) moment⟩, ?_⟩
  exact executor.scatterWith_eq options targets operation moment

/-- A call of the executor accounts for its targets. -/
theorem roll_of_ends {executor : Executor} {options : ScatterOptions} {targets : Targets}
    {operation : Shard → Operation σ α} {moment : Moment σ} {last : Run σ α}
    (ends : Call.Ends ⟨operation, options⟩ (executor.start options targets operation moment)
      last) : last.outcome.roll.Perm (targets.ids executor.topology) := by
  obtain ⟨reaches, ended⟩ := ends
  have kept := reaches.roll_perm (executor.start_orderly options targets operation moment)
  rw [executor.start_roll, ← Call.roll_of_over ended] at kept
  exact kept.trans (targets.split_perm executor.topology)

/-- What a call of the executor brings back accounts for its targets. -/
theorem scatterWith_roll (executor : Executor) (options : ScatterOptions) (targets : Targets)
    (operation : Shard → Operation σ α) (moment : Moment σ) :
    (executor.scatterWith options targets operation moment).1.roll.Perm
      (targets.ids executor.topology) := by
  obtain ⟨last, ends, whole⟩ := executor.scatterWith_ends options targets operation moment
  rw [whole]
  exact roll_of_ends ends

/-- Every target has one entry in what a call brings back, and nothing else has. -/
theorem count_of_ends {executor : Executor} {options : ScatterOptions} {targets : Targets}
    {operation : Shard → Operation σ α} {moment : Moment σ} {last : Run σ α}
    (ends : Call.Ends ⟨operation, options⟩ (executor.start options targets operation moment)
      last) (id : ShardId) :
    last.outcome.roll.count id = if targets.Covers executor.topology id then 1 else 0 := by
  rw [(roll_of_ends ends).count_eq id]
  by_cases covered : targets.Covers executor.topology id
  · rw [if_pos covered]
    exact List.count_eq_one_of_mem (targets.ids_nodup _) (Targets.mem_ids.mpr covered)
  · rw [if_neg covered]
    exact List.count_eq_zero_of_not_mem fun mem => covered (Targets.mem_ids.mp mem)

/-- A call comes to its end, and what it brings back is what it has recorded by then, with the
shards that it never handed out. Every target occurs once in it, and nothing else does. It begins
with a failure for each target that is in no topology. -/
theorem scatterWith_accounts_once (executor : Executor) (options : ScatterOptions)
    (targets : Targets) (operation : Shard → Operation σ α) (moment : Moment σ) :
    let gathered := (executor.scatterWith options targets operation moment).1
    (∃ last, Call.Ends ⟨operation, options⟩
        (executor.start options targets operation moment) last ∧
      gathered = { last.gathered with skipped := last.pending.map Shard.id }) ∧
    (∀ id, (gathered.answers.map Answer.shard ++ gathered.cancelled ++ gathered.skipped).count id =
      if targets.Covers executor.topology id then 1 else 0) ∧
    (targets.strays executor.topology).map (fun id => ⟨id, .error (.unknownShard id.name)⟩) <+:
      gathered.answers := by
  obtain ⟨last, ends, whole⟩ := executor.scatterWith_ends options targets operation moment
  rw [whole]
  exact ⟨⟨last, ends, rfl⟩, count_of_ends ends, ends.1.extends.answers⟩

end Executor

end ShardFleet
