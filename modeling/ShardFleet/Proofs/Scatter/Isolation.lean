import ShardFleet.Proofs.Scatter.Conservation
import ShardFleet.Proofs.Scatter.Scripts

/-!
Shards do not disturb one another.

A call that tolerates failures and whose caller never cancels is never called off
(`Call.Move.undisturbed`). If the operation on a shard does the same on every occasion, counted
from its own start, then the invocation of the shard comes to one result whenever it is handed
out and whatever the others do meanwhile: every move of the call keeps the shard settled on this
result (`Call.Move.settles`). So what a call records for the shard is what an invocation of the
shard alone comes to, and the same in every call (`Executor.scatterWith_isolates`).
-/

namespace ShardFleet

variable {σ α : Type}

/-! ### Undisturbed calls -/

/-- Nothing has called the call off: neither its caller, who waits for it, nor a failure. -/
structure Run.Undisturbed (run : Run σ α) : Prop extends run.Awaited where
  going : run.halted = false
  kept : run.recalled = false

theorem Run.Undisturbed.wanted {run : Run σ α} (undisturbed : run.Undisturbed) :
    run.calledOff = false := by
  rw [calledOff, undisturbed.kept, undisturbed.unfired]
  rfl

/-- A call that tolerates failures stays undisturbed. -/
theorem Call.Move.undisturbed {call : Call σ α} {run next : Run σ α}
    (move : call.Move run next) (tolerant : call.options.tolerance = .bestEffort)
    (undisturbed : run.Undisturbed) : next.Undisturbed := by
  suffices steady : next.halted = false ∧ next.recalled = false from
    ⟨move.awaited undisturbed.toAwaited, steady.1, steady.2⟩
  obtain ⟨awaited, going, kept⟩ := undisturbed
  cases move with
  | handOut => exact ⟨going, kept⟩
  | notice _ _ _ fired =>
      rw [awaited.unfired] at fired
      cases fired
  | @record answer others =>
      have tolerated : run.recalls call.options.tolerance answer = false := by
        simp [Run.recalls, tolerant]
      rw [Run.record_eq, tolerated]
      exact ⟨by simp [going], by simp [kept]⟩
  | work =>
      rw [Run.hearCaller_eq]
      exact ⟨going, kept⟩
  | turn _ _ turn =>
      rw [Run.countTurn_eq, turn.frame]
      exact ⟨going, kept⟩
  | collect => exact ⟨going, kept⟩
  | moveOn =>
      rw [Run.hearCaller_eq]
      exact ⟨going, kept⟩

/-! ### Settled shards -/

/-- Every entry of the shard is this result, listed as called off exactly if it says so. -/
structure Gathered.Settles (gathered : Gathered α) (id : ShardId) (result : Except Error α) :
    Prop where
  answers : ∀ answer ∈ gathered.answers,
    answer.shard = id → answer.result = result ∧ result ≠ .error .cancelled
  cancelled : id ∈ gathered.cancelled → result = .error .cancelled

/-- Wherever the shard has its place in the call, it comes to the result or has come to it. -/
structure Run.Settles (call : Call σ α) (run : Run σ α) (id : ShardId)
    (result : Except Error α) : Prop where
  pending : ∀ shard ∈ run.pending, shard.id = id → ∀ start,
    ∃ finish, (call.invocation shard).EndsAt (· = result) finish start
  flights : ∀ flight ∈ run.flights, flight.shard = id →
    ∃ finish, flight.rest.EndsAt (· = result) finish flight.wake
  finished : ∀ answer ∈ run.finished, answer.shard = id → answer.result = result
  gathered : run.gathered.Settles id result

/-- Recording the result of the shard, or an outcome of another one. -/
theorem Gathered.Settles.record {gathered : Gathered α} {id : ShardId} {result : Except Error α}
    (settles : gathered.Settles id result) {answer : Answer α}
    (own : answer.shard = id → answer.result = result) :
    (gathered.record answer).Settles id result := by
  obtain ⟨answers, cancelled⟩ := settles
  constructor
  · intro other mem same
    rcases Gathered.mem_answers_record mem with earlier | ⟨rfl, kept⟩
    · exact answers other earlier same
    · exact ⟨own same, own same ▸ kept⟩
  · intro listed
    rcases Gathered.mem_cancelled_record listed with earlier | ⟨same, off⟩
    · exact cancelled earlier
    · exact (own same.symm).symm.trans off

/-- A turn brings the shard to its result, if it is the shard's own and the last one. -/
theorem Run.Settles.turn {call : Call σ α} {run served : Run σ α} {shard id : ShardId}
    {others : List ShardId} {result : Except Error α} (settles : run.Settles call id result)
    (orderly : run.Orderly) (wanted : run.calledOff = false) (queue : run.ready = shard :: others)
    (turn : { run with ready := others }.Turn shard served) : served.Settles call id result := by
  obtain ⟨pending, flights, finished, gathered⟩ := settles
  -- The flight that has the turn is due now, so what it does from now on is what it is settled on.
  have due : ∀ flight ∈ run.flights, flight.shard = shard → flight.wake = run.now :=
    fun flight flies same =>
      (orderly.flights flight flies).queues (by simp [queue, same]) wanted
  cases turn with
  | absent => exact ⟨pending, flights, finished, gathered⟩
  | givenUp found off => exact absurd (wanted.symm.trans off) (by simp)
  | @ended flight world ending found _ proceeds =>
      have flies := List.mem_of_find?_eq_some found
      have named := shard_of_find found
      refine ⟨pending, fun other mem => flights other (mem_finish.mp mem).1, ?_, gathered⟩
      intro answer mem same
      rcases List.mem_append.mp mem with earlier | new
      · exact finished answer earlier same
      · obtain rfl := List.mem_singleton.mp new
        obtain ⟨finish, ends⟩ := flights flight flies (named.trans same)
        rw [due flight flies named] at ends
        have left := ends.proceed run.world
        rw [proceeds] at left
        exact left.2
  | @asleep flight world ticks abandon rest found _ proceeds =>
      have flies := List.mem_of_find?_eq_some found
      have named := shard_of_find found
      refine ⟨pending, ?_, finished, gathered⟩
      intro waiting mem same
      obtain ⟨other, otherFlies, rfl⟩ := List.mem_map.mp mem
      by_cases own : other.shard = shard
      · rw [if_pos own] at same ⊢
        obtain ⟨finish, ends⟩ := flights flight flies same
        rw [due flight flies named] at ends
        have left := ends.proceed run.world
        rw [proceeds] at left
        exact ⟨finish, left⟩
      · rw [if_neg own] at same ⊢
        exact flights other otherFlies same

/-- Every move of an undisturbed call keeps a shard settled. -/
theorem Call.Move.settles {call : Call σ α} {run next : Run σ α} (move : call.Move run next)
    (orderly : run.Orderly) (undisturbed : run.Undisturbed) {id : ShardId}
    {result : Except Error α} (settles : run.Settles call id result) :
    next.Settles call id result := by
  cases move with
  | @handOut shard others _ queue =>
      obtain ⟨pending, flights, finished, gathered⟩ := settles
      rw [queue] at pending
      refine ⟨fun other mem => pending other (List.mem_cons_of_mem _ mem), ?_, finished, gathered⟩
      intro flight mem same
      rcases List.mem_append.mp mem with flies | new
      · exact flights flight flies same
      · obtain rfl := List.mem_singleton.mp new
        exact pending shard List.mem_cons_self same run.now
  | notice _ _ _ fired =>
      rw [undisturbed.unfired] at fired
      cases fired
  | @record answer others _ _ _ queue =>
      obtain ⟨pending, flights, finished, gathered⟩ := settles
      rw [queue] at finished
      rw [Run.record_eq]
      exact ⟨pending, flights, fun other mem => finished other (List.mem_cons_of_mem _ mem),
        gathered.record (finished answer List.mem_cons_self)⟩
  | work =>
      rw [Run.hearCaller_eq]
      exact ⟨settles.pending, settles.flights, settles.finished, settles.gathered⟩
  | @turn shard others served _ queue turn =>
      have later := settles.turn orderly undisturbed.wanted queue turn
      rw [Run.countTurn_eq]
      exact ⟨later.pending, later.flights, later.finished, later.gathered⟩
  | collect => exact ⟨settles.pending, settles.flights, settles.finished, settles.gathered⟩
  | moveOn =>
      rw [Run.hearCaller_eq]
      exact ⟨settles.pending, settles.flights, settles.finished, settles.gathered⟩

theorem Call.Reaches.undisturbed {call : Call σ α} {start run : Run σ α}
    (reaches : call.Reaches start run) (tolerant : call.options.tolerance = .bestEffort)
    (undisturbed : start.Undisturbed) : run.Undisturbed :=
  reaches.keeps (fun held move => move.undisturbed tolerant held) undisturbed

/-- A shard that is settled stays settled to the end of the call. -/
theorem Call.Reaches.settles {call : Call σ α} {start run : Run σ α}
    (reaches : call.Reaches start run) (tolerant : call.options.tolerance = .bestEffort)
    (orderly : start.Orderly) (undisturbed : start.Undisturbed) {id : ShardId}
    {result : Except Error α} (settles : start.Settles call id result) :
    run.Settles call id result := by
  induction reaches with
  | refl => exact settles
  | @tail middle next earlier step ih =>
      exact (step_eq_some_iff.mp step).settles (Reaches.orderly earlier orderly)
        (Reaches.undisturbed earlier tolerant undisturbed) ih

/-! ### The entry of one shard -/

/-- What is gathered of one shard. -/
def Gathered.only (gathered : Gathered α) (id : ShardId) : Gathered α :=
  { gathered with
    answers := gathered.answers.filter (·.shard = id)
    cancelled := gathered.cancelled.filter (· = id)
    skipped := gathered.skipped.filter (· = id) }

namespace Gathered

/-- A shard that was called off has no answer and is listed as called off. -/
theorem Settles.only_cancelled {gathered : Gathered α} {id : ShardId}
    (settles : gathered.Settles id (.error .cancelled)) (once : gathered.recorded.count id = 1) :
    gathered.answers.filter (·.shard = id) = [] ∧ gathered.cancelled.filter (· = id) = [id] := by
  have silent : ∀ answer ∈ gathered.answers, answer.shard ≠ id :=
    fun answer mem same => (settles.answers answer mem same).2 rfl
  have none : (gathered.answers.map Answer.shard).count id = 0 :=
    List.count_eq_zero.mpr fun mem => by
      obtain ⟨answer, listed, same⟩ := List.mem_map.mp mem
      exact silent answer listed same
  constructor
  · exact List.filter_eq_nil_iff.mpr fun answer mem => by simpa using silent answer mem
  · rw [recorded, List.count_append, none, Nat.zero_add] at once
    rw [List.filter_eq, once]
    rfl

/-- A shard that was not called off has its result as its one answer. -/
theorem Settles.only_answer {gathered : Gathered α} {id : ShardId} {result : Except Error α}
    (settles : gathered.Settles id result) (kept : result ≠ .error .cancelled)
    (once : gathered.recorded.count id = 1) :
    gathered.answers.filter (·.shard = id) = [⟨id, result⟩] ∧
      gathered.cancelled.filter (· = id) = [] := by
  have unlisted : id ∉ gathered.cancelled := fun listed => kept (settles.cancelled listed)
  rw [recorded, List.count_append, List.count_eq_zero.mpr unlisted, Nat.add_zero,
    List.count_eq_countP, List.countP_map, List.countP_eq_length_filter] at once
  obtain ⟨answer, sole⟩ := List.length_eq_one_iff.mp once
  have mem : answer ∈ gathered.answers.filter ((· == id) ∘ Answer.shard) := by simp [sole]
  obtain ⟨listed, same⟩ := List.mem_filter.mp mem
  have named : answer.shard = id := by simpa using same
  have entry : answer = ⟨id, result⟩ := by
    rw [← named, ← (settles.answers answer listed named).1]
  constructor
  · rw [← entry, ← sole]
    rfl
  · refine List.filter_eq_nil_iff.mpr fun other mem => ?_
    simpa using fun same : other = id => unlisted (same ▸ mem)

/-- A settled shard that has one entry and was started has its result as its entry. -/
theorem Settles.only_eq {gathered : Gathered α} {id : ShardId} {result : Except Error α}
    (settles : gathered.Settles id result) (once : gathered.roll.count id = 1)
    (started : gathered.skipped = []) (unheard : gathered.callerCancelled = false) :
    gathered.only id = Gathered.record {} ⟨id, result⟩ := by
  rw [roll, started, List.append_nil] at once
  by_cases off : result = .error .cancelled
  · subst off
    obtain ⟨silent, listed⟩ := settles.only_cancelled once
    rw [only, silent, listed, started, unheard]
    rfl
  · obtain ⟨answered, unlisted⟩ := settles.only_answer off once
    rw [record_answer _ off, only, answered, unlisted, started, unheard]
    rfl

end Gathered

namespace Executor

/-- The call targets the shard, no failure stops it, and its caller never cancels. -/
structure Tolerates (executor : Executor) (options : ScatterOptions) (targets : Targets)
    (moment : Moment σ) (shard : Shard) : Prop where
  known : executor.topology.find? shard.id = some shard
  covered : targets.Covers executor.topology shard.id
  tolerant : options.tolerance = .bestEffort
  patient : moment.cancellation = .never

/-- For a caller who waits a call on one shard is its invocation on its own. -/
theorem on_performs {executor : Executor} {shard : Shard} {operation : Shard → Operation σ α}
    (known : executor.topology.find? shard.id = some shard) {moment : Moment σ}
    (patient : moment.cancellation = .never) :
    executor.on shard.id operation moment =
      (executor.invocation operation shard).perform moment := by
  have found : executor.topology.get shard.id = .ok shard := by
    rw [Topology.get, known]
  have attempts : executor.attempt shard.id operation false =
      executor.invocation operation shard := by
    unfold attempt
    rw [found]
    rfl
  have performs : executor.on shard.id operation moment =
      (executor.attempt shard.id operation moment.cancellation.hasFired).perform moment := rfl
  rw [performs, Cancellation.unfired patient, attempts]

/-- An invocation of one shard on its own comes to what its operation is reported as. -/
theorem on_eq {executor : Executor} {shard : Shard} {operation : Shard → Operation σ α}
    {behaviour : Behaviour α} (behaves : (operation shard).Behaves behaviour)
    (known : executor.topology.find? shard.id = some shard) {moment : Moment σ}
    (patient : moment.cancellation = .never) :
    (executor.on shard.id operation moment).1 =
      behaviour.verdict (.shardTimeout shard.id executor.options.limit)
        executor.options.limit.ticks := by
  obtain ⟨finish, ends⟩ := behaves.within
    (.shardTimeout shard.id executor.options.limit) executor.options.limit.ticks moment.now
  obtain ⟨result, runs, rfl⟩ := ends.run patient
  rw [on_performs known patient]
  exact congrArg (Option.getD · _) runs

theorem start_undisturbed (executor : Executor) {options : ScatterOptions} (targets : Targets)
    (operation : Shard → Operation σ α) {moment : Moment σ}
    (tolerant : options.tolerance = .bestEffort) (patient : moment.cancellation = .never) :
    (executor.start options targets operation moment).Undisturbed := by
  refine ⟨executor.start_awaited options targets operation patient, ?_, rfl⟩
  simp [start, Call.begin, patient, Cancellation.hasFired, tolerant]

/-- When a call begins, a shard of its topology is settled on what its operation is reported
as. -/
theorem start_settles {executor : Executor} {options : ScatterOptions} {targets : Targets}
    {operation : Shard → Operation σ α} {shard : Shard} {behaviour : Behaviour α}
    (behaves : (operation shard).Behaves behaviour)
    (known : executor.topology.find? shard.id = some shard) (moment : Moment σ) :
    (executor.start options targets operation moment).Settles ⟨operation, options⟩ shard.id
      (behaviour.verdict (.shardTimeout shard.id options.limit) options.limit.ticks) where
  pending := by
    intro other mem same start
    obtain ⟨id, -, found⟩ := List.mem_filterMap.mp mem
    have named : other.id = id := by simpa using List.find?_some found
    have equal : other = shard := by
      rw [← named, same, known] at found
      exact (Option.some.inj found).symm
    subst equal
    exact behaves.within _ _ _
  flights := fun _ absent => by cases absent
  finished := fun _ absent => by cases absent
  gathered := by
    constructor
    · intro answer mem same
      obtain ⟨id, stray, rfl⟩ := List.mem_map.mp mem
      have missing := (List.mem_filter.mp stray).2
      simp only at same
      simp [same, Topology.contains, known] at missing
    · intro absent
      cases absent

/-- What a call that tolerates failures brings in for one of its shards. -/
theorem only_of_tolerates {executor : Executor} {options : ScatterOptions} {targets : Targets}
    {operation : Shard → Operation σ α} {moment : Moment σ} {shard : Shard}
    {behaviour : Behaviour α} (behaves : (operation shard).Behaves behaviour)
    (tolerates : executor.Tolerates options targets moment shard) :
    let gathered := (executor.scatterWith options targets operation moment).1
    gathered.skipped = [] ∧ gathered.only shard.id = Gathered.record {} ⟨shard.id,
      behaviour.verdict (.shardTimeout shard.id options.limit) options.limit.ticks⟩ := by
  obtain ⟨last, ends, whole⟩ := executor.scatterWith_ends options targets operation moment
  obtain ⟨known, covered, tolerant, patient⟩ := tolerates
  have begun := executor.start_undisturbed targets operation tolerant patient
  have undisturbed := ends.1.undisturbed tolerant begun
  have settles := ends.1.settles tolerant (executor.start_orderly options targets operation moment)
    begun (start_settles behaves known moment)
  have handed := (Call.step_eq_none_iff.mp ends.2).2.2.2 undisturbed.going
  have started : last.outcome.skipped = [] := by
    simp [Run.outcome, handed]
  have once := (count_of_ends ends shard.id).trans (if_pos covered)
  have settled : last.outcome.Settles shard.id _ :=
    ⟨settles.gathered.answers, settles.gathered.cancelled⟩
  rw [whole]
  exact ⟨started, settled.only_eq once started undisturbed.unheard⟩

/-- In a call that tolerates failures and whose caller never cancels, what comes in for a shard
is what an invocation of it alone comes to, provided that its operation does the same on every
occasion, counted from its own start. Nothing is skipped, and any two such calls with the same
operation on the shard and the same time limit bring in the same for it, whatever they do on other
shards, and however many they invoke at once and in whichever order. -/
theorem scatterWith_isolates {executor : Executor} {options : ScatterOptions}
    {targets : Targets} (operation : Shard → Operation σ α) {moment : Moment σ} {shard : Shard}
    {behaviour : Behaviour α} (behaves : (operation shard).Behaves behaviour)
    (tolerates : executor.Tolerates options targets moment shard) :
    let gathered := (executor.scatterWith options targets operation moment).1
    gathered.skipped = [] ∧
    gathered.only shard.id = Gathered.record {} ⟨shard.id,
      behaviour.verdict (.shardTimeout shard.id options.limit) options.limit.ticks⟩ ∧
    (∀ (single : Executor) (alone : Moment σ),
      single.topology.find? shard.id = some shard → single.options.limit = options.limit →
      alone.cancellation = .never →
      gathered.only shard.id =
        Gathered.record {} ⟨shard.id, (single.on shard.id operation alone).1⟩) ∧
    (∀ (other : Executor) (otherOptions : ScatterOptions) (otherTargets : Targets)
      (otherOperation : Shard → Operation σ α) (otherMoment : Moment σ),
      other.Tolerates otherOptions otherTargets otherMoment shard →
      otherOptions.limit = options.limit → otherOperation shard = operation shard →
      (other.scatterWith otherOptions otherTargets otherOperation otherMoment).1.only shard.id =
        gathered.only shard.id) := by
  obtain ⟨started, entry⟩ := only_of_tolerates behaves tolerates
  refine ⟨started, entry, ?_, ?_⟩
  · intro single alone known limit patient
    rw [on_eq behaves known patient, limit]
    exact entry
  · intro other otherOptions otherTargets otherOperation otherMoment otherTolerates limit same
    have otherBehaves : (otherOperation shard).Behaves behaviour := by rwa [same]
    rw [(only_of_tolerates otherBehaves otherTolerates).2, limit]
    exact entry.symm

/-- Of two shards that are invoked one after the other the first hangs to the end of its time
limit; the second takes as long as its own limit allows, and succeeds. -/
theorem scatterWith_isolates_second :
    let options : ScatterOptions := { maxConcurrency := 1, limit := .ofMillis 20 }
    let script := fun shard : Shard =>
      if shard = .first then ({ finale := .hang } : Script) else { delay := .ofMillis 20 }
    let gathered := ((withDefaults .pair).scatterWith options .all
      (fun shard => (script shard).operation shard) { now := 0, world := {} }).1
    gathered.skipped = [] ∧ gathered.only Shard.second.id =
      Gathered.record {} ⟨Shard.second.id, .ok Shard.second.endpoint⟩ := by
  intro options script gathered
  have waits : script .second = { delay := .ofMillis 20 } := if_neg (by decide)
  have behaves := (script .second).operation_behaves .second
  have tolerates : (withDefaults .pair).Tolerates options .all
      ({ now := 0, world := {} } : Moment Stage) .second :=
    ⟨rfl, by decide, rfl, rfl⟩
  have inTime : ((script .second).behaviour .second).verdict
      (.shardTimeout Shard.second.id options.limit) options.limit.ticks =
        .ok Shard.second.endpoint := by
    rw [waits]
    exact if_pos (by decide)
  obtain ⟨started, entry, -⟩ := scatterWith_isolates
    (fun shard => (script shard).operation shard) behaves tolerates
  rw [inTime] at entry
  exact ⟨started, entry⟩

end Executor

end ShardFleet
