import ShardFleet.Proofs.Scatter.FailFast
import ShardFleet.Proofs.Topology

/-!
Calls that invoke one shard at a time and stop at the first failure.

While an invocation is under way, and as long as the call goes on, everything that came in is a
value (`Gathered.Spotless`); so at most the last outcome of the call is none
(`Gathered.CleanCut`). The shards stand in line throughout: those that have come in, then the one
that is under way, then those that wait to be handed out (`Run.InLine`).

Together the two say that such a call cuts its shards in the order in which they were to be
visited (`Executor.scatterWith_inLine`).
-/

namespace ShardFleet

variable {σ α : Type}

/-! ### What came in -/

namespace Gathered

/-- Everything that came in is a value. -/
structure Spotless (gathered : Gathered α) : Prop where
  values : ∀ answer ∈ gathered.answers, ∃ value, answer.result = .ok value
  cancelled : gathered.cancelled = []

/-- At most the last thing that came in is no value: either a failure, or an invocation that was
called off. -/
structure CleanCut (gathered : Gathered α) : Prop where
  values : ∀ answer ∈ gathered.answers.dropLast, ∃ value, answer.result = .ok value
  failed : ∀ answer error, gathered.answers.getLast? = some answer →
    answer.result = .error error → gathered.cancelled = []
  cancelled : gathered.cancelled.length ≤ 1

variable {gathered : Gathered α} {answer : Answer α}

theorem Spotless.failures_eq_nil (spotless : gathered.Spotless) : gathered.failures = [] := by
  refine List.filterMap_eq_nil_iff.mpr fun answer mem => ?_
  obtain ⟨value, success⟩ := spotless.values answer mem
  rw [success]

theorem Spotless.cleanCut (spotless : gathered.Spotless) : gathered.CleanCut where
  values answer mem := spotless.values answer (List.dropLast_subset _ mem)
  failed _ _ _ _ := spotless.cancelled
  cancelled := by simp [spotless.cancelled]

theorem Spotless.record_value (spotless : gathered.Spotless) {value : α}
    (success : answer.result = .ok value) : (gathered.record answer).Spotless := by
  rw [gathered.record_answer (by simp [success])]
  refine ⟨fun other mem => ?_, spotless.cancelled⟩
  rcases List.mem_append.mp mem with earlier | new
  · exact spotless.values other earlier
  · rw [List.mem_singleton.mp new]
    exact ⟨value, success⟩

/-- Whatever comes in after nothing but values. -/
theorem Spotless.record (spotless : gathered.Spotless) (answer : Answer α) :
    (gathered.record answer).CleanCut := by
  by_cases off : answer.result = .error .cancelled
  · obtain ⟨shard, result⟩ := answer
    subst off
    rw [record_cancelled]
    refine ⟨spotless.cleanCut.values, fun last error found failed => ?_, ?_⟩
    · obtain ⟨value, success⟩ := spotless.values last (List.mem_of_getLast? found)
      rw [success] at failed
      cases failed
    · simp [spotless.cancelled]
  · rw [gathered.record_answer off]
    refine ⟨fun other mem => ?_, fun _ _ _ _ => spotless.cancelled, ?_⟩
    · rw [List.dropLast_concat] at mem
      exact spotless.values other mem
    · simp [spotless.cancelled]

end Gathered

/-! ### Shards in line -/

/-- The shards of a call stand in line: what came in, at most one invocation under way, and what
is not handed out. Nothing but values came in as long as anything is under way or the call goes
on. -/
structure Run.InLine (ids : List ShardId) (run : Run σ α) : Prop where
  order : run.roll = ids
  alone : run.inFlight ≤ 1
  heeded : run.gathered.callerCancelled = true → run.halted = true
  spotless : run.inFlight ≠ 0 ∨ run.halted = false → run.gathered.Spotless
  clean : run.gathered.CleanCut

namespace Run

variable {ids : List ShardId} {run next : Run σ α}

/-- Nothing comes in and nothing is handed out. -/
theorem InLine.same (inLine : run.InLine ids) (gathered : next.gathered = run.gathered)
    (finished : next.finished = run.finished) (flights : next.flights = run.flights)
    (pending : next.pending = run.pending) (halted : next.halted = run.halted) :
    next.InLine ids := by
  obtain ⟨order, alone, heeded, spotless, clean⟩ := inLine
  have roll : next.roll = run.roll := by simp only [Run.roll, gathered, finished, flights, pending]
  have inFlight : next.inFlight = run.inFlight := by simp only [Run.inFlight, finished, flights]
  constructor <;> simpa only [roll, inFlight, gathered, halted]

/-- What flies is all that is under way. -/
theorem InLine.flights_eq (inLine : run.InLine ids) {flight : Flight σ α}
    (flies : flight ∈ run.flights) : run.flights = [flight] ∧ run.finished = [] := by
  have alone := inLine.alone
  unfold inFlight at alone
  have some := List.length_pos_of_mem flies
  have finished : run.finished = [] := List.eq_nil_of_length_eq_zero (by omega)
  obtain ⟨only, single⟩ := List.length_eq_one_iff.mp (show run.flights.length = 1 by omega)
  rw [single] at flies ⊢
  exact ⟨by rw [List.mem_singleton.mp flies], finished⟩

theorem InLine.finish (inLine : run.InLine ids) {flight : Flight σ α}
    (flies : flight ∈ run.flights) (world : σ) (result : Except Error α) :
    ({ run with world }.finish flight.shard result).InLine ids := by
  obtain ⟨single, none⟩ := inLine.flights_eq flies
  obtain ⟨order, -, heeded, spotless, clean⟩ := inLine
  have busy : run.inFlight ≠ 0 := by simp [inFlight, single]
  refine ⟨?_, ?_, heeded, fun _ => spotless (.inl busy), clean⟩
  · simpa [roll, Run.finish, single, none] using order
  · simp [inFlight, Run.finish, single, none]

theorem InLine.turn (inLine : run.InLine ids) {shard : ShardId} {served : Run σ α}
    (turn : run.Turn shard served) : served.InLine ids := by
  cases turn with
  | absent => exact inLine
  | givenUp found off =>
      obtain rfl := shard_of_find found
      exact inLine.finish (List.mem_of_find?_eq_some found) _ _
  | ended found wanted proceeds =>
      obtain rfl := shard_of_find found
      exact inLine.finish (List.mem_of_find?_eq_some found) _ _
  | asleep found wanted proceeds =>
      obtain ⟨order, alone, heeded, spotless, clean⟩ := inLine
      refine ⟨?_, ?_, heeded, fun busy => spotless ?_, clean⟩
      · simp only [roll, fallAsleep_shards run.flights (shard_of_find found)]
        exact order
      · simpa [inFlight] using alone
      · simpa [inFlight] using busy

/-- What comes in is all that was under way. The call goes on only if it is a value: a failure is
not tolerated, and nothing is called off before the call has halted. -/
theorem InLine.record (inLine : run.InLine ids) {tolerance : Tolerance}
    (fast : tolerance = .failFast) {answer : Answer α} {others : List (Answer α)}
    (finished : run.finished = answer :: others)
    (off : answer.result = .error .cancelled → run.halted = true) :
    (run.record tolerance answer others).InLine ids := by
  obtain ⟨order, alone, heeded, spotless, -⟩ := inLine
  have busy : run.inFlight ≠ 0 := by simp [inFlight, finished]
  have before := spotless (.inl busy)
  have none : run.flights = [] ∧ others = [] := by
    simp only [inFlight, finished, List.length_cons] at alone
    exact ⟨List.eq_nil_of_length_eq_zero (by omega), List.eq_nil_of_length_eq_zero (by omega)⟩
  have recorded : (run.gathered.record answer).recorded =
      run.gathered.recorded ++ [answer.shard] := by
    unfold Gathered.record
    split <;> simp [Gathered.recorded, before.cancelled]
  rw [record_eq]
  refine ⟨?_, by simp [inFlight, none], fun told => ?_, fun going => ?_, before.record answer⟩
  · rw [← order, roll, roll, finished, none.1, none.2, recorded]
    simp
  · rw [Gathered.record_callerCancelled] at told
    simp [heeded told]
  · have going : run.halted = false ∧ run.recalls tolerance answer = false := by
      simpa [inFlight, none] using going
    cases result : answer.result with
    | ok value => exact before.record_value result
    | error error =>
        -- Neither way to end without a value leaves the call going.
        by_cases cancelled : error = .cancelled
        · rw [off (cancelled ▸ result)] at going
          cases going.1
        · have failure : answer.isFailure = true := by
            unfold Answer.isFailure
            rw [result]
            cases error <;> first | rfl | exact absurd rfl cancelled
          have recalled := going.2
          simp [recalls, failure, fast, going.1] at recalled

end Run

/-- With room for one invocation every move keeps the shards in line. -/
theorem Call.Move.inLine {call : Call σ α} {ids : List ShardId} {run next : Run σ α}
    (move : call.Move run next) (single : call.window = 1)
    (fast : call.options.tolerance = .failFast)
    (traced : run.Traced call fun result => result ≠ .error .cancelled)
    (inLine : run.InLine ids) : next.InLine ids := by
  cases move with
  | @handOut shard others _ pending going room =>
      obtain ⟨order, -, heeded, spotless, clean⟩ := inLine
      have idle : run.flights = [] ∧ run.finished = [] := by
        rw [single, Run.inFlight] at room
        exact ⟨List.eq_nil_of_length_eq_zero (by omega), List.eq_nil_of_length_eq_zero (by omega)⟩
      refine ⟨?_, ?_, heeded, fun _ => spotless (.inr going), clean⟩
      · rw [← order, Run.roll, Run.roll, pending]
        simp [Call.handOut]
      · simp [Run.inFlight, Call.handOut, idle]
  | notice _ _ busy =>
      obtain ⟨order, alone, -, spotless, clean⟩ := inLine
      have before := spotless (.inl busy)
      exact ⟨order, alone, fun _ => rfl, fun _ => ⟨before.values, before.cancelled⟩,
        ⟨clean.values, clean.failed, clean.cancelled⟩⟩
  | @record answer others _ _ seen finished =>
      refine inLine.record fast finished fun off => inLine.heeded (seen ?_)
      have busy : run.inFlight ≠ 0 := by simp [Run.inFlight, finished]
      have cause := (traced.finished answer (finished ▸ List.mem_cons_self)).resolve_left
        fun other => other off
      exact cause.2.resolve_left fun failed =>
        failed (inLine.spotless (.inl busy)).failures_eq_nil
  | work =>
      rw [Run.hearCaller_eq]
      exact inLine.same rfl rfl rfl rfl rfl
  | @turn shard others served _ _ turn =>
      have queued : Run.InLine ids { run with ready := others } := inLine.same rfl rfl rfl rfl rfl
      rw [Run.countTurn_eq]
      exact (queued.turn turn).same rfl rfl rfl rfl rfl
  | collect => exact inLine.same rfl rfl rfl rfl rfl
  | moveOn =>
      rw [Run.hearCaller_eq]
      exact inLine.same rfl rfl rfl rfl rfl

theorem Call.Reaches.inLine {call : Call σ α} {ids : List ShardId} {start run : Run σ α}
    (reaches : call.Reaches start run) (single : call.window = 1)
    (fast : call.options.tolerance = .failFast)
    (traced : start.Traced call fun result => result ≠ .error .cancelled)
    (inLine : start.InLine ids) : run.InLine ids := by
  induction reaches with
  | refl => exact inLine
  | tail earlier step ih =>
      exact (step_eq_some_iff.mp step).inLine single fast (Call.Reaches.traced earlier traced) ih

namespace Executor

variable {executor : Executor} {options : ScatterOptions} {operation : Shard → Operation σ α}

theorem strays_all (topology : Topology) : Targets.all.strays topology = [] :=
  Targets.strays_eq_nil fun _ listed => listed

theorem start_inLine (executor : Executor) (options : ScatterOptions)
    (operation : Shard → Operation σ α) (moment : Moment σ) :
    (executor.start options .all operation moment).InLine executor.topology.ids := by
  have none := strays_all executor.topology
  have all : executor.topology.ids.filter executor.topology.contains = executor.topology.ids := by
    refine List.filter_eq_self.mpr fun id mem => ?_
    simpa using List.filter_eq_nil_iff.mp none id mem
  have spotless : (executor.start options .all operation moment).gathered.Spotless :=
    ⟨by simp [start, Call.begin, none], rfl⟩
  refine ⟨?_, Nat.zero_le 1, ?_, fun _ => spotless, spotless.cleanCut⟩
  · rw [start_roll, none, List.nil_append, Targets.known, Targets.known_ids]
    exact all
  · intro told
    exact Bool.or_eq_true_iff.mpr (.inl told)

/-- A call on all shards that invokes one at a time and does not tolerate failures, with sincere
operations, has an outcome for each shard in their order up to some place, from where on it skips
them; and all outcomes but the last are values. -/
theorem scatterWith_inLine (moment : Moment σ) (single : options.maxConcurrency ≤ 1)
    (fast : options.tolerance = .failFast)
    (sincere : ∀ shard ∈ Targets.all.known executor.topology, (operation shard).Sincere) :
    let gathered := (executor.scatterWith options .all operation moment).1
    gathered.roll = executor.topology.ids ∧ gathered.CleanCut := by
  obtain ⟨last, ends, whole⟩ := executor.scatterWith_ends options .all operation moment
  have window : Call.window ⟨operation, options⟩ = 1 := by
    simp only [Call.window]
    omega
  have inLine := ends.1.inLine window fast (traced_of_sincere sincere)
    (executor.start_inLine options operation moment)
  simp only [whole]
  exact ⟨(Call.roll_of_over ends.2).trans inLine.order,
    inLine.clean.values, inLine.clean.failed, inLine.clean.cancelled⟩

end Executor

end ShardFleet
