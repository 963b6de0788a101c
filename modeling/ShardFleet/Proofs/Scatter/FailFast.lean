import ShardFleet.Proofs.Scatter.Conservation
import ShardFleet.Proofs.Scatter.Scripts

/-!
Calls that stop at the first failure.

Nothing stops a call without a cause: a failure that it has recorded, or its caller
(`Run.HasCause`). Whatever is called off or never handed out is traced to such a cause
(`Run.Traced`), provided that no operation claims to have been called off. A call that does not
tolerate failures is stopped by the first that it records (`Call.Move.stopped_of_failed`), and
resumes no operation from then on. Up to the first failure it makes the same moves as a call that
tolerates failures (`Call.Move.tolerating`).

The three together say what the caller of such a call can rely on
(`Executor.scatterWith_failFast`).
-/

namespace ShardFleet

variable {σ α : Type}

/-! ### Recorded failures -/

namespace Gathered

theorem failures_record_of_kept {gathered : Gathered α} {answer : Answer α}
    (kept : answer.isFailure = false) : (gathered.record answer).failures = gathered.failures := by
  obtain ⟨shard, result⟩ := answer
  cases result with
  | ok value => simp [record, failures]
  | error error =>
      cases error with
      | cancelled => rfl
      | _ => cases kept

theorem failures_record_of_failure (gathered : Gathered α) {answer : Answer α}
    (failure : answer.isFailure = true) : (gathered.record answer).failures ≠ [] := by
  have different : answer.result ≠ .error .cancelled := by
    intro off
    simp [Answer.isFailure, off] at failure
  rw [record_answer _ different]
  obtain ⟨shard, result⟩ := answer
  cases result with
  | ok value => cases failure
  | error error => simp [failures]

theorem Extends.failures_ne_nil {later earlier : Gathered α} (further : later.Extends earlier)
    (failed : earlier.failures ≠ []) : later.failures ≠ [] := by
  obtain ⟨more, answers⟩ := further.answers
  rw [failures, ← answers, List.filterMap_append]
  exact List.append_ne_nil_of_left_ne_nil failed _

/-- If anything failed, that is what is reported, and not that the call was cut short. -/
theorem toResult_of_failed {gathered : Gathered α} (failed : gathered.failures ≠ []) :
    gathered.toResult =
      .error (.partialFailure gathered.successes.length gathered.failures) :=
  if_pos (by simpa using failed)

end Gathered

/-! ### Causes -/

/-- There is a cause to stop: a failure is recorded, or the caller has cancelled. -/
def Run.HasCause (run : Run σ α) : Prop :=
  run.gathered.failures ≠ [] ∨ run.cancellation.hasFired = true

theorem Run.fired_hearCaller (run : Run σ α) (fired : run.cancellation.hasFired = true) :
    run.hearCaller.cancellation.hasFired = true := by
  rw [hearCaller_eq]
  cases caller : run.cancellation with
  | never => simp [caller, Cancellation.hasFired] at fired
  | due instant => simp [caller, Cancellation.hasFired] at fired
  | fired => rfl

namespace Call

/-- A caller who has cancelled stays so. -/
theorem Move.fired {call : Call σ α} {run next : Run σ α} (move : call.Move run next)
    (fired : run.cancellation.hasFired = true) : next.cancellation.hasFired = true := by
  cases move with
  | handOut => exact fired
  | notice => exact fired
  | record =>
      rw [Run.record_eq]
      exact fired
  | work => exact run.atWork.fired_hearCaller fired
  | turn _ _ turn =>
      rw [Run.countTurn_eq, turn.frame]
      exact fired
  | collect => exact fired
  | moveOn => exact run.atNextInstant.fired_hearCaller fired

/-- A cause to stop does not go away. -/
theorem Move.hasCause {call : Call σ α} {run next : Run σ α} (move : call.Move run next)
    (cause : run.HasCause) : next.HasCause :=
  cause.imp move.extends.failures_ne_nil move.fired

end Call

/-! ### What comes about -/

/-- What comes about is one of `results`, or was called off for a cause; and the call goes on
unless there is a cause to stop. -/
structure Run.Traced (call : Call σ α) (results : Except Error α → Prop) (run : Run σ α) :
    Prop where
  pending : ∀ shard ∈ run.pending, (call.invocation shard).Yields results
  flights : ∀ flight ∈ run.flights, flight.rest.Yields results
  finished : ∀ answer ∈ run.finished,
    results answer.result ∨ answer.result = .error .cancelled ∧ run.HasCause
  answers : ∀ answer ∈ run.gathered.answers, results answer.result
  cancelled : ∀ id ∈ run.gathered.cancelled, results (.error .cancelled) ∨ run.HasCause
  halted : run.halted = true → run.HasCause
  recalled : run.recalled = true → run.HasCause

namespace Run

variable {call : Call σ α} {results : Except Error α → Prop}

theorem Traced.calledOff {run : Run σ α} (traced : run.Traced call results)
    (off : run.calledOff = true) : run.HasCause := by
  rcases Bool.or_eq_true_iff.mp off with recalled | fired
  · exact traced.recalled recalled
  · exact .inr fired

/-- Moving on without a new outcome. -/
theorem Traced.same {run next : Run σ α} (traced : run.Traced call results)
    (cause : run.HasCause → next.HasCause) (pending : next.pending = run.pending)
    (flights : next.flights = run.flights) (finished : next.finished = run.finished)
    (gathered : next.gathered = run.gathered) (halted : next.halted = run.halted)
    (recalled : next.recalled = run.recalled) : next.Traced call results where
  pending := pending ▸ traced.pending
  flights := flights ▸ traced.flights
  finished := by
    rw [finished]
    exact fun answer mem => (traced.finished answer mem).imp_right (And.imp_right cause)
  answers := gathered ▸ traced.answers
  cancelled := by
    rw [gathered]
    exact fun id listed => (traced.cancelled id listed).imp_right cause
  halted := by
    rw [halted]
    exact fun stopped => cause (traced.halted stopped)
  recalled := by
    rw [recalled]
    exact fun stopped => cause (traced.recalled stopped)

/-- A turn ends an invocation with what its operation comes to, or gives it up for a cause. -/
theorem Traced.turn {run served : Run σ α} {shard : ShardId} (traced : run.Traced call results)
    (turn : run.Turn shard served) : served.Traced call results := by
  have reason := traced.calledOff
  obtain ⟨pending, flights, finished, answers, cancelled, halted, recalled⟩ := traced
  cases turn with
  | absent => exact ⟨pending, flights, finished, answers, cancelled, halted, recalled⟩
  | givenUp _ off =>
      refine ⟨pending, fun other mem => flights other (mem_finish.mp mem).1, ?_, answers,
        cancelled, halted, recalled⟩
      intro answer mem
      rcases List.mem_append.mp mem with earlier | new
      · exact finished answer earlier
      · rw [List.mem_singleton.mp new]
        exact .inr ⟨rfl, reason off⟩
  | ended found _ proceeds =>
      refine ⟨pending, fun other mem => flights other (mem_finish.mp mem).1, ?_, answers,
        cancelled, halted, recalled⟩
      intro answer mem
      rcases List.mem_append.mp mem with earlier | new
      · exact finished answer earlier
      · rw [List.mem_singleton.mp new]
        have left := (flights _ (List.mem_of_find?_eq_some found)).proceed run.now run.world
        rw [proceeds] at left
        exact .inl left
  | asleep found _ proceeds =>
      refine ⟨pending, ?_, finished, answers, cancelled, halted, recalled⟩
      intro waiting mem
      obtain ⟨other, flies, rfl⟩ := List.mem_map.mp mem
      split
      · have left := (flights _ (List.mem_of_find?_eq_some found)).proceed run.now run.world
        rw [proceeds] at left
        exact left
      · exact flights other flies

/-- Recording an outcome: an answer comes from an operation, and what was called off had a
cause. -/
theorem Traced.record {run : Run σ α} (traced : run.Traced call results) {answer : Answer α}
    {others : List (Answer α)} (queue : run.finished = answer :: others) (tolerance : Tolerance)
    (cause : run.HasCause → (run.record tolerance answer others).HasCause) :
    (run.record tolerance answer others).Traced call results := by
  obtain ⟨pending, flights, finished, answers, cancelled, halted, recalled⟩ := traced
  rw [queue] at finished
  have own := finished answer List.mem_cons_self
  have recalls : run.recalls tolerance answer = true →
      (run.gathered.record answer).failures ≠ [] := by
    intro recalls
    simp only [Run.recalls, Bool.and_eq_true] at recalls
    exact run.gathered.failures_record_of_failure recalls.1.1
  rw [record_eq] at cause ⊢
  refine ⟨pending, flights, ?_, ?_, ?_, ?_, ?_⟩
  · intro other mem
    exact (finished other (List.mem_cons_of_mem _ mem)).imp_right (And.imp_right cause)
  · intro other mem
    rcases Gathered.mem_answers_record mem with earlier | ⟨rfl, kept⟩
    · exact answers other earlier
    · exact own.resolve_right fun given => kept given.1
  · intro id listed
    rcases Gathered.mem_cancelled_record listed with earlier | ⟨-, off⟩
    · exact (cancelled id earlier).imp_right cause
    · exact off ▸ own.imp_right fun given => cause given.2
  · intro stopped
    rcases Bool.or_eq_true_iff.mp stopped with earlier | new
    · exact cause (halted earlier)
    · exact .inl (recalls new)
  · intro stopped
    rcases Bool.or_eq_true_iff.mp stopped with earlier | new
    · exact cause (recalled earlier)
    · exact .inl (recalls new)

end Run

theorem Call.Move.traced {call : Call σ α} {results : Except Error α → Prop} {run next : Run σ α}
    (move : call.Move run next) (traced : run.Traced call results) :
    next.Traced call results := by
  have cause := move.hasCause
  cases move with
  | @handOut shard others _ queue =>
      obtain ⟨pending, flights, finished, answers, cancelled, halted, recalled⟩ := traced
      rw [queue] at pending
      refine ⟨fun other mem => pending other (List.mem_cons_of_mem _ mem), ?_, finished, answers,
        cancelled, halted, recalled⟩
      intro flight mem
      rcases List.mem_append.mp mem with flies | new
      · exact flights flight flies
      · rw [List.mem_singleton.mp new]
        exact pending shard List.mem_cons_self
  | notice _ _ _ fired =>
      obtain ⟨pending, flights, finished, answers, cancelled, halted, recalled⟩ := traced
      exact ⟨pending, flights, finished, answers, cancelled, fun _ => .inr fired, recalled⟩
  | record _ _ _ queue => exact traced.record queue _ cause
  | work =>
      rw [Run.hearCaller_eq] at cause ⊢
      exact traced.same cause rfl rfl rfl rfl rfl rfl
  | @turn shard others served _ _ turn =>
      have before : Run.Traced call results { run with ready := others } :=
        traced.same (fun held => held) rfl rfl rfl rfl rfl rfl
      have after := before.turn turn
      rw [Run.countTurn_eq]
      exact after.same (fun held => held) rfl rfl rfl rfl rfl rfl
  | collect => exact traced.same cause rfl rfl rfl rfl rfl rfl
  | moveOn =>
      rw [Run.hearCaller_eq] at cause ⊢
      exact traced.same cause rfl rfl rfl rfl rfl rfl

theorem Call.Reaches.traced {call : Call σ α} {results : Except Error α → Prop}
    {start run : Run σ α} (reaches : call.Reaches start run)
    (traced : start.Traced call results) : run.Traced call results :=
  reaches.keeps (fun held move => move.traced held) traced

/-- A call that skips anything has halted. -/
theorem Call.Ends.halted_of_skipped {call : Call σ α} {start last : Run σ α}
    (ends : call.Ends start last) (skipped : last.outcome.skipped ≠ []) : last.halted = true := by
  by_contra going
  have handed := (Call.step_eq_none_iff.mp ends.2).2.2.2 (by simpa using going)
  exact skipped (by simp [Run.outcome, handed])

/-! ### Stopped calls -/

/-- With the next move the operation on the shard begins or goes on. -/
def Run.Resumes (run : Run σ α) (shard : ShardId) : Prop :=
  run.phase = .working ∧ run.calledOff = false ∧
    (∃ others, run.ready = shard :: others) ∧ shard ∈ run.flights.map Flight.shard

/-- Handing out has stopped, and what is under way, if anything, has been called off. -/
structure Run.Stopped (run : Run σ α) : Prop where
  halted : run.halted = true
  off : run.calledOff = true ∨ run.flights = []

namespace Run

theorem Stopped.not_resumes {run : Run σ α} (stopped : run.Stopped) (shard : ShardId) :
    ¬ run.Resumes shard := by
  rintro ⟨-, wanted, -, flies⟩
  rcases stopped.off with off | grounded
  · cases off.symm.trans wanted
  · rw [grounded] at flies
    cases flies

theorem calledOff_hearCaller (run : Run σ α) (off : run.calledOff = true) :
    run.hearCaller.calledOff = true := by
  rcases Bool.or_eq_true_iff.mp off with recalled | fired
  · rw [hearCaller_eq]
    simp [calledOff, recalled]
  · simp [calledOff, run.fired_hearCaller fired]

theorem Stopped.hearCaller {run : Run σ α} (stopped : run.Stopped) : run.hearCaller.Stopped := by
  refine ⟨?_, stopped.off.imp run.calledOff_hearCaller fun grounded => ?_⟩
  · rw [hearCaller_eq]
    exact stopped.halted
  · rw [hearCaller_eq]
    exact grounded

theorem Stopped.turn {run served : Run σ α} {shard : ShardId} (stopped : run.Stopped)
    (turn : run.Turn shard served) : served.Stopped := by
  refine ⟨?_, stopped.off.imp (fun off => ?_) fun grounded => ?_⟩
  · rw [turn.frame]
    exact stopped.halted
  · rw [turn.frame]
    exact off
  · cases turn with
    | absent => exact grounded
    | givenUp found =>
        rw [grounded] at found
        cases found
    | ended found =>
        rw [grounded] at found
        cases found
    | asleep found =>
        rw [grounded] at found
        cases found

end Run

namespace Call

/-- A call that has stopped stays so. -/
theorem Move.stopped {call : Call σ α} {run next : Run σ α} (move : call.Move run next)
    (stopped : run.Stopped) : next.Stopped := by
  obtain ⟨halted, off⟩ := stopped
  cases move with
  | handOut _ _ going => cases halted.symm.trans going
  | notice => exact ⟨rfl, off⟩
  | record =>
      rw [Run.record_eq]
      refine ⟨by simp [halted], off.imp_left fun off => ?_⟩
      rcases Bool.or_eq_true_iff.mp off with recalled | fired
      · simp [Run.calledOff, recalled]
      · simp [Run.calledOff, fired]
  | work =>
      have before : run.atWork.Stopped := ⟨halted, off⟩
      exact before.hearCaller
  | @turn shard others served _ _ turn =>
      have before : Run.Stopped { run with ready := others } := ⟨halted, off⟩
      obtain ⟨halted, off⟩ := before.turn turn
      rw [Run.countTurn_eq]
      exact ⟨halted, off⟩
  | collect => exact ⟨halted, off⟩
  | moveOn =>
      have before : run.atNextInstant.Stopped := ⟨halted, off⟩
      exact before.hearCaller

/-- The first failure stops a call that does not tolerate failures. -/
theorem Move.stopped_of_failed {call : Call σ α} {results : Except Error α → Prop}
    {run next : Run σ α} (move : call.Move run next) (fast : call.options.tolerance = .failFast)
    (traced : run.Traced call results) (stopped : run.gathered.failures ≠ [] → run.Stopped)
    (failed : next.gathered.failures ≠ []) : next.Stopped := by
  by_cases before : run.gathered.failures = []
  · -- Only recording an outcome brings in the first failure.
    cases move with
    | handOut => exact absurd before failed
    | notice => exact absurd before failed
    | @record answer others =>
        rw [Run.record_eq] at failed ⊢
        have failure : answer.isFailure = true := by
          by_contra kept
          exact failed ((Gathered.failures_record_of_kept (by simpa using kept)).trans before)
        cases going : run.halted with
        | false =>
            have recalls : run.recalls call.options.tolerance answer = true := by
              simp [Run.recalls, failure, fast, going]
            exact ⟨by simp [recalls], .inl (by simp [Run.calledOff, recalls])⟩
        | true =>
            have fired := (traced.halted going).resolve_left fun already => already before
            exact ⟨by simp, .inl (by simp [Run.calledOff, fired])⟩
    | work =>
        rw [Run.hearCaller_eq] at failed
        exact absurd before failed
    | turn _ _ turn =>
        rw [Run.countTurn_eq, turn.frame] at failed
        exact absurd before failed
    | collect => exact absurd before failed
    | moveOn =>
        rw [Run.hearCaller_eq] at failed
        exact absurd before failed
  · exact move.stopped (stopped before)

theorem Reaches.stopped_of_failed {call : Call σ α} {results : Except Error α → Prop}
    {start run : Run σ α} (reaches : call.Reaches start run)
    (fast : call.options.tolerance = .failFast) (traced : start.Traced call results)
    (stopped : start.gathered.failures ≠ [] → start.Stopped)
    (failed : run.gathered.failures ≠ []) : run.Stopped := by
  induction reaches with
  | refl => exact stopped failed
  | @tail middle next earlier step ih =>
      exact (step_eq_some_iff.mp step).stopped_of_failed fast (Reaches.traced earlier traced) ih
        failed

end Call

/-! ### The same call under another tolerance -/

/-- The same call with another tolerance of failures. -/
def Call.tolerating (call : Call σ α) (tolerance : Tolerance) : Call σ α :=
  { call with options := { call.options with tolerance } }

namespace Call

/-- Without failures the tolerance makes no difference. -/
theorem Move.tolerating {call : Call σ α} {run next : Run σ α} (move : call.Move run next)
    (tolerance : Tolerance) (calm : next.gathered.failures = []) :
    (call.tolerating tolerance).Move run next := by
  cases move with
  | handOut collecting pending going room => exact .handOut collecting pending going room
  | notice collecting filled busy fired unseen =>
      exact .notice collecting filled busy fired unseen
  | @record answer others collecting filled seen finished =>
      have kept : answer.isFailure = false := by
        rw [Run.record_eq] at calm
        by_contra failure
        exact run.gathered.failures_record_of_failure (by simpa using failure) calm
      have same : run.record call.options.tolerance answer others =
          run.record tolerance answer others := by
        rw [Run.record_eq, Run.record_eq]
        simp [Run.recalls, kept]
      rw [same]
      exact .record collecting filled seen finished
  | work collecting filled flying seen finished =>
      exact .work collecting filled flying seen finished
  | turn working queue turn => exact .turn working queue turn
  | collect working idle news => exact .collect working idle news
  | moveOn working idle quiet flying => exact .moveOn working idle quiet flying

theorem Ends.tolerating {call : Call σ α} {start last : Run σ α} (ends : call.Ends start last)
    (tolerance : Tolerance) (calm : last.gathered.failures = []) :
    (call.tolerating tolerance).Ends start last := by
  obtain ⟨reaches, ended⟩ := ends
  refine ⟨?_, step_eq_none_iff.mpr (step_eq_none_iff.mp ended)⟩
  clear ended
  induction reaches with
  | refl => exact .refl
  | @tail middle next earlier step ih =>
      have move := step_eq_some_iff.mp step
      have before : middle.gathered.failures = [] := by
        by_contra failed
        exact move.extends.failures_ne_nil failed calm
      exact (ih before).tail (step_eq_some_iff.mpr (move.tolerating tolerance calm))

end Call

/-! ### What the caller can rely on -/

namespace Executor

theorem start_failures (executor : Executor) (options : ScatterOptions) (targets : Targets)
    (operation : Shard → Operation σ α) (moment : Moment σ) :
    (executor.start options targets operation moment).gathered.failures =
      (targets.strays executor.topology).map fun id => (id, .unknownShard id.name) := by
  simp [start, Call.begin, Gathered.failures, List.filterMap_map]

/-- A call begins with a cause to stop if it begins halted. -/
theorem start_traced (executor : Executor) (options : ScatterOptions) (targets : Targets)
    (operation : Shard → Operation σ α) (moment : Moment σ) {results : Except Error α → Prop}
    (yields : ∀ shard ∈ targets.known executor.topology,
      (Call.invocation ⟨operation, options⟩ shard).Yields results)
    (strays : ∀ id ∈ targets.strays executor.topology, results (.error (.unknownShard id.name))) :
    (executor.start options targets operation moment).Traced ⟨operation, options⟩ results where
  pending := yields
  flights := fun _ absent => by cases absent
  finished := fun _ absent => by cases absent
  answers := by
    intro answer mem
    obtain ⟨id, stray, rfl⟩ := List.mem_map.mp mem
    exact strays id stray
  cancelled := fun _ absent => by cases absent
  halted := by
    intro halted
    rcases Bool.or_eq_true_iff.mp halted with fired | unknown
    · exact .inr fired
    · left
      rw [start_failures]
      simp only [Bool.and_eq_true] at unknown
      simpa using unknown.2
  recalled := fun absent => by cases absent

/-- A call that does not tolerate failures begins stopped if a target is in no topology. -/
theorem start_stopped {executor : Executor} {options : ScatterOptions} {targets : Targets}
    {operation : Shard → Operation σ α} {moment : Moment σ}
    (fast : options.tolerance = .failFast)
    (failed : (executor.start options targets operation moment).gathered.failures ≠ []) :
    (executor.start options targets operation moment).Stopped := by
  rw [start_failures] at failed
  have stray : targets.strays executor.topology ≠ [] := by simpa using failed
  exact ⟨by simp [start, Call.begin, fast, stray], .inr rfl⟩

/-- Without stray targets a call begins in the same way whatever it tolerates. -/
theorem start_tolerating (executor : Executor) (options : ScatterOptions) {targets : Targets}
    (operation : Shard → Operation σ α) (moment : Moment σ) (tolerance : Tolerance)
    (known : targets.strays executor.topology = []) :
    executor.start { options with tolerance } targets operation moment =
      executor.start options targets operation moment := by
  simp [start, Call.begin, known]

/-- Two calls that differ in their tolerance alone bring in the same, if one of them brings in no
failure. -/
theorem scatterWith_tolerating {executor : Executor} {options : ScatterOptions}
    {targets : Targets} {operation : Shard → Operation σ α} {moment : Moment σ}
    (tolerance : Tolerance)
    (calm : (executor.scatterWith options targets operation moment).1.failures = []) :
    executor.scatterWith { options with tolerance } targets operation moment =
      executor.scatterWith options targets operation moment := by
  obtain ⟨last, ends, whole⟩ := executor.scatterWith_ends options targets operation moment
  obtain ⟨other, otherEnds, otherWhole⟩ :=
    executor.scatterWith_ends { options with tolerance } targets operation moment
  rw [whole] at calm
  have known : targets.strays executor.topology = [] := by
    by_contra stray
    refine ends.1.extends.failures_ne_nil ?_ calm
    rw [start_failures]
    simpa using stray
  rw [executor.start_tolerating options operation moment tolerance known] at otherEnds
  obtain rfl := otherEnds.unique (ends.tolerating tolerance calm)
  rw [whole, otherWhole]

/-- A call with sincere operations is traced to results other than being called off. -/
theorem traced_of_sincere {executor : Executor} {options : ScatterOptions} {targets : Targets}
    {operation : Shard → Operation σ α} {moment : Moment σ}
    (sincere : ∀ shard ∈ targets.known executor.topology, (operation shard).Sincere) :
    (executor.start options targets operation moment).Traced ⟨operation, options⟩
      fun result => result ≠ .error .cancelled := by
  refine executor.start_traced options targets operation moment (fun shard known => ?_) ?_
  · exact (sincere shard known).within (by simp) options.limit.ticks
  · simp

/-- What is called off or skipped had a cause. -/
theorem hasCause_of_ends {executor : Executor} {options : ScatterOptions} {targets : Targets}
    {operation : Shard → Operation σ α} {moment : Moment σ} {last : Run σ α}
    (ends : Call.Ends ⟨operation, options⟩ (executor.start options targets operation moment) last)
    (sincere : ∀ shard ∈ targets.known executor.topology, (operation shard).Sincere)
    (cut : last.outcome.skipped ≠ [] ∨ last.outcome.cancelled ≠ []) : last.HasCause := by
  have traced := ends.1.traced (traced_of_sincere sincere)
  rcases cut with skipped | cancelled
  · exact traced.halted (ends.halted_of_skipped skipped)
  · obtain ⟨id, listed⟩ := List.exists_mem_of_ne_nil _ cancelled
    exact (traced.cancelled id listed).resolve_left fun own => own rfl

/-- If every target is known and no invocation fails, nothing fails. -/
theorem failures_eq_nil {executor : Executor} {options : ScatterOptions} {targets : Targets}
    {operation : Shard → Operation σ α} {moment : Moment σ}
    (known : ∀ id, targets.Covers executor.topology id → executor.topology.contains id = true)
    (succeeds : ∀ shard ∈ targets.known executor.topology,
      (Call.invocation ⟨operation, options⟩ shard).Yields fun result =>
        ∃ value, result = .ok value) :
    (executor.scatterWith options targets operation moment).1.failures = [] := by
  obtain ⟨last, ends, whole⟩ := executor.scatterWith_ends options targets operation moment
  have begun := executor.start_traced options targets operation moment succeeds fun id stray => by
    obtain ⟨targeted, missing⟩ := List.mem_filter.mp stray
    simp [known id (Targets.mem_ids.mp targeted)] at missing
  rw [whole]
  refine List.filterMap_eq_nil_iff.mpr fun answer mem => ?_
  obtain ⟨value, success⟩ := (ends.1.traced begun).answers answer mem
  rw [success]

/-- A call that does not tolerate failures, with sincere operations and a caller who waits for its
end. Once it has recorded a failure no operation begins any more, or even goes on. If it calls
anything off or skips anything, then something failed, and that is what is reported. If nothing
fails, it brings in what a call that tolerates failures brings in. -/
theorem scatterWith_failFast {executor : Executor} {options : ScatterOptions}
    {targets : Targets} {operation : Shard → Operation σ α} {moment : Moment σ}
    (fast : options.tolerance = .failFast)
    (sincere : ∀ shard ∈ targets.known executor.topology, (operation shard).Sincere)
    (patient : moment.cancellation = .never) :
    let call : Call σ α := ⟨operation, options⟩
    let gathered := (executor.scatterWith options targets operation moment).1
    let tolerant := (executor.scatterWith { options with tolerance := .bestEffort } targets
      operation moment).1
    (∀ run, call.Reaches (executor.start options targets operation moment) run →
      run.gathered.failures ≠ [] →
      ∀ later, call.Reaches run later → ∀ shard, ¬ later.Resumes shard) ∧
    (gathered.skipped ≠ [] ∨ gathered.cancelled ≠ [] →
      gathered.failures ≠ [] ∧
      gathered.toResult =
        .error (.partialFailure gathered.successes.length gathered.failures)) ∧
    (gathered.failures = [] ∨ tolerant.failures = [] → gathered = tolerant) ∧
    ((∀ id, targets.Covers executor.topology id → executor.topology.contains id = true) →
      (∀ shard ∈ targets.known executor.topology,
        (call.invocation shard).Yields fun result => ∃ value, result = .ok value) →
      gathered = tolerant) := by
  intro call gathered tolerant
  have calm : gathered.failures = [] → gathered = tolerant := fun calm =>
    (congrArg Prod.fst (scatterWith_tolerating .bestEffort calm)).symm
  refine ⟨?_, ?_, ?_, ?_⟩
  · intro run reaches failed later onward shard
    have stopped := reaches.stopped_of_failed fast (traced_of_sincere sincere)
      (start_stopped fast) failed
    exact (onward.keeps (fun held move => move.stopped held) stopped).not_resumes shard
  · intro cut
    obtain ⟨last, ends, whole⟩ := executor.scatterWith_ends options targets operation moment
    have same : gathered = last.outcome := congrArg Prod.fst whole
    rw [same] at cut ⊢
    have waits := ends.1.awaited (executor.start_awaited options targets operation patient)
    have failed := (hasCause_of_ends ends sincere cut).resolve_right (by simp [waits.unfired])
    exact ⟨failed, Gathered.toResult_of_failed failed⟩
  · rintro (quiet | quiet)
    · exact calm quiet
    · have back := scatterWith_tolerating .failFast quiet
      rw [← fast] at back
      exact congrArg Prod.fst back
  · intro known succeeds
    exact calm (failures_eq_nil known succeeds)

/-- Of two shards that are invoked one after the other the first fails, and the second is
skipped. -/
theorem scatterWith_failFast_skips_second :
    let options : ScatterOptions := { maxConcurrency := 1, tolerance := .failFast }
    let script := fun shard : Shard =>
      if shard = .first then ({ finale := .fail .breakdown } : Script) else {}
    let gathered := ((withDefaults .pair).scatterWith options .all
      (fun shard => (script shard).operation shard) { now := 0, world := {} }).1
    gathered.skipped = [Shard.second.id] ∧ gathered.toResult =
      .error (.partialFailure gathered.successes.length gathered.failures) := by
  intro options script gathered
  have sincere : ∀ shard ∈ Targets.known .all (withDefaults .pair).topology,
      ((script shard).operation shard).Sincere := by
    intro shard _
    refine Script.operation_sincere ?_ shard
    simp only [script]
    split <;> simp [Error.breakdown]
  have fast : options.tolerance = .failFast := rfl
  have patient : ({ now := 0, world := {} } : Moment Stage).cancellation = .never := rfl
  have skipped : gathered.skipped = [Shard.second.id] := by decide +kernel
  obtain ⟨-, reported, -⟩ := scatterWith_failFast fast sincere patient
  exact ⟨skipped, (reported (.inl (by simp [gathered, skipped]))).2⟩

end Executor

end ShardFleet
