import Mathlib.Algebra.Order.Ring.Nat
import ShardFleet.Proofs.Scatter.Places

/-!
A scatter-gather call comes to its end.

What a call still has to do is measured by its effort (`Call.effort`): for each shard the turns
and the waits that its time limit leaves it, for the phase and for the caller the moves that they
may still cost. Every move lowers the effort (`Call.Move.effort_lt`), and the effort at the
beginning is within the bound on the moves. So the state in which a call ends allows no further
move, whatever the operations do and whenever the caller cancels (`Call.step_final`).
-/

namespace ShardFleet

variable {σ α : Type}

namespace Run

/-! ### Something to do -/

/-- While working, something is in flight or ended. -/
def Lively (run : Run σ α) : Prop :=
  run.phase = .working → run.flights ≠ [] ∨ run.finished ≠ []

theorem lively_of_collecting {run : Run σ α} (collecting : run.phase = .collecting) :
    run.Lively := by
  intro working
  rw [collecting] at working
  cases working

theorem lively_hearCaller {run : Run σ α} (flying : run.flights ≠ []) :
    run.hearCaller.Lively := by
  rw [hearCaller_eq]
  exact fun _ => .inl flying

/-- After a turn something is in flight or ended: what had the turn. -/
theorem Turn.busy {run next : Run σ α} {shard : ShardId} (turn : run.Turn shard next)
    (busy : run.flights ≠ [] ∨ run.finished ≠ []) : next.flights ≠ [] ∨ next.finished ≠ [] := by
  cases turn with
  | absent => exact busy
  | givenUp => exact .inr (by simp [finish])
  | ended => exact .inr (by simp [finish])
  | asleep found =>
      have flying := List.ne_nil_of_mem (List.mem_of_find?_eq_some found)
      exact .inl (by simpa using flying)

end Run

theorem Call.Move.lively {call : Call σ α} {run next : Run σ α} (move : call.Move run next)
    (lively : run.Lively) : next.Lively := by
  cases move with
  | handOut collecting => exact Run.lively_of_collecting collecting
  | notice collecting => exact Run.lively_of_collecting collecting
  | record collecting =>
      rw [Run.record_eq]
      exact Run.lively_of_collecting collecting
  | work _ _ flying => exact Run.lively_hearCaller flying
  | turn working _ turn =>
      rw [Run.countTurn_eq]
      exact fun _ => turn.busy (lively working)
  | collect => exact Run.lively_of_collecting rfl
  | moveOn _ _ _ flying => exact Run.lively_hearCaller flying

/-! ### Effort -/

/-- What an invocation may still cost: a turn and a wait for each tick that its limit leaves it,
its last turn, and what its outcome costs. -/
def Flight.effort (flight : Flight σ α) : Nat := 2 * (flight.deadline - flight.wake) + 4

namespace Run

/-- What the phase may still cost. -/
def phaseEffort (run : Run σ α) : Nat :=
  match run.phase with
  | .collecting => 1
  | .working => if run.hasNews then 2 else 0

theorem phaseEffort_of_collecting {run : Run σ α} (collecting : run.phase = .collecting) :
    run.phaseEffort = 1 := by
  simp only [phaseEffort, collecting]

theorem phaseEffort_of_working {run : Run σ α} (working : run.phase = .working) :
    run.phaseEffort = if run.hasNews then 2 else 0 := by
  simp only [phaseEffort, working]

theorem phaseEffort_le (run : Run σ α) : run.phaseEffort ≤ 2 := by
  unfold phaseEffort
  split
  · omega
  · split <;> omega

/-- Going back to collect after a batch of turns costs nothing. -/
theorem countTurn_phaseEffort {run : Run σ α} (working : run.phase = .working) :
    run.countTurn.phaseEffort ≤ run.phaseEffort := by
  rw [countTurn_eq]
  by_cases ends : run.endsBatch = true
  · have news : run.hasNews = true := by
      simp only [endsBatch, Bool.and_eq_true] at ends
      exact ends.2
    simp [phaseEffort, ends, working, news]
  · simp [phaseEffort, ends, working, hasNews]

/-- What the caller may still cost: to cancel, and to be heard. -/
def callerEffort (run : Run σ α) : Nat :=
  match run.cancellation with
  | .never => 0
  | .due _ => 4
  | .fired => if run.gathered.callerCancelled then 0 else 1

/-- What is in flight may still cost; what does not queue costs one move more. -/
def flightEffort (run : Run σ α) : Nat :=
  (run.flights.map Flight.effort).sum + (run.flights.length - run.ready.length)

end Run

/-- What a call may still cost. -/
def Call.effort (call : Call σ α) (run : Run σ α) : Nat :=
  (2 * call.options.limit.ticks + 5) * run.pending.length + run.flightEffort +
    run.finished.length + run.phaseEffort + run.callerEffort

namespace Run

theorem Orderly.ready_length_le {run : Run σ α} (orderly : run.Orderly) :
    run.ready.length ≤ run.flights.length := by
  have bound := orderly.queueNodup.length_le_of_subset orderly.queued
  rwa [List.length_map] at bound

/-- Ending an invocation saves its last turn and what its outcome costs. -/
theorem Orderly.finish_effort {run : Run σ α} {flight : Flight σ α} {others : List ShardId}
    (orderly : run.Orderly) (queue : run.ready = flight.shard :: others)
    (flies : flight ∈ run.flights) (world : σ) (result : Except Error α) :
    ({ run with ready := others, world }.finish flight.shard result).flightEffort + 4 ≤
      run.flightEffort := by
  have grounded := flights_perm orderly.flights_nodup flies
  have sum := (grounded.map Flight.effort).sum_nat
  have count := grounded.length_eq
  simp only [List.map_cons, List.sum_cons, List.length_cons] at sum count
  simp only [flightEffort, Run.finish, sum, count, queue, List.length_cons, Flight.effort]
  omega

/-- Replacing one flight changes the effort by the difference of the two. -/
theorem replaced_effort {flights : List (Flight σ α)} {flight : Flight σ α}
    (apart : (flights.map Flight.shard).Nodup) (flies : flight ∈ flights) (later : Flight σ α) :
    ((flights.map fun other => if other.shard = flight.shard then later else other).map
      Flight.effort).sum + flight.effort = (flights.map Flight.effort).sum + later.effort := by
  have grounded := flights_perm apart flies
  have kept : (flights.filter (·.shard ≠ flight.shard)).map
      (fun other => if other.shard = flight.shard then later else other) =
        flights.filter (·.shard ≠ flight.shard) := by
    refine (List.map_congr_left fun other mem => if_neg ?_).trans (List.map_id _)
    exact of_decide_eq_true (List.mem_filter.mp mem).2
  have before := (grounded.map Flight.effort).sum_nat
  have after := ((grounded.map fun other => if other.shard = flight.shard then later
    else other).map Flight.effort).sum_nat
  rw [List.map_cons, if_pos rfl, kept] at after
  simp only [List.map_cons, List.sum_cons] at before after
  omega

/-- Falling asleep saves a turn and the ticks that are waited for. -/
theorem Orderly.fallAsleep_effort {run : Run σ α} {flight : Flight σ α} {others : List ShardId}
    {world : σ} {ticks : Nat} {abandon : σ → σ} {rest : Job σ α} (orderly : run.Orderly)
    (queue : run.ready = flight.shard :: others) (flies : flight ∈ run.flights)
    (wanted : run.calledOff = false)
    (proceeds : Activity.proceed run.now flight.rest run.world =
      (world, .asleep ticks abandon rest)) :
    flightEffort { run with
      ready := others
      world
      tickets := run.tickets + 1
      flights := run.flights.map fun other =>
        if other.shard = flight.shard then
          flight.fallAsleep run.now run.tickets ticks abandon rest
        else other } < run.flightEffort := by
  have inQueue : flight.shard ∈ run.ready := by simp [queue]
  have wakes := (orderly.flights flight flies).queues inQueue wanted
  obtain ⟨later, inTime, -⟩ := (orderly.flights flight flies).asleep inQueue wanted proceeds
  have replaced := replaced_effort orderly.flights_nodup flies
    (flight.fallAsleep run.now run.tickets ticks abandon rest)
  have saved : (flight.fallAsleep run.now run.tickets ticks abandon rest).effort + 2 ≤
      flight.effort := by
    simp only [Flight.effort, Flight.fallAsleep]
    omega
  have room := orderly.ready_length_le
  simp only [queue, List.length_cons] at room
  simp only [flightEffort, queue, List.length_cons, List.length_map]
  omega

/-- A turn saves a move, and three more if it ends an invocation. -/
theorem Turn.effort {run served : Run σ α} {shard : ShardId} {others : List ShardId}
    (turn : { run with ready := others }.Turn shard served) (orderly : run.Orderly)
    (queue : run.ready = shard :: others) :
    (served.finished = run.finished ∧ served.flightEffort < run.flightEffort) ∨
      (served.finished.length = run.finished.length + 1 ∧
        served.flightEffort + 4 ≤ run.flightEffort) := by
  cases turn with
  | absent missing =>
      obtain ⟨flight, flies, same⟩ := List.mem_map.mp
        (orderly.queued shard (queue ▸ List.mem_cons_self))
      exact absurd (List.find?_eq_none.mp missing flight flies) (by simp [same])
  | givenUp found =>
      obtain rfl := shard_of_find found
      exact .inr ⟨by simp [finish],
        orderly.finish_effort queue (List.mem_of_find?_eq_some found) _ _⟩
  | ended found =>
      obtain rfl := shard_of_find found
      exact .inr ⟨by simp [finish],
        orderly.finish_effort queue (List.mem_of_find?_eq_some found) _ _⟩
  | asleep found wanted proceeds =>
      obtain rfl := shard_of_find found
      exact .inl ⟨rfl, orderly.fallAsleep_effort queue (List.mem_of_find?_eq_some found) wanted
        proceeds⟩

theorem due_of_hears {run : Run σ α} (heard : run.hears = true) :
    ∃ instant, run.cancellation = .due instant ∧
      run.cancellation.settle run.now = .fired := by
  simp only [hears, Bool.and_eq_true, Bool.not_eq_eq_eq_not, Bool.not_true] at heard
  obtain ⟨fired, fresh⟩ := heard
  cases caller : run.cancellation with
  | never => simp [caller, Cancellation.settle, Cancellation.hasFired] at fired
  | due instant =>
      refine ⟨instant, rfl, ?_⟩
      simpa [caller, Cancellation.hasFired] using fired
  | fired => simp [caller, Cancellation.hasFired] at fresh

/-- A caller who is not heard to cancel stays as before. -/
theorem settle_of_deaf {run : Run σ α} (deaf : run.hears = false) :
    run.cancellation.settle run.now = run.cancellation := by
  have same := hears_of_settle deaf
  cases caller : run.cancellation with
  | never => rfl
  | due instant =>
      simp only [caller, Cancellation.settle] at same ⊢
      split
      · next early => simp [early, Cancellation.hasFired] at same
      · rfl
  | fired => rfl

/-- Letting the caller have its turn while there is nothing to collect costs nothing, and saves a
move if the caller cancels. -/
theorem hearCaller_effort {run : Run σ α} (working : run.phase = .working)
    (quiet : run.hasNews = false) :
    run.hearCaller.phaseEffort + run.hearCaller.callerEffort + (if run.hears then 1 else 0) ≤
      run.callerEffort := by
  have bound := run.hearCaller.phaseEffort_le
  rw [hearCaller_eq] at bound ⊢
  by_cases heard : run.hears = true
  · obtain ⟨instant, due, fired⟩ := due_of_hears heard
    have once : callerEffort { run with
        cancellation := run.cancellation.settle run.now
        ready := run.ready ++ if run.hears then run.waiting else [] } ≤ 1 := by
      simp only [callerEffort, fired]
      split <;> omega
    have cost : run.callerEffort = 4 := by simp only [callerEffort, due]
    rw [if_pos heard] at bound once ⊢
    rw [if_pos heard]
    omega
  · have deaf := Bool.eq_false_iff.mpr heard
    have same := settle_of_deaf deaf
    simp only [hasNews] at quiet
    simp [phaseEffort, callerEffort, same, working, hasNews, quiet, deaf]

/-- What a turn saves, taken together with what its outcome may cost the phase. -/
theorem Turn.parts_lt {run served : Run σ α} {shard : ShardId} {others : List ShardId}
    (turn : { run with ready := others }.Turn shard served) (orderly : run.Orderly)
    (queue : run.ready = shard :: others) (working : run.phase = .working) :
    served.flightEffort + served.finished.length + served.phaseEffort <
      run.flightEffort + run.finished.length + run.phaseEffort := by
  rcases turn.effort orderly queue with ⟨same, cost⟩ | ⟨grown, cost⟩
  · have frame := turn.frame
    have working' : served.phase = .working := by rw [frame, working]
    have news : served.hasNews = run.hasNews := by
      rw [frame]
      simp only [hasNews, same]
    rw [phaseEffort_of_working working', phaseEffort_of_working working, news, same]
    omega
  · have bound := served.phaseEffort_le
    omega

/-- When the clock moves, the caller is heard to cancel or somebody queues. -/
theorem atNextInstant_effort {run : Run σ α} (orderly : run.Orderly) (idle : run.ready = [])
    (flying : run.flights ≠ []) :
    run.atNextInstant.flightEffort < run.flightEffort + if run.atNextInstant.hears then 1 else 0
    := by
  have room := (orderly.atNextInstant idle).ready_length_le
  have cost : run.flightEffort = (run.flights.map Flight.effort).sum + run.flights.length := by
    simp only [flightEffort, idle, List.length_nil, Nat.sub_zero]
  have count : run.atNextInstant.flights = run.flights := rfl
  by_cases heard : run.atNextInstant.hears = true
  · rw [if_pos heard, cost]
    simp only [flightEffort, count]
    omega
  · have queued : 0 < run.atNextInstant.ready.length := by
      obtain ⟨first, -⟩ := nextInstant_first flying
      rcases List.mem_append.mp first with wakes | cancels
      · obtain ⟨flight, flies, wake⟩ := List.mem_map.mp wakes
        exact List.length_pos_of_mem (mem_due.mpr ⟨flight, flies, Nat.le_of_eq wake, rfl⟩)
      · have due : run.cancellation = .due run.nextInstant := by
          cases caller : run.cancellation with
          | never => simp [caller, Cancellation.instant?] at cancels
          | due instant => simpa [caller, Cancellation.instant?, eq_comm] using cancels
          | fired => simp [caller, Cancellation.instant?] at cancels
        refine absurd ?_ heard
        simp [hears, atNextInstant, due, Cancellation.settle, Cancellation.hasFired]
    rw [if_neg heard, cost]
    simp only [flightEffort, count] at room ⊢
    omega

theorem hearCaller_flightEffort (run : Run σ α) :
    run.hearCaller.flightEffort ≤ run.flightEffort := by
  rw [hearCaller_eq]
  simp only [flightEffort, List.length_append]
  omega

/-- What letting the caller have its turn may cost in all, while there is nothing to collect. -/
theorem hearCaller_parts (run : Run σ α) (working : run.phase = .working)
    (quiet : run.hasNews = false) :
    run.hearCaller.flightEffort + run.hearCaller.finished.length + run.hearCaller.phaseEffort +
      run.hearCaller.callerEffort + (if run.hears then 1 else 0) ≤
        run.flightEffort + run.finished.length + run.callerEffort := by
  have heard := hearCaller_effort working quiet
  have flights := run.hearCaller_flightEffort
  have finished : run.hearCaller.finished = run.finished := by
    rw [hearCaller_eq]
  rw [finished]
  omega

end Run

namespace Call

theorem handOut_flightEffort (call : Call σ α) (run : Run σ α) (shard : Shard) :
    (call.handOut run shard).flightEffort =
      run.flightEffort + (2 * call.options.limit.ticks + 4) := by
  simp only [Run.flightEffort, handOut, List.map_append, List.map_cons, List.map_nil,
    List.sum_append, List.sum_cons, List.sum_nil, List.length_append, List.length_cons,
    List.length_nil, Flight.effort]
  omega

theorem effort_lt_of_parts {call : Call σ α} {run next : Run σ α}
    (pending : next.pending = run.pending)
    (parts : next.flightEffort + next.finished.length + next.phaseEffort + next.callerEffort <
      run.flightEffort + run.finished.length + run.phaseEffort + run.callerEffort) :
    call.effort next < call.effort run := by
  simp only [effort, pending]
  omega

/-- Handing a shard out costs less than the shard did while it was pending. -/
theorem handOut_effort {call : Call σ α} {run : Run σ α} {shard : Shard} {others : List Shard}
    (collecting : run.phase = .collecting) (pending : run.pending = shard :: others) :
    call.effort (call.handOut { run with pending := others } shard) < call.effort run := by
  have flights := call.handOut_flightEffort { run with pending := others } shard
  have same : Run.flightEffort { run with pending := others } = run.flightEffort := rfl
  have before := Run.phaseEffort_of_collecting collecting
  have after : (call.handOut { run with pending := others } shard).phaseEffort = 1 :=
    Run.phaseEffort_of_collecting collecting
  have caller : (call.handOut { run with pending := others } shard).callerEffort =
      run.callerEffort := rfl
  simp only [effort, flights, same, before, after, caller, pending, List.length_cons,
    Nat.mul_succ]
  simp only [Call.handOut]
  omega

theorem record_effort (call : Call σ α) {run : Run σ α} {answer : Answer α}
    {others : List (Answer α)} (collecting : run.phase = .collecting)
    (finished : run.finished = answer :: others) (tolerance : Tolerance) :
    call.effort (run.record tolerance answer others) < call.effort run := by
  have before := Run.phaseEffort_of_collecting collecting
  refine effort_lt_of_parts (by rw [Run.record_eq]) ?_
  rw [before, finished, Run.record_eq]
  simp only [Run.flightEffort, Run.phaseEffort, Run.callerEffort, collecting,
    Gathered.record_callerCancelled, List.length_append, List.length_cons]
  omega

theorem turn_effort (call : Call σ α) {run served : Run σ α} {shard : ShardId}
    {others : List ShardId} (orderly : run.Orderly) (working : run.phase = .working)
    (queue : run.ready = shard :: others) (turn : { run with ready := others }.Turn shard served) :
    call.effort served.countTurn < call.effort run := by
  have frame := turn.frame
  have parts := turn.parts_lt orderly queue working
  have works : served.phase = .working := by rw [frame, working]
  have counted := Run.countTurn_phaseEffort works
  have caller : served.callerEffort = run.callerEffort := by
    rw [frame]
    rfl
  rw [Run.countTurn_eq] at counted ⊢
  refine effort_lt_of_parts (by rw [frame]) ?_
  refine Nat.lt_of_le_of_lt (Nat.add_le_add_right (Nat.add_le_add_left counted _) _) ?_
  exact Nat.add_lt_add_of_lt_of_le parts (Nat.le_of_eq caller)

/-- Every move lowers the effort. -/
theorem Move.effort_lt {call : Call σ α} {run next : Run σ α} (move : call.Move run next)
    (orderly : run.Orderly) (lively : run.Lively) : call.effort next < call.effort run := by
  cases move with
  | handOut collecting pending => exact handOut_effort collecting pending
  | notice collecting filled busy fired unseen =>
      have before := Run.phaseEffort_of_collecting collecting
      have fired : run.cancellation = .fired := by simpa [Cancellation.hasFired] using fired
      have caller : run.callerEffort = 1 := by
        simp only [Run.callerEffort, fired, unseen]
        rfl
      refine effort_lt_of_parts rfl ?_
      rw [before, caller]
      simp [Run.flightEffort, Run.phaseEffort, Run.callerEffort, collecting, fired]
  | record collecting _ _ finished => exact call.record_effort collecting finished _
  | work collecting _ _ seen finished =>
      have before := Run.phaseEffort_of_collecting collecting
      have quiet : run.atWork.hasNews = false := by
        simp only [Run.atWork, Run.hasNews, finished]
        simpa using seen
      have heard := run.atWork.hearCaller_parts rfl quiet
      have flights : run.atWork.flightEffort = run.flightEffort := rfl
      have count : run.atWork.finished.length = run.finished.length := rfl
      have caller : run.atWork.callerEffort = run.callerEffort := rfl
      refine effort_lt_of_parts (by rw [Run.hearCaller_eq]; rfl) ?_
      omega
  | turn working queue turn => exact call.turn_effort orderly working queue turn
  | collect working idle news =>
      have known : run.hasNews = true := by
        rcases news with known | grounded
        · exact known
        · have ended := (lively working).resolve_left (by simp [grounded])
          simp [Run.hasNews, ended]
      have before : run.phaseEffort = 2 := by
        rw [Run.phaseEffort_of_working working, if_pos known]
      refine effort_lt_of_parts rfl ?_
      rw [before]
      simp [Run.flightEffort, Run.phaseEffort, Run.callerEffort]
  | moveOn working idle quiet flying =>
      have heard := run.atNextInstant.hearCaller_parts working quiet
      have later := Run.atNextInstant_effort orderly idle flying
      have count : run.atNextInstant.finished.length = run.finished.length := rfl
      have caller : run.atNextInstant.callerEffort = run.callerEffort := rfl
      refine effort_lt_of_parts (by rw [Run.hearCaller_eq]; rfl) ?_
      omega

/-! ### The end of a call -/

/-- Enough moves bring a call to its end. -/
theorem step_advance {call : Call σ α} {moves : Nat} {run : Run σ α} (orderly : run.Orderly)
    (lively : run.Lively) (enough : call.effort run ≤ moves) :
    call.step (call.advance moves run) = none := by
  induction moves generalizing run with
  | zero =>
      cases step : call.step run with
      | none => exact step
      | some next =>
          have less := (step_eq_some_iff.mp step).effort_lt orderly lively
          omega
  | succ moves ih =>
      rw [advance]
      split
      · next ended => exact ended
      · next next step =>
          have move := step_eq_some_iff.mp step
          have less := move.effort_lt orderly lively
          exact ih (move.orderly orderly) (move.lively lively) (by omega)

/-- At the beginning there is room for the moves that an interruption may cost. -/
theorem effort_begin (call : Call σ α) (strays : List ShardId) (targets : List Shard)
    (moment : Moment σ) :
    call.effort (call.begin strays targets moment) + 3 ≤ call.moveBound targets.length := by
  have caller : (call.begin strays targets moment).callerEffort ≤ 4 := by
    unfold Run.callerEffort
    split
    · omega
    · omega
    · split <;> omega
  have each : (2 * call.options.limit.ticks + 5) * targets.length ≤
      (2 * call.options.limit.ticks + 8) * targets.length :=
    Nat.mul_le_mul_right _ (by omega)
  have total : call.effort (call.begin strays targets moment) =
      (2 * call.options.limit.ticks + 5) * targets.length + 1 +
        (call.begin strays targets moment).callerEffort := rfl
  have bound : call.moveBound targets.length =
      (2 * call.options.limit.ticks + 8) * targets.length +
        (2 * call.options.limit.ticks + 8) := by
    rw [moveBound, Nat.mul_comm, Nat.mul_succ]
  omega

/-- A call comes to its end within the bound on its moves. -/
theorem step_final (call : Call σ α) {strays : List ShardId} {targets : List Shard}
    (apart : (strays ++ targets.map Shard.id).Nodup) (moment : Moment σ) :
    call.step (call.final strays targets moment) = none :=
  step_advance (orderly_begin call apart moment) (Run.lively_of_collecting rfl)
    (Nat.le_of_add_right_le (effort_begin call strays targets moment))

end Call

end ShardFleet
