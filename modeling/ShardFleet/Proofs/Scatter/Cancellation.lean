import ShardFleet.Proofs.Scatter.Conservation
import ShardFleet.Proofs.Scatter.Scripts

/-!
Cancelling a call keeps what was done before.

A call that is cancelled at an instant is compared with the same call whose caller waits for its
end. Before the instant the two make the same moves (`Call.Move.cut`). If the call is over by
then, the caller cancels too late. Otherwise there is a last state before the instant
(`Call.LastBefore`): nothing is left to do in it but to let time pass. The call that is cancelled
moves its clock to the instant, is called off there, and winds down (`Run.WindsDown`): it hands
nothing out any more, and gives up what is in flight. So it ends with what was recorded in that
state (`Executor.scatterWith_cancelled_keeps`).
-/

namespace ShardFleet

variable {σ α : Type}

/-! ### The same moves before the caller cancels -/

/-- The same state, of a caller who will cancel at an instant. -/
def Run.cut (run : Run σ α) (instant : Nat) : Run σ α :=
  { run with cancellation := .due instant }

namespace Run

theorem Awaited.cut_calledOff {run : Run σ α} (awaited : run.Awaited) (instant : Nat) :
    (run.cut instant).calledOff = run.calledOff := by
  rw [calledOff, calledOff, awaited.unfired]
  rfl

theorem Awaited.cut_hasNews {run : Run σ α} (awaited : run.Awaited) (instant : Nat) :
    (run.cut instant).hasNews = run.hasNews := by
  rw [hasNews, hasNews, awaited.unfired]
  rfl

/-- A caller is not heard before he cancels. -/
theorem hearCaller_cut {run : Run σ α} {instant : Nat} (before : run.now < instant) :
    (run.cut instant).hearCaller = run.cut instant :=
  (run.cut instant).hearCaller_of_settled (if_neg (Nat.not_le_of_lt before))

theorem record_cut (run : Run σ α) (instant : Nat) (tolerance : Tolerance) (answer : Answer α)
    (others : List (Answer α)) :
    (run.cut instant).record tolerance answer others =
      (run.record tolerance answer others).cut instant := by
  rw [record_eq, record_eq]
  rfl

theorem Awaited.countTurn_cut {run : Run σ α} (awaited : run.Awaited) (instant : Nat) :
    (run.cut instant).countTurn = run.countTurn.cut instant := by
  have ends : (run.cut instant).endsBatch = run.endsBatch := by
    rw [endsBatch, endsBatch, awaited.cut_hasNews]
    rfl
  rw [countTurn_eq, countTurn_eq, ends]
  rfl

/-- The clock moves to where it would, unless the caller cancels earlier. -/
theorem Awaited.nextInstant_cut {run : Run σ α} (awaited : run.Awaited)
    (flying : run.flights ≠ []) (instant : Nat) :
    (run.cut instant).nextInstant = min run.nextInstant instant := by
  have silent : run.instants = run.flights.map Flight.wake := by
    rw [instants, awaited.never]
    exact List.append_nil _
  have heard : (run.cut instant).instants = run.flights.map Flight.wake ++ [instant] := rfl
  obtain ⟨wakes, first⟩ := nextInstant_first flying
  have aloft : (run.cut instant).flights ≠ [] := flying
  obtain ⟨due, least⟩ := nextInstant_first aloft
  rw [silent] at wakes first
  rw [heard] at due least
  have early := least _ (List.mem_append_left _ wakes)
  have cancels := least instant (List.mem_append_right _ List.mem_cons_self)
  rcases List.mem_append.mp due with waking | cancelling
  · have late := first _ waking
    omega
  · have same := List.mem_singleton.mp cancelling
    omega

/-- A turn does not depend on when the caller will cancel. -/
theorem Turn.cut {run next : Run σ α} {shard : ShardId} (turn : run.Turn shard next)
    (awaited : run.Awaited) (instant : Nat) :
    (run.cut instant).Turn shard (next.cut instant) := by
  have same := awaited.cut_calledOff instant
  cases turn with
  | absent missing => exact .absent missing
  | givenUp found off => exact .givenUp found (same.trans off)
  | ended found wanted proceeds => exact .ended found (same.trans wanted) proceeds
  | asleep found wanted proceeds => exact .asleep found (same.trans wanted) proceeds

end Run

namespace Call

/-- Until the caller cancels, a call moves as if he would not. -/
theorem Move.cut {call : Call σ α} {run next : Run σ α} {instant : Nat}
    (move : call.Move run next) (awaited : run.Awaited) (before : next.now < instant) :
    call.Move (run.cut instant) (next.cut instant) := by
  have news := awaited.cut_hasNews instant
  obtain ⟨never, unheard⟩ := awaited
  cases move with
  | handOut collecting pending going room => exact .handOut collecting pending going room
  | notice _ _ _ fired =>
      rw [never] at fired
      cases fired
  | record collecting filled _ finished =>
      rw [← Run.record_cut]
      exact .record collecting filled (fun fired => by cases fired) finished
  | work collecting filled flying _ finished =>
      have waits : run.atWork.Awaited := ⟨never, unheard⟩
      rw [waits.hearCaller] at before ⊢
      rw [← Run.hearCaller_cut before]
      exact .work collecting filled flying (fun fired => by cases fired) finished
  | @turn shard others served working queue turn =>
      have waits : { run with ready := others }.Awaited := ⟨never, unheard⟩
      have frame := turn.frame
      have served : served.Awaited := by
        rw [frame]
        exact ⟨never, unheard⟩
      rw [← served.countTurn_cut]
      exact .turn working queue (turn.cut waits instant)
  | collect working idle due => exact .collect working idle (news ▸ due)
  | moveOn working idle quiet flying =>
      have waits : run.atNextInstant.Awaited := ⟨never, unheard⟩
      rw [waits.hearCaller] at before ⊢
      have same : (run.cut instant).nextInstant = run.nextInstant :=
        (Run.Awaited.nextInstant_cut ⟨never, unheard⟩ flying instant).trans
          (Nat.min_eq_left (Nat.le_of_lt before))
      have moved : (run.cut instant).atNextInstant = run.atNextInstant.cut instant := by
        rw [Run.atNextInstant, same]
        rfl
      rw [← Run.hearCaller_cut before, ← moved]
      exact .moveOn working idle (news.trans quiet) flying

/-- The clock stands still but for one kind of move. -/
theorem Move.passes {call : Call σ α} {run next : Run σ α} (move : call.Move run next) :
    next.now = run.now ∨ run.phase = .working ∧ run.ready = [] ∧ run.hasNews = false ∧
      run.flights ≠ [] ∧ next.now = run.nextInstant := by
  cases move with
  | handOut => exact .inl rfl
  | notice => exact .inl rfl
  | record =>
      rw [Run.record_eq]
      exact .inl rfl
  | work =>
      rw [Run.hearCaller_eq]
      exact .inl rfl
  | turn _ _ turn =>
      rw [Run.countTurn_eq, turn.frame]
      exact .inl rfl
  | collect => exact .inl rfl
  | moveOn working idle quiet flying =>
      rw [Run.hearCaller_eq]
      exact .inr ⟨working, idle, quiet, flying, rfl⟩

/-- The clock does not go back. -/
theorem Move.now_le {call : Call σ α} {run next : Run σ α} (move : call.Move run next)
    (orderly : run.Orderly) (awaited : run.Awaited) : run.now ≤ next.now := by
  rcases move.passes with same | ⟨-, -, -, flying, same⟩
  · exact Nat.le_of_eq same.symm
  · obtain ⟨due, -⟩ := Run.nextInstant_first flying
    rw [Run.instants, awaited.never] at due
    rcases List.mem_append.mp due with wakes | cancels
    · obtain ⟨flight, flies, wake⟩ := List.mem_map.mp wakes
      have reached := (orderly.flights flight flies).reached
      omega
    · cases cancels

/-- Until the caller cancels, a call gets where it would without that. -/
theorem Reaches.cut {call : Call σ α} {start run : Run σ α} {instant : Nat}
    (reaches : call.Reaches start run) (orderly : start.Orderly) (awaited : start.Awaited)
    (before : run.now < instant) : call.Reaches (start.cut instant) (run.cut instant) := by
  induction reaches with
  | refl => exact .refl
  | @tail middle next earlier step ih =>
      have move := step_eq_some_iff.mp step
      have waits := Reaches.awaited earlier awaited
      have passed := move.now_le (Reaches.orderly earlier orderly) waits
      exact (ih (Nat.lt_of_le_of_lt passed before)).tail
        (step_eq_some_iff.mpr (move.cut waits before))

/-- Whether a call is over does not depend on when its caller will cancel. -/
theorem step_cut_eq_none {call : Call σ α} {run : Run σ α} (instant : Nat)
    (ended : call.step run = none) : call.step (run.cut instant) = none := by
  rw [step_eq_none_iff] at ended ⊢
  exact ended

/-! ### The last state before an instant -/

/-- The last state of a call before an instant: with the next move the clock gets there. -/
structure LastBefore (call : Call σ α) (start : Run σ α) (instant : Nat) (state : Run σ α) :
    Prop where
  reached : call.Reaches start state
  before : state.now < instant
  crosses : ∃ next, call.step state = some next ∧ instant ≤ next.now

/-- A call that gets to an instant has a last state before it. -/
theorem Reaches.lastBefore {call : Call σ α} {start run : Run σ α} {instant : Nat}
    (reaches : call.Reaches start run) (begun : start.now < instant) (late : instant ≤ run.now) :
    ∃ state, call.LastBefore start instant state := by
  induction reaches with
  | refl => omega
  | @tail middle next earlier step ih =>
      by_cases before : middle.now < instant
      · exact ⟨middle, earlier, before, next, step, late⟩
      · exact ih (by omega)

/-- In the last state before an instant all that has ended is recorded, and whatever else is
under way waits. -/
theorem LastBefore.waits {call : Call σ α} {start state : Run σ α} {instant : Nat}
    (standing : call.LastBefore start instant state) :
    state.phase = .working ∧ state.ready = [] ∧ state.hasNews = false ∧ state.finished = [] ∧
      state.flights ≠ [] ∧ instant ≤ state.nextInstant := by
  obtain ⟨-, before, next, step, late⟩ := standing
  rcases (step_eq_some_iff.mp step).passes with same | ⟨working, idle, quiet, flying, same⟩
  · omega
  · have silent : state.finished = [] := by
      simp only [Run.hasNews, Bool.or_eq_false_iff] at quiet
      simpa using quiet.1
    exact ⟨working, idle, quiet, silent, flying, same ▸ late⟩

end Call

/-! ### A full window -/

/-- Nothing is handed out in this state, whatever the phase. -/
def Run.Filled (call : Call σ α) (run : Run σ α) : Prop :=
  run.halted = false → run.pending = [] ∨ call.window ≤ run.inFlight

/-- An invocation that ends stays in flight until its outcome is recorded. -/
theorem Run.Turn.inFlight {run next : Run σ α} {shard : ShardId} (turn : run.Turn shard next)
    (apart : run.roll.Nodup) : next.inFlight = run.inFlight := by
  have count := (turn.roll_perm apart).length_eq
  rw [turn.frame] at count ⊢
  simp only [Run.roll, List.length_append, List.length_map] at count
  simp only [Run.inFlight]
  omega

/-- While a call works its window is full, or it has nothing to hand out. -/
theorem Call.Move.filled {call : Call σ α} {run next : Run σ α} (move : call.Move run next)
    (orderly : run.Orderly) (filled : run.phase = .working → run.Filled call) :
    next.phase = .working → next.Filled call := by
  intro works
  cases move with
  | handOut collecting => cases collecting.symm.trans works
  | notice collecting => cases collecting.symm.trans works
  | record collecting =>
      rw [Run.record_eq] at works
      cases collecting.symm.trans works
  | work _ full =>
      rw [Run.hearCaller_eq]
      exact full
  | turn working _ turn =>
      have count := turn.inFlight orderly.apart
      have full := filled working
      rw [turn.frame] at count
      rw [Run.countTurn_eq, turn.frame]
      intro going
      refine (full going).imp_right fun room => ?_
      exact Nat.le_trans room (Nat.le_of_eq count.symm)
  | collect => cases works
  | moveOn working =>
      rw [Run.hearCaller_eq]
      exact filled working

/-! ### Winding down -/

/-- A call that stood in a state when its caller cancelled. Until it notices, its window is as
full as it was; from then on it has halted. So it hands nothing out, and what ends is given up. -/
structure Run.WindsDown (state run : Run σ α) : Prop where
  fired : run.cancellation = .fired
  answers : run.gathered.answers = state.gathered.answers
  off : ∀ answer ∈ run.finished, answer.result = .error .cancelled
  pending : run.pending = state.pending
  unheard : run.gathered.callerCancelled = false →
    run.inFlight = state.inFlight ∧ run.halted = state.halted
  heard : run.gathered.callerCancelled = true → run.halted = true

namespace Run

theorem WindsDown.calledOff {state run : Run σ α} (winds : state.WindsDown run) :
    run.calledOff = true := by
  rw [Run.calledOff, winds.fired]
  exact Bool.or_true _

/-- A turn of a call that winds down gives an invocation up. -/
theorem WindsDown.turn {state run served : Run σ α} {shard : ShardId}
    (winds : state.WindsDown run) (apart : run.roll.Nodup) (turn : run.Turn shard served) :
    state.WindsDown served := by
  have count := turn.inFlight apart
  have off := winds.calledOff
  obtain ⟨fired, answers, called, pending, unheard, heard⟩ := winds
  cases turn with
  | absent => exact ⟨fired, answers, called, pending, unheard, heard⟩
  | givenUp =>
      refine ⟨fired, answers, ?_, pending, ?_, heard⟩
      · intro answer mem
        rcases List.mem_append.mp mem with earlier | new
        · exact called answer earlier
        · rw [List.mem_singleton.mp new]
      · intro silent
        exact ⟨count.trans (unheard silent).1, (unheard silent).2⟩
  | ended _ wanted => cases off.symm.trans wanted
  | asleep _ wanted => cases off.symm.trans wanted

end Run

/-- Every move of a call that winds down winds it down further. -/
theorem Call.Move.windsDown {call : Call σ α} {state run next : Run σ α}
    (move : call.Move run next) (filled : state.Filled call) (orderly : run.Orderly)
    (winds : state.WindsDown run) : state.WindsDown next := by
  have off := winds.calledOff
  obtain ⟨fired, answers, called, pending, unheard, heard⟩ := winds
  cases move with
  | handOut collecting queue going room =>
      cases seen : run.gathered.callerCancelled with
      | false =>
          obtain ⟨count, same⟩ := unheard seen
          rcases filled (same.symm.trans going) with none | full
          · rw [← pending, queue] at none
            cases none
          · omega
      | true => cases going.symm.trans (heard seen)
  | notice =>
      refine ⟨fired, answers, called, pending, fun silent => ?_, fun _ => rfl⟩
      cases silent
  | @record answer others _ _ seen queue =>
      have noticed := seen (by rw [fired]; rfl)
      have dropped : answer.result = .error .cancelled := called answer (by simp [queue])
      obtain ⟨shard, _⟩ := answer
      subst dropped
      rw [Run.record_eq, Gathered.record_cancelled]
      refine ⟨fired, answers, fun other mem => called other (by simp [queue, mem]), pending,
        fun silent => ?_, fun _ => ?_⟩
      · cases noticed.symm.trans silent
      · simp [heard noticed]
  | work =>
      have settled : run.atWork.cancellation.settle run.atWork.now = run.atWork.cancellation := by
        simp only [Run.atWork, fired, Cancellation.settle]
      rw [run.atWork.hearCaller_of_settled settled]
      exact ⟨fired, answers, called, pending, unheard, heard⟩
  | @turn shard others served _ _ turn =>
      have before : state.WindsDown { run with ready := others } :=
        ⟨fired, answers, called, pending, unheard, heard⟩
      obtain ⟨fired, answers, called, pending, unheard, heard⟩ :=
        before.turn orderly.apart turn
      rw [Run.countTurn_eq]
      exact ⟨fired, answers, called, pending, unheard, heard⟩
  | collect => exact ⟨fired, answers, called, pending, unheard, heard⟩
  | moveOn _ idle _ flying =>
      -- Nothing waits in a call that is called off.
      obtain ⟨flight, flies⟩ := List.exists_mem_of_ne_nil _ flying
      have wanted := ((orderly.flights flight flies).waits (by simp [idle])).1
      cases off.symm.trans wanted

/-- A call that winds down ends with what it had recorded. Of what was in flight everything is
given up. -/
theorem Run.WindsDown.ends {call : Call σ α} {state run : Run σ α} (winds : state.WindsDown run)
    (kept : run.roll.Perm state.roll) (later : run.gathered.Extends state.gathered)
    (quiet : state.finished = []) (flying : state.flights ≠ []) (ended : call.step run = none) :
    run.gathered.callerCancelled = true ∧ ∃ calledOff,
      calledOff.Perm (state.flights.map Flight.shard) ∧
      run.gathered.cancelled = state.gathered.cancelled ++ calledOff := by
  obtain ⟨-, grounded, recorded, -⟩ := Call.step_eq_none_iff.mp ended
  constructor
  · by_contra silent
    have count := (winds.unheard (Bool.eq_false_iff.mpr silent)).1
    simp only [inFlight, grounded, recorded, quiet, List.length_nil] at count
    exact flying (List.eq_nil_of_length_eq_zero (by omega))
  · obtain ⟨calledOff, listed⟩ := later.cancelled
    refine ⟨calledOff, ?_, listed.symm⟩
    simp only [roll, Gathered.recorded, winds.answers, winds.pending, ← listed, grounded,
      recorded, quiet, List.map_nil, List.append_nil, List.append_assoc,
      List.perm_append_left_iff, List.perm_append_right_iff] at kept
    exact kept

/-! ### The cancelled call -/

namespace Call

/-- The caller cancels when the clock gets to the instant: from the last state before it the call
winds down. -/
theorem LastBefore.cancels {call : Call σ α} {start state : Run σ α} {instant : Nat}
    (standing : call.LastBefore start instant state) (orderly : start.Orderly)
    (awaited : start.Awaited) :
    ∃ run, call.Reaches (start.cut instant) run ∧ state.WindsDown run ∧
      run.roll = state.roll ∧ run.gathered = state.gathered := by
  have patient := standing.reached.awaited awaited
  obtain ⟨working, idle, quiet, silent, flying, late⟩ := standing.waits
  have reached := standing.reached.cut orderly awaited standing.before
  have move : call.Move (state.cut instant) (state.cut instant).atNextInstant.hearCaller :=
    .moveOn working idle ((patient.cut_hasNews instant).trans quiet) flying
  have now : (state.cut instant).nextInstant = instant :=
    (patient.nextInstant_cut flying instant).trans (Nat.min_eq_right late)
  refine ⟨_, reached.tail (step_eq_some_iff.mpr move), ?_, ?_, ?_⟩
  · rw [Run.hearCaller_eq]
    refine ⟨?_, rfl, ?_, rfl, fun _ => ⟨rfl, rfl⟩, ?_⟩
    · exact if_pos (Nat.le_of_eq now.symm)
    · intro answer mem
      have none : answer ∈ state.finished := mem
      rw [silent] at none
      cases none
    · intro noticed
      cases patient.unheard.symm.trans noticed
  · rw [Run.hearCaller_eq]
    rfl
  · rw [Run.hearCaller_eq]
    rfl

theorem Reaches.windsDown {call : Call σ α} {state run last : Run σ α}
    (reaches : call.Reaches run last) (filled : state.Filled call) (orderly : run.Orderly)
    (winds : state.WindsDown run) : state.WindsDown last := by
  induction reaches with
  | refl => exact winds
  | @tail middle next earlier step ih =>
      exact (step_eq_some_iff.mp step).windsDown filled (Reaches.orderly earlier orderly) ih

/-- While a call works its window is full, or it has nothing to hand out. -/
theorem Reaches.filled {call : Call σ α} {start run : Run σ α} (reaches : call.Reaches start run)
    (orderly : start.Orderly) (collecting : start.phase = .collecting)
    (working : run.phase = .working) : run.Filled call := by
  suffices kept : run.phase = .working → run.Filled call from kept working
  induction reaches with
  | refl => exact fun works => by cases collecting.symm.trans works
  | @tail middle next earlier step ih =>
      have orderly := Reaches.orderly earlier orderly
      refine (step_eq_some_iff.mp step).filled orderly fun works => ?_
      exact ih works works

end Call

namespace Executor

theorem start_cut (executor : Executor) (options : ScatterOptions) (targets : Targets)
    (operation : Shard → Operation σ α) {moment : Moment σ} (instant : Nat)
    (patient : moment.cancellation = .never) :
    executor.start options targets operation { moment with cancellation := .due instant } =
      (executor.start options targets operation moment).cut instant := by
  simp [start, Call.begin, Run.cut, patient, Cancellation.hasFired]

/-- A call that is cancelled at an instant, next to the same call whose caller waits for its end;
the two differ in nothing else, not even in the alarms that are set. If the call is over before
the instant, it brings back the same. Otherwise it brings back what the other had recorded in its
last state before the instant, in the same order; in that state no outcome is left to record. What
was in flight is called off, and what had not been handed out is skipped. What would end at the
very instant is called off too, so it does not matter whether anything would. -/
theorem scatterWith_cancelled_keeps (executor : Executor) (options : ScatterOptions)
    (targets : Targets) (operation : Shard → Operation σ α) {moment : Moment σ} {instant : Nat}
    (patient : moment.cancellation = .never) (later : moment.now < instant) :
    let whole := executor.scatterWith options targets operation moment
    let cut := (executor.scatterWith options targets operation
      { moment with cancellation := .due instant }).1
    (whole.2.now < instant → cut = whole.1 ∧ cut.callerCancelled = false) ∧
    (instant ≤ whole.2.now → ∃ state,
      Call.LastBefore ⟨operation, options⟩ (executor.start options targets operation moment)
        instant state ∧
      state.finished = [] ∧
      state.gathered.answers <+: whole.1.answers ∧
      state.gathered.cancelled <+: whole.1.cancelled ∧
      cut.callerCancelled = true ∧
      cut.answers = state.gathered.answers ∧
      (∃ calledOff, calledOff.Perm (state.flights.map Flight.shard) ∧
        cut.cancelled = state.gathered.cancelled ++ calledOff) ∧
      cut.skipped = state.pending.map Shard.id) := by
  obtain ⟨last, ends, wholeEq⟩ := executor.scatterWith_ends options targets operation moment
  obtain ⟨cutLast, cutEnds, cutEq⟩ := executor.scatterWith_ends options targets operation
    { moment with cancellation := .due instant }
  have orderly := executor.start_orderly options targets operation moment
  have cutOrderly := executor.start_orderly options targets operation
    { moment with cancellation := .due instant }
  have awaited := executor.start_awaited options targets operation patient
  rw [executor.start_cut options targets operation instant patient] at cutEnds cutOrderly
  rw [wholeEq, cutEq]
  constructor
  · intro early
    have reached := ends.1.cut orderly awaited early
    obtain rfl := cutEnds.unique ⟨reached, Call.step_cut_eq_none instant ends.2⟩
    exact ⟨rfl, (ends.1.awaited awaited).unheard⟩
  · intro late
    obtain ⟨state, standing⟩ := ends.1.lastBefore later late
    obtain ⟨working, -, -, silent, flying, -⟩ := standing.waits
    have kept := (ends.of_reaches standing.reached).extends
    obtain ⟨run, reached, winds, sameRoll, sameGathered⟩ := standing.cancels orderly awaited
    have onward := cutEnds.of_reaches reached
    have runOrderly := reached.orderly cutOrderly
    have filled := standing.reached.filled orderly rfl working
    have wound := onward.windsDown filled runOrderly winds
    obtain ⟨noticed, givenUp⟩ := wound.ends (sameRoll ▸ onward.roll_perm runOrderly)
      (sameGathered ▸ onward.extends) silent flying cutEnds.2
    exact ⟨state, standing, silent, kept.answers, kept.cancelled, noticed, wound.answers, givenUp,
      congrArg (List.map Shard.id) wound.pending⟩

/-- Of two shards that are invoked one after the other the second hangs. Left alone the call is
over when the time limit of the second is reached; its caller cancels before that. -/
theorem scatterWith_cancelled_keeps_hanging :
    let options : ScatterOptions := { maxConcurrency := 1, limit := .ofMillis 100 }
    let script := fun shard : Shard =>
      if shard = .first then ({ delay := .ofMillis 5 } : Script) else { finale := .hang }
    let operation := fun shard => (script shard).operation shard
    let moment : Moment Stage := { now := 0, world := {} }
    let whole := (withDefaults .pair).scatterWith options .all operation moment
    let cut := (withDefaults .pair).scatterWith options .all operation
      { moment with cancellation := .due 20 }
    20 ≤ whole.2.now ∧ cut.1.callerCancelled = true := by
  intro options script operation moment whole cut
  have patient : moment.cancellation = .never := rfl
  have later : moment.now < 20 := by decide
  have late : 20 ≤ whole.2.now := by decide +kernel
  obtain ⟨-, keeps⟩ := (withDefaults .pair).scatterWith_cancelled_keeps options .all operation
    patient later
  obtain ⟨state, -, -, -, -, noticed, -⟩ := keeps late
  exact ⟨late, noticed⟩

end Executor

end ShardFleet
