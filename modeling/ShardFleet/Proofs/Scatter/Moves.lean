import Mathlib.Logic.Relation
import ShardFleet.Scatter.Executor

/-!
The moves of a scatter-gather call, told apart.

`Call.step` computes the next state of a call. Here the same step is a relation with one
constructor for each kind of move (`Call.Move`, `Call.step_eq_some_iff`), and each turn of an
invocation is one of four (`Run.Turn`): an invariant is proved by one case for each of them. A
call that is over has nothing in flight and hands nothing out any more
(`Call.step_eq_none_iff`).

A state is reached from another by moves (`Call.Reaches`). What every move keeps, every reached
state has (`Call.Reaches.keeps`), and so does the state in which the call ends
(`Call.reaches_advance`). A call has one end (`Call.Ends.unique`). Its caller may wait for it and
never cancel (`Run.Awaited`).
-/

namespace ShardFleet

variable {σ α : Type}

/-- Whether an outcome is a failure: neither a value nor called off. -/
def Answer.isFailure (answer : Answer α) : Bool :=
  match answer.result with
  | .ok _ | .error .cancelled => false
  | .error _ => true

namespace Gathered

@[simp] theorem record_callerCancelled (gathered : Gathered α) (answer : Answer α) :
    (gathered.record answer).callerCancelled = gathered.callerCancelled := by
  unfold record
  split <;> rfl

theorem record_cancelled (gathered : Gathered α) (id : ShardId) :
    gathered.record ⟨id, .error .cancelled⟩ =
      { gathered with cancelled := gathered.cancelled ++ [id] } :=
  rfl

theorem record_answer (gathered : Gathered α) {answer : Answer α}
    (kept : answer.result ≠ .error .cancelled) :
    gathered.record answer = { gathered with answers := gathered.answers ++ [answer] } := by
  unfold record
  split
  · next off => exact absurd off kept
  · rfl

/-- An answer is an outcome that was not called off. -/
theorem mem_answers_record {gathered : Gathered α} {answer other : Answer α}
    (mem : other ∈ (gathered.record answer).answers) :
    other ∈ gathered.answers ∨ other = answer ∧ answer.result ≠ .error .cancelled := by
  by_cases off : answer.result = .error .cancelled
  · obtain ⟨shard, _⟩ := answer
    subst off
    exact .inl mem
  · rw [gathered.record_answer off] at mem
    refine (List.mem_append.mp mem).imp_right fun new => ?_
    exact ⟨List.mem_singleton.mp new, off⟩

theorem mem_cancelled_record {gathered : Gathered α} {answer : Answer α} {id : ShardId}
    (mem : id ∈ (gathered.record answer).cancelled) :
    id ∈ gathered.cancelled ∨ id = answer.shard ∧ answer.result = .error .cancelled := by
  by_cases off : answer.result = .error .cancelled
  · obtain ⟨shard, _⟩ := answer
    subst off
    refine (List.mem_append.mp mem).imp_right fun new => ?_
    exact ⟨List.mem_singleton.mp new, rfl⟩
  · rw [gathered.record_answer off] at mem
    exact .inl mem

end Gathered

/-- An invocation that sets a timer at an instant. -/
def Flight.fallAsleep (flight : Flight σ α) (now ticket ticks : Nat)
    (abandon : σ → σ) (rest : Job σ α) : Flight σ α :=
  { flight with
    wake := now + ticks
    ticket
    limitTicket := some (flight.limitTicket.getD ticket)
    abandon
    rest }

namespace Run

/-! ### What the parts of a move change -/

/-- What waits and does not queue, in the order in which it was handed out. -/
def waiting (run : Run σ α) : List ShardId :=
  (run.flights.map Flight.shard).filter fun shard => !run.ready.contains shard

/-- Whether the caller is heard to cancel at this instant. -/
def hears (run : Run σ α) : Bool :=
  (run.cancellation.settle run.now).hasFired && !run.cancellation.hasFired

/-- Whether a batch of turns ends with the next turn, with something to collect. -/
def endsBatch (run : Run σ α) : Bool :=
  (run.turns + 1) % Fairness.batch = 0 && run.hasNews

/-- Whether recording an outcome calls off what is under way. -/
def recalls (run : Run σ α) (tolerance : Tolerance) (answer : Answer α) : Bool :=
  answer.isFailure && tolerance = .failFast && !run.halted

/-- The call when it turns to the queue, before the caller is heard. -/
def atWork (run : Run σ α) : Run σ α :=
  { run with phase := .working, turns := run.queued, queued := 0 }

/-- The clock at the next instant, with what is due then in the queue, before the caller is
heard. -/
def atNextInstant (run : Run σ α) : Run σ α :=
  let moved := { run with now := run.nextInstant, turns := run.alarms.count run.nextInstant }
  { moved with ready := moved.due }

theorem hearCaller_eq (run : Run σ α) :
    run.hearCaller = { run with
      cancellation := run.cancellation.settle run.now
      ready := run.ready ++ if run.hears then run.waiting else [] } := by
  by_cases heard : run.hears = true
  · rw [if_pos heard]
    exact if_pos heard
  · rw [if_neg heard, List.append_nil]
    exact if_neg heard

/-- A caller of whom there is nothing new to hear changes nothing. -/
theorem hearCaller_of_settled (run : Run σ α)
    (settled : run.cancellation.settle run.now = run.cancellation) : run.hearCaller = run := by
  have deaf : run.hears = false := by
    rw [hears, settled]
    exact Bool.and_not_self _
  rw [hearCaller_eq, deaf, settled, if_neg Bool.false_ne_true, List.append_nil]

theorem countTurn_eq (run : Run σ α) :
    run.countTurn = { run with
      turns := if run.endsBatch then 0 else run.turns + 1
      phase := if run.endsBatch then .collecting else run.phase } := by
  simp only [countTurn, endsBatch, Bool.and_eq_true, decide_eq_true_eq]
  split <;> rfl

theorem record_of_kept (run : Run σ α) (tolerance : Tolerance) {answer : Answer α}
    (kept : answer.isFailure = false) (others : List (Answer α)) :
    run.record tolerance answer others =
      { run with finished := others, gathered := run.gathered.record answer } := by
  obtain ⟨shard, result⟩ := answer
  cases result with
  | ok value => rfl
  | error error =>
      cases error with
      | cancelled => rfl
      | _ => cases kept

theorem record_of_failure (run : Run σ α) (tolerance : Tolerance) {answer : Answer α}
    (failure : answer.isFailure = true) (others : List (Answer α)) :
    run.record tolerance answer others =
      let recorded := { run with finished := others, gathered := run.gathered.record answer }
      if tolerance = .failFast ∧ !run.halted then
        { recorded with halted := true, recalled := true }.rouse
      else recorded := by
  obtain ⟨shard, result⟩ := answer
  cases result with
  | ok value => cases failure
  | error error =>
      cases error with
      | cancelled => cases failure
      | _ => rfl

theorem record_eq (run : Run σ α) (tolerance : Tolerance) (answer : Answer α)
    (others : List (Answer α)) :
    run.record tolerance answer others = { run with
      finished := others
      gathered := run.gathered.record answer
      halted := run.halted || run.recalls tolerance answer
      recalled := run.recalled || run.recalls tolerance answer
      ready := run.ready ++ if run.recalls tolerance answer then run.waiting else [] } := by
  cases failure : answer.isFailure with
  | false =>
      rw [run.record_of_kept tolerance failure others]
      simp [recalls, failure]
  | true =>
      rw [run.record_of_failure tolerance failure others]
      by_cases recalled : tolerance = .failFast ∧ !run.halted
      · have recalls : run.recalls tolerance answer = true := by
          simpa [Run.recalls, failure] using recalled
        rw [if_pos recalls, recalls, Bool.or_true, Bool.or_true]
        exact if_pos recalled
      · have kept : run.recalls tolerance answer = false := by
          simpa [Run.recalls, failure] using recalled
        rw [kept, Bool.or_false, Bool.or_false, if_neg Bool.false_ne_true, List.append_nil]
        exact if_neg recalled

/-! ### Turns -/

/-- What becomes of a call when the invocation of a shard has its turn. -/
inductive Turn (run : Run σ α) (shard : ShardId) : Run σ α → Prop where
  | absent (missing : run.flights.find? (·.shard = shard) = none) : Turn run shard run
  | givenUp {flight : Flight σ α}
      (found : run.flights.find? (·.shard = shard) = some flight)
      (off : run.calledOff = true) :
      Turn run shard
        ({ run with world := flight.abandon run.world }.finish shard (.error .cancelled))
  | ended {flight : Flight σ α} {world : σ} {result : Except Error α}
      (found : run.flights.find? (·.shard = shard) = some flight)
      (wanted : run.calledOff = false)
      (proceeds : Activity.proceed run.now flight.rest run.world = (world, .ended result)) :
      Turn run shard ({ run with world }.finish shard result)
  | asleep {flight : Flight σ α} {world : σ} {ticks : Nat} {abandon : σ → σ} {rest : Job σ α}
      (found : run.flights.find? (·.shard = shard) = some flight)
      (wanted : run.calledOff = false)
      (proceeds : Activity.proceed run.now flight.rest run.world =
        (world, .asleep ticks abandon rest)) :
      Turn run shard { run with
        world
        tickets := run.tickets + 1
        flights := run.flights.map fun other =>
          if other.shard = shard then
            flight.fallAsleep run.now run.tickets ticks abandon rest
          else other }

theorem shard_of_find {run : Run σ α} {shard : ShardId} {flight : Flight σ α}
    (found : run.flights.find? (·.shard = shard) = some flight) : flight.shard = shard := by
  simpa using List.find?_some found

theorem turn_serve (run : Run σ α) (shard : ShardId) : run.Turn shard (run.serve shard) := by
  unfold serve
  split
  · next missing => exact .absent missing
  · next flight found =>
      have same := shard_of_find found
      subst same
      split
      · next off => exact .givenUp found off
      · next on =>
          have wanted : run.calledOff = false := Bool.eq_false_iff.mpr on
          unfold resume
          split
          · next proceeds => exact .ended found wanted proceeds
          · next proceeds => exact .asleep found wanted proceeds

theorem Turn.eq_serve {run next : Run σ α} {shard : ShardId} (turn : run.Turn shard next) :
    run.serve shard = next := by
  unfold serve
  cases turn with
  | absent missing => rw [missing]
  | givenUp found off => rw [found]; exact if_pos off
  | ended found wanted proceeds =>
      have same := shard_of_find found
      subst same
      simp only [found, wanted, resume, proceeds]
      rfl
  | asleep found wanted proceeds =>
      have same := shard_of_find found
      subst same
      simp only [found, wanted, resume, proceeds]
      rfl

/-- A turn changes the world and what is in flight, and may end an invocation. -/
theorem Turn.frame {run next : Run σ α} {shard : ShardId} (turn : run.Turn shard next) :
    next = { run with
      world := next.world
      tickets := next.tickets
      flights := next.flights
      finished := next.finished } := by
  cases turn <;> rfl

end Run

namespace Call

/-- The moves of a call. -/
inductive Move (call : Call σ α) (run : Run σ α) : Run σ α → Prop where
  | handOut {shard : Shard} {others : List Shard} (collecting : run.phase = .collecting)
      (pending : run.pending = shard :: others) (going : run.halted = false)
      (room : run.inFlight < call.window) :
      Move call run (call.handOut { run with pending := others } shard)
  | notice (collecting : run.phase = .collecting)
      (filled : run.halted = false → run.pending = [] ∨ call.window ≤ run.inFlight)
      (busy : run.inFlight ≠ 0) (fired : run.cancellation.hasFired = true)
      (unseen : run.gathered.callerCancelled = false) :
      Move call run { run with
        gathered := { run.gathered with callerCancelled := true }
        halted := true }
  | record {answer : Answer α} {others : List (Answer α)}
      (collecting : run.phase = .collecting)
      (filled : run.halted = false → run.pending = [] ∨ call.window ≤ run.inFlight)
      (seen : run.cancellation.hasFired = true → run.gathered.callerCancelled = true)
      (finished : run.finished = answer :: others) :
      Move call run (run.record call.options.tolerance answer others)
  | work (collecting : run.phase = .collecting)
      (filled : run.halted = false → run.pending = [] ∨ call.window ≤ run.inFlight)
      (flying : run.flights ≠ [])
      (seen : run.cancellation.hasFired = true → run.gathered.callerCancelled = true)
      (finished : run.finished = []) :
      Move call run run.atWork.hearCaller
  | turn {shard : ShardId} {others : List ShardId} {served : Run σ α}
      (working : run.phase = .working) (queue : run.ready = shard :: others)
      (turn : { run with ready := others }.Turn shard served) :
      Move call run served.countTurn
  | collect (working : run.phase = .working) (idle : run.ready = [])
      (news : run.hasNews = true ∨ run.flights = []) :
      Move call run { run with turns := 0, phase := .collecting }
  | moveOn (working : run.phase = .working) (idle : run.ready = []) (quiet : run.hasNews = false)
      (flying : run.flights ≠ []) :
      Move call run run.atNextInstant.hearCaller

theorem move_collect {call : Call σ α} {run next : Run σ α} (collecting : run.phase = .collecting)
    (filled : run.halted = false → run.pending = [] ∨ call.window ≤ run.inFlight)
    (collects : call.collect run = some next) : call.Move run next := by
  unfold collect at collects
  split at collects
  · cases collects
  · next busy =>
      split at collects
      · next news =>
          cases collects
          exact .notice collecting filled busy news.1 (by simpa using news.2)
      · next old =>
          have seen : run.cancellation.hasFired = true → run.gathered.callerCancelled = true :=
            fun fired => by simpa [fired] using old
          split at collects
          · next answer others finished =>
              cases collects
              exact .record collecting filled seen finished
          · next finished =>
              cases collects
              refine .work collecting filled (fun grounded => busy ?_) seen finished
              rw [Run.inFlight, grounded, finished]
              rfl

theorem step_working (call : Call σ α) {run : Run σ α} (working : run.phase = .working) :
    call.step run = some run.work := by
  simp only [Call.step, working]

/-- With the window filled, or nothing left to hand out, a move while collecting collects. -/
theorem step_filled {call : Call σ α} {run : Run σ α} (collecting : run.phase = .collecting)
    (filled : run.halted = false → run.pending = [] ∨ call.window ≤ run.inFlight) :
    call.step run = call.collect run := by
  simp only [Call.step, collecting]
  split
  · next shard others pending =>
      refine if_neg fun room => ?_
      obtain ⟨going, space⟩ := room
      rcases filled (by simpa using going) with none | full
      · rw [pending] at none
        cases none
      · omega
  · rfl

/-- What a call computes is one of its moves. -/
theorem move_of_step {call : Call σ α} {run next : Run σ α} (step : call.step run = some next) :
    call.Move run next := by
  unfold Call.step at step
  split at step
  · next working =>
      cases step
      unfold Run.work
      split
      · next shard others queue => exact .turn working queue (Run.turn_serve _ _)
      · next idle =>
          split
          · next news => exact .collect working idle (by simpa using news)
          · next quiet =>
              simp only [Bool.or_eq_true, List.isEmpty_iff, not_or, Bool.not_eq_true] at quiet
              exact .moveOn working idle quiet.1 quiet.2
  · next collecting =>
      split at step
      · next shard others pending =>
          split at step
          · next room =>
              cases step
              exact .handOut collecting pending (by simpa using room.1) room.2
          · next full =>
              refine move_collect collecting (fun going => .inr ?_) step
              simpa [going] using full
      · next pending => exact move_collect collecting (fun _ => .inl pending) step

/-- Every move is what the call computes. -/
theorem Move.step_eq {call : Call σ α} {run next : Run σ α} (move : call.Move run next) :
    call.step run = some next := by
  cases move with
  | handOut collecting pending going room =>
      simp only [Call.step, collecting, pending]
      exact if_pos ⟨by simp [going], room⟩
  | notice collecting filled busy fired unseen =>
      rw [step_filled collecting filled, Call.collect, if_neg busy]
      exact if_pos ⟨fired, by simp [unseen]⟩
  | record collecting filled seen finished =>
      have busy : run.inFlight ≠ 0 := by simp [Run.inFlight, finished]
      rw [step_filled collecting filled, Call.collect, if_neg busy, if_neg, finished]
      exact fun news => by simp [seen news.1] at news
  | work collecting filled flying seen finished =>
      have busy : run.inFlight ≠ 0 := by simpa [Run.inFlight, finished] using flying
      rw [step_filled collecting filled, Call.collect, if_neg busy, if_neg]
      · split
        · next answer others nonempty => simp [finished] at nonempty
        · rfl
      · exact fun news => by simp [seen news.1] at news
  | turn working queue turn =>
      rw [step_working call working, Run.work, queue, ← turn.eq_serve]
  | collect working idle news =>
      rw [step_working call working, Run.work, idle]
      exact congrArg some (if_pos (by simpa using news))
  | moveOn working idle quiet flying =>
      rw [step_working call working, Run.work, idle]
      exact congrArg some (if_neg (by simp [quiet, flying]))

theorem step_eq_some_iff {call : Call σ α} {run next : Run σ α} :
    call.step run = some next ↔ call.Move run next :=
  ⟨move_of_step, Move.step_eq⟩

/-- A call is over when nothing is in flight and nothing is left to hand out, or it has halted. -/
theorem step_eq_none_iff {call : Call σ α} {run : Run σ α} :
    call.step run = none ↔ run.phase = .collecting ∧ run.flights = [] ∧ run.finished = [] ∧
      (run.halted = false → run.pending = []) := by
  have window_pos : 0 < call.window := by simp only [window]; omega
  have grounded : run.inFlight = 0 ↔ run.flights = [] ∧ run.finished = [] := by
    simp [Run.inFlight]
  constructor
  · intro ended
    cases phase : run.phase with
    | working =>
        rw [step_working call phase] at ended
        cases ended
    | collecting =>
        have filled : run.halted = false → run.pending = [] ∨ call.window ≤ run.inFlight := by
          intro going
          cases pending : run.pending with
          | nil => exact .inl rfl
          | cons shard others =>
              refine .inr (Nat.le_of_not_lt fun room => ?_)
              rw [step_eq_some_iff.mpr (.handOut phase pending going room)] at ended
              cases ended
        rw [step_filled phase filled, collect] at ended
        split at ended
        · next empty =>
            refine ⟨rfl, (grounded.mp empty).1, (grounded.mp empty).2, fun going => ?_⟩
            exact (filled going).resolve_right (by omega)
        · split at ended
          · cases ended
          · split at ended <;> cases ended
  · rintro ⟨collecting, flights, finished, handed⟩
    have empty := grounded.mpr ⟨flights, finished⟩
    rw [step_filled collecting fun going => .inl (handed going), collect, if_pos empty]

/-! ### Reached states -/

/-- The second state comes after the first by moves of the call. -/
def Reaches (call : Call σ α) : Run σ α → Run σ α → Prop :=
  Relation.ReflTransGen fun run next => call.step run = some next

/-- The call comes to its end in the second state. -/
def Ends (call : Call σ α) (start last : Run σ α) : Prop :=
  call.Reaches start last ∧ call.step last = none

/-- What every move keeps, every reached state has. -/
theorem Reaches.keeps {call : Call σ α} {holds : Run σ α → Prop}
    (move : ∀ {run next}, holds run → call.Move run next → holds next) {start run : Run σ α}
    (reaches : call.Reaches start run) (held : holds start) : holds run := by
  induction reaches with
  | refl => exact held
  | tail _ step ih => exact move ih (step_eq_some_iff.mp step)

/-- A call that makes moves reaches what it gets to. -/
theorem reaches_advance (call : Call σ α) (moves : Nat) (run : Run σ α) :
    call.Reaches run (call.advance moves run) := by
  induction moves generalizing run with
  | zero => exact .refl
  | succ moves ih =>
      rw [advance]
      split
      · exact .refl
      · next next step => exact .head step (ih next)

/-- From every state that a call gets to it goes on to its end. -/
theorem Ends.of_reaches {call : Call σ α} {start run last : Run σ α}
    (ends : call.Ends start last) (reaches : call.Reaches start run) : call.Reaches run last := by
  have functional : Relator.RightUnique fun run next => call.step run = some next :=
    fun _ _ _ first second => Option.some.inj (first.symm.trans second)
  rcases Relation.ReflTransGen.total_of_right_unique functional reaches ends.1 with
    onward | beyond
  · exact onward
  · rcases beyond.cases_head with rfl | ⟨next, step, -⟩
    · exact .refl
    · rw [ends.2] at step
      cases step

/-- A call has one end. -/
theorem Ends.unique {call : Call σ α} {start last other : Run σ α} (ends : call.Ends start last)
    (otherEnds : call.Ends start other) : other = last := by
  rcases (ends.of_reaches otherEnds.1).cases_head with same | ⟨next, step, -⟩
  · exact same
  · rw [otherEnds.2] at step
    cases step

end Call

/-! ### Callers who wait -/

theorem Cancellation.unfired {cancellation : Cancellation} (never : cancellation = .never) :
    cancellation.hasFired = false := by
  rw [never]
  rfl

/-- The caller waits for the call to end, and never cancels. -/
structure Run.Awaited (run : Run σ α) : Prop where
  never : run.cancellation = .never
  unheard : run.gathered.callerCancelled = false

namespace Run

theorem Awaited.unfired {run : Run σ α} (awaited : run.Awaited) :
    run.cancellation.hasFired = false :=
  Cancellation.unfired awaited.never

/-- A caller who never cancels has nothing to be heard. -/
theorem Awaited.hearCaller {run : Run σ α} (awaited : run.Awaited) : run.hearCaller = run := by
  refine run.hearCaller_of_settled ?_
  rw [awaited.never]
  rfl

end Run

/-- A caller who waits goes on waiting. -/
theorem Call.Move.awaited {call : Call σ α} {run next : Run σ α} (move : call.Move run next)
    (awaited : run.Awaited) : next.Awaited := by
  obtain ⟨never, unheard⟩ := awaited
  cases move with
  | handOut => exact ⟨never, unheard⟩
  | notice _ _ _ fired =>
      rw [never] at fired
      cases fired
  | record =>
      rw [Run.record_eq]
      exact ⟨never, by simp [unheard]⟩
  | work =>
      have waits : run.atWork.Awaited := ⟨never, unheard⟩
      rw [waits.hearCaller]
      exact waits
  | turn _ _ turn =>
      rw [Run.countTurn_eq, turn.frame]
      exact ⟨never, unheard⟩
  | collect => exact ⟨never, unheard⟩
  | moveOn =>
      have waits : run.atNextInstant.Awaited := ⟨never, unheard⟩
      rw [waits.hearCaller]
      exact waits

theorem Call.Reaches.awaited {call : Call σ α} {start run : Run σ α}
    (reaches : call.Reaches start run) (awaited : start.Awaited) : run.Awaited :=
  reaches.keeps (fun held move => move.awaited held) awaited

end ShardFleet
