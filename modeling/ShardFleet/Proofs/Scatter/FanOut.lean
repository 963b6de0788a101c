import ShardFleet.Proofs.Scatter.Cancellation
import ShardFleet.Proofs.Scatter.LeftOut

/-!
A call keeps its fan-out in bounds.

An invocation that is handed out queues for its first turn. With this turn its operation starts,
unless it was called off meanwhile (`Run.starter?`). The window has room for all that is in flight
(`Run.FitsWindow`), hence for the operations that have started and not ended (`Run.underWay`).

First turns come in the order in which shards are handed out, and what is called off gives up all
first turns that are left. So at any time the targets are those that started, then those that were
given up, then those that queue, then those to be handed out (`Run.InTurn`). Main statement:
`Executor.fan_out_bounded`.
-/

namespace ShardFleet

variable {σ α : Type}

/-! ### Operations that start -/

/-- Whether the operation has started: the timer of its limit is set when it first waits. -/
def Flight.hasStarted (flight : Flight σ α) : Bool := flight.limitTicket.isSome

@[simp] theorem Flight.hasStarted_fallAsleep (flight : Flight σ α) (now ticket ticks : Nat)
    (abandon : σ → σ) (rest : Job σ α) :
    (flight.fallAsleep now ticket ticks abandon rest).hasStarted = true :=
  rfl

namespace Run

/-- What is handed out and has not started, in the order in which it was handed out. -/
def fresh (run : Run σ α) : List ShardId :=
  (run.flights.filter fun flight => !flight.hasStarted).map Flight.shard

/-- The shard whose operation starts with the next move. -/
def starter? (run : Run σ α) : Option ShardId :=
  match run.phase, run.ready with
  | .working, shard :: _ => if run.calledOff = false ∧ shard ∈ run.fresh then some shard else none
  | _, _ => none

/-- The shards whose operations have started and not ended, with that which starts next. -/
def underWay (run : Run σ α) : List ShardId :=
  (run.flights.filter Flight.hasStarted).map Flight.shard ++ run.starter?.toList

theorem starter?_of_collecting {run : Run σ α} (collecting : run.phase = .collecting) :
    run.starter? = none := by
  simp only [starter?, collecting]

theorem starter?_of_idle {run : Run σ α} (idle : run.ready = []) : run.starter? = none := by
  unfold starter?
  rw [idle]
  split
  · next absent => cases absent
  · rfl

theorem append_starter?_of_none {run : Run σ α} (none : run.starter? = none)
    (started : List ShardId) : started ++ run.starter?.toList = started := by
  rw [none, Option.toList_none, List.append_nil]

theorem starter?_of_queue {run : Run σ α} {shard : ShardId} {others : List ShardId}
    (working : run.phase = .working) (queue : run.ready = shard :: others) :
    run.starter? = if run.calledOff = false ∧ shard ∈ run.fresh then some shard else none := by
  simp only [starter?, working, queue]

theorem mem_fresh_of_starter? {run : Run σ α} {shard : ShardId}
    (starts : run.starter? = some shard) : run.calledOff = false ∧ shard ∈ run.fresh := by
  unfold starter? at starts
  split at starts
  · split at starts
    · next both =>
        cases starts
        exact both
    · cases starts
  · cases starts

/-- What is under way is in flight. -/
theorem length_underWay_le (run : Run σ α) : run.underWay.length ≤ run.flights.length := by
  have split := List.length_eq_length_filter_add (l := run.flights) Flight.hasStarted
  simp only [underWay, List.length_append, List.length_map]
  cases starts : run.starter? with
  | none => simp only [Option.toList_none, List.length_nil]; omega
  | some shard =>
      have next := List.length_pos_of_mem (mem_fresh_of_starter? starts).2
      simp only [fresh, List.length_map] at next
      simp only [Option.toList_some, List.length_singleton]
      omega

/-! ### The window -/

/-- What is in flight fits the window. -/
def FitsWindow (call : Call σ α) (run : Run σ α) : Prop := run.inFlight ≤ call.window

end Run

namespace Call

theorem inFlight_handOut (call : Call σ α) (run : Run σ α) (shard : Shard) :
    (call.handOut run shard).inFlight = run.inFlight + 1 := by
  simp only [Run.inFlight, handOut, List.length_append, List.length_singleton]
  omega

theorem fresh_handOut (call : Call σ α) (run : Run σ α) (shard : Shard) :
    (call.handOut run shard).fresh = run.fresh ++ [shard.id] := by
  simp [Run.fresh, handOut, Flight.hasStarted]

/-- Room is made when a shard is handed out, and nothing else takes any. -/
theorem Move.fitsWindow {call : Call σ α} {run next : Run σ α} (move : call.Move run next)
    (orderly : run.Orderly) (fits : run.FitsWindow call) : next.FitsWindow call := by
  unfold Run.FitsWindow at *
  cases move with
  | handOut _ _ _ room =>
      rw [inFlight_handOut]
      exact room
  | notice => exact fits
  | record _ _ _ finished =>
      rw [Run.record_eq]
      simp only [Run.inFlight, finished, List.length_cons] at fits ⊢
      omega
  | work =>
      rw [Run.hearCaller_eq]
      exact fits
  | @turn shard others served _ _ turn =>
      have count : served.inFlight = run.inFlight := turn.inFlight orderly.apart
      rw [Run.countTurn_eq]
      exact count.trans_le fits
  | collect => exact fits
  | moveOn =>
      rw [Run.hearCaller_eq]
      exact fits

theorem Reaches.fitsWindow {call : Call σ α} {start run : Run σ α}
    (reaches : call.Reaches start run) (orderly : start.Orderly)
    (fits : start.FitsWindow call) : run.FitsWindow call := by
  induction reaches with
  | refl => exact fits
  | tail earlier step ih =>
      exact (step_eq_some_iff.mp step).fitsWindow (Reaches.orderly earlier orderly) ih

/-- The window has room for one operation even if the options allow none. -/
theorem Reaches.length_underWay_le {call : Call σ α} {start run : Run σ α}
    (reaches : call.Reaches start run) (orderly : start.Orderly)
    (fits : start.FitsWindow call) :
    run.underWay.length ≤ max 1 call.options.maxConcurrency := by
  have within : run.inFlight ≤ call.window := reaches.fitsWindow orderly fits
  have flying : run.flights.length ≤ run.inFlight := Nat.le_add_right _ _
  calc run.underWay.length ≤ run.flights.length := run.length_underWay_le
    _ ≤ call.window := flying.trans within
    _ = max 1 call.options.maxConcurrency := Nat.max_comm _ _

/-! ### Calls that were called off -/

/-- What was called off stays so. -/
theorem Move.calledOff {call : Call σ α} {run next : Run σ α} (move : call.Move run next)
    (off : run.calledOff = true) : next.calledOff = true := by
  cases move with
  | handOut => exact off
  | notice => exact off
  | record =>
      rw [Run.record_eq]
      rcases Bool.or_eq_true_iff.mp off with recalled | fired
      · simp [Run.calledOff, recalled]
      · simp [Run.calledOff, fired]
  | work => exact run.atWork.calledOff_hearCaller off
  | turn _ _ turn =>
      rw [Run.countTurn_eq, turn.frame]
      exact off
  | collect => exact off
  | moveOn => exact run.atNextInstant.calledOff_hearCaller off

end Call

/-! ### First turns -/

namespace Run

theorem fresh_finish (run : Run σ α) (shard : ShardId) (result : Except Error α) :
    (run.finish shard result).fresh = run.fresh.filter (· ≠ shard) := by
  simp only [fresh, finish, List.filter_map, List.filter_filter, Function.comp_def]
  simp only [Bool.and_comm]

/-- An invocation that falls asleep has started. -/
theorem fresh_fallAsleep (flights : List (Flight σ α)) (flight : Flight σ α) (shard : ShardId)
    (now ticket ticks : Nat) (abandon : σ → σ) (rest : Job σ α) :
    ((flights.map fun other =>
        if other.shard = shard then flight.fallAsleep now ticket ticks abandon rest
        else other).filter fun flight => !flight.hasStarted).map Flight.shard =
      ((flights.filter fun flight => !flight.hasStarted).map Flight.shard).filter (· ≠ shard) := by
  induction flights with
  | nil => rfl
  | cons other rest ih =>
      by_cases same : other.shard = shard
      · cases started : other.hasStarted <;> simpa [same, started] using ih
      · cases started : other.hasStarted <;> simpa [same, started] using ih

/-- Whoever has a turn does not wait for its first one any more. -/
theorem Turn.fresh_eq {run served : Run σ α} {shard : ShardId} (turn : run.Turn shard served) :
    served.fresh = run.fresh.filter (· ≠ shard) := by
  cases turn with
  | absent missing =>
      refine (List.filter_eq_self.mpr fun id mem => ?_).symm
      obtain ⟨flight, flies, rfl⟩ := List.mem_map.mp mem
      simpa using List.find?_eq_none.mp missing flight (List.mem_filter.mp flies).1
  | givenUp => exact fresh_finish _ _ _
  | ended => exact fresh_finish _ _ _
  | asleep => exact fresh_fallAsleep _ _ _ _ _ _ _ _

/-- First turns come in the order of the queue. -/
theorem fresh_eq_cons {run : Run σ α} {shard : ShardId} {others : List ShardId}
    (apart : run.ready.Nodup) (queue : run.ready = shard :: others)
    (queued : run.fresh.Sublist run.ready) (first : shard ∈ run.fresh) :
    run.fresh = shard :: run.fresh.filter (· ≠ shard) := by
  rw [queue] at apart queued
  have absent := (List.nodup_cons.mp apart).1
  rcases List.sublist_cons_iff.mp queued with later | ⟨rest, split, later⟩
  · exact absurd (later.mem first) absent
  · have others : rest.filter (· ≠ shard) = rest :=
      List.filter_eq_self.mpr fun id mem => decide_eq_true fun same =>
        absent (later.mem (same ▸ mem))
    rw [split, List.filter_cons_of_neg (by simp), others]

/-- A turn leaves flights as they are, but for one that goes on and has started then. -/
theorem Turn.mem_flights {run served : Run σ α} {shard : ShardId} (turn : run.Turn shard served)
    {flight : Flight σ α} (flies : flight ∈ served.flights) :
    flight ∈ run.flights ∨ flight.hasStarted = true ∧ flight.shard = shard ∧
      run.calledOff = false ∧ shard ∈ run.flights.map Flight.shard := by
  cases turn with
  | absent => exact .inl flies
  | givenUp => exact .inl (mem_finish.mp flies).1
  | ended => exact .inl (mem_finish.mp flies).1
  | asleep found wanted =>
      obtain ⟨other, mem, rfl⟩ := List.mem_map.mp flies
      by_cases same : other.shard = shard
      · have named := shard_of_find found
        rw [if_pos same]
        exact .inr ⟨rfl, named, wanted, same ▸ List.mem_map_of_mem mem⟩
      · rw [if_neg same]
        exact .inl mem

theorem mem_fresh {run : Run σ α} {shard : ShardId} :
    shard ∈ run.fresh ↔
      ∃ flight ∈ run.flights, flight.hasStarted = false ∧ flight.shard = shard := by
  simp [fresh, and_assoc]

/-- The targets of a call in their order: those whose operations have started, those that were given
up before, which there are only when the call was called off, those that wait for their first turn
and those to be handed out. What waits for its first turn has all of its invocation before it. -/
structure InTurn (call : Call σ α) (targets : List Shard) (started : List ShardId)
    (run : Run σ α) : Prop where
  places : ∃ dropped,
    started ++ dropped ++ run.fresh ++ run.pending.map Shard.id = targets.map Shard.id ∧
      (run.calledOff = false → dropped = [])
  queued : run.fresh.Sublist run.ready
  known : ∀ flight ∈ run.flights, flight.hasStarted = true → flight.shard ∈ started
  whole : ∀ flight ∈ run.flights, flight.hasStarted = false →
    ∃ shard ∈ targets, flight.shard = shard.id ∧ flight.rest = call.invocation shard
  remaining : run.pending <:+ targets

variable {call : Call σ α} {targets : List Shard} {started : List ShardId} {run next : Run σ α}

/-- Moves that give nobody a turn. -/
theorem InTurn.same (inTurn : run.InTurn call targets started)
    (pending : next.pending = run.pending) (flights : next.flights = run.flights)
    (queued : run.fresh.Sublist run.ready → run.fresh.Sublist next.ready)
    (off : run.calledOff = true → next.calledOff = true) : next.InTurn call targets started := by
  have fresh : next.fresh = run.fresh := by rw [Run.fresh, flights, Run.fresh]
  obtain ⟨⟨dropped, split, none⟩, waits, known, whole, remaining⟩ := inTurn
  refine ⟨⟨dropped, ?_, fun wanted => none ?_⟩, ?_, ?_, ?_, ?_⟩
  · rw [fresh, pending]
    exact split
  · exact Bool.eq_false_iff.mpr fun called => Bool.false_ne_true (wanted.symm.trans (off called))
  · rw [fresh]
    exact queued waits
  · rw [flights]
    exact known
  · rw [flights]
    exact whole
  · rw [pending]
    exact remaining

/-- A turn takes its shard from those that wait for their first: its operation starts, or is given
up if the call was called off. -/
theorem InTurn.turn {served : Run σ α} {shard : ShardId} {others : List ShardId}
    (inTurn : run.InTurn call targets started) (orderly : run.Orderly)
    (working : run.phase = .working) (queue : run.ready = shard :: others)
    (turn : { run with ready := others }.Turn shard served) :
    served.InTurn call targets (started ++ run.starter?.toList) := by
  have fresh : served.fresh = run.fresh.filter (· ≠ shard) := turn.fresh_eq
  have pending : served.pending = run.pending := by rw [turn.frame]
  have off : served.calledOff = run.calledOff := by rw [turn.frame]; rfl
  have first := fresh_eq_cons orderly.queueNodup queue inTurn.queued
  have starts := starter?_of_queue working queue
  obtain ⟨⟨dropped, split, none⟩, queued, known, whole, remaining⟩ := inTurn
  refine ⟨?_, ?_, fun flight flies begun => ?_, fun flight flies waits => ?_, ?_⟩
  · rw [fresh, pending, off, starts]
    by_cases mem : shard ∈ run.fresh
    · rw [first mem] at split
      cases called : run.calledOff with
      | true => exact ⟨dropped ++ [shard], by simpa using split, nofun⟩
      | false =>
          obtain rfl := none called
          exact ⟨[], by simpa [mem] using split, fun _ => rfl⟩
    · have kept : run.fresh.filter (· ≠ shard) = run.fresh :=
        List.filter_eq_self.mpr fun id there => decide_eq_true fun same => mem (same ▸ there)
      refine ⟨dropped, ?_, none⟩
      rw [kept, if_neg fun both => mem both.2]
      simpa using split
  · have later := queued.filter (· ≠ shard)
    rw [queue, List.filter_cons_of_neg (by simp)] at later
    have ready : served.ready = others := by rw [turn.frame]
    rw [fresh, ready]
    exact later.trans List.filter_sublist
  · rcases turn.mem_flights flies with earlier | ⟨-, rfl, wanted, flying⟩
    · exact List.mem_append_left _ (known flight earlier begun)
    · obtain ⟨before, mem, same⟩ := List.mem_map.mp flying
      cases begun : before.hasStarted with
      | true => exact List.mem_append_left _ (same ▸ known before mem begun)
      | false =>
          have waits := mem_fresh.mpr ⟨before, mem, begun, same⟩
          rw [starts, if_pos ⟨wanted, waits⟩]
          exact List.mem_append_right _ (by simp)
  · rcases turn.mem_flights flies with earlier | ⟨begun, -⟩
    · exact whole flight earlier waits
    · cases waits.symm.trans begun
  · rw [pending]
    exact remaining

end Run

namespace Call

variable {call : Call σ α} {targets : List Shard} {started : List ShardId} {run next : Run σ α}

theorem Move.inTurn (move : call.Move run next) (orderly : run.Orderly)
    (inTurn : run.InTurn call targets started) :
    next.InTurn call targets (started ++ run.starter?.toList) := by
  have off := move.calledOff
  cases move with
  | @handOut shard others collecting pending =>
      rw [Run.append_starter?_of_none (Run.starter?_of_collecting collecting)]
      obtain ⟨⟨dropped, split, none⟩, queued, known, whole, remaining⟩ := inTurn
      rw [pending] at split remaining
      have fresh : (call.handOut { run with pending := others } shard).fresh =
          run.fresh ++ [shard.id] := call.fresh_handOut _ shard
      refine ⟨⟨dropped, ?_, none⟩, ?_, ?_, ?_, ?_⟩
      · rw [fresh, ← split]
        simp [Call.handOut]
      · rw [fresh]
        exact queued.append (.refl _)
      · intro flight flies begun
        rcases List.mem_append.mp flies with earlier | new
        · exact known flight earlier begun
        · rw [List.mem_singleton.mp new] at begun
          cases begun
      · intro flight flies waits
        rcases List.mem_append.mp flies with earlier | new
        · exact whole flight earlier waits
        · rw [List.mem_singleton.mp new]
          exact ⟨shard, remaining.mem List.mem_cons_self, rfl, rfl⟩
      · exact (List.suffix_cons _ _).trans remaining
  | notice collecting =>
      rw [Run.append_starter?_of_none (Run.starter?_of_collecting collecting)]
      exact inTurn.same rfl rfl id id
  | record collecting =>
      rw [Run.append_starter?_of_none (Run.starter?_of_collecting collecting)]
      rw [Run.record_eq] at off ⊢
      exact inTurn.same rfl rfl (fun waits => waits.trans (List.sublist_append_left _ _)) off
  | work collecting =>
      rw [Run.append_starter?_of_none (Run.starter?_of_collecting collecting)]
      rw [Run.hearCaller_eq] at off ⊢
      exact inTurn.same rfl rfl (fun waits => waits.trans (List.sublist_append_left _ _)) off
  | turn working queue turn =>
      rw [Run.countTurn_eq]
      exact (inTurn.turn orderly working queue turn).same rfl rfl id id
  | collect _ idle =>
      rw [Run.append_starter?_of_none (Run.starter?_of_idle idle)]
      exact inTurn.same rfl rfl id id
  | moveOn _ idle =>
      rw [Run.append_starter?_of_none (Run.starter?_of_idle idle)]
      rw [Run.hearCaller_eq] at off ⊢
      refine inTurn.same rfl rfl (fun waits => ?_) off
      rw [idle, List.sublist_nil] at waits
      rw [waits]
      exact List.nil_sublist _

/-! ### What starts in the course of a call -/

/-- The shards whose operations start with the first moves from a state on, in their order. -/
def starts (call : Call σ α) : Nat → Run σ α → List ShardId
  | 0, _ => []
  | moves + 1, run =>
      match call.step run with
      | none => []
      | some next => run.starter?.toList ++ call.starts moves next

theorem advance_succ_of_step (moves : Nat) (step : call.step run = some next) :
    call.advance (moves + 1) run = call.advance moves next := by
  rw [advance, step]

theorem starts_succ_of_step (moves : Nat) (step : call.step run = some next) :
    call.starts (moves + 1) run = run.starter?.toList ++ call.starts moves next := by
  rw [starts, step]

theorem advance_of_over (ended : call.step run = none) (moves : Nat) :
    call.advance moves run = run := by
  cases moves with
  | zero => rfl
  | succ moves => rw [advance, ended]

theorem starts_of_over (ended : call.step run = none) (moves : Nat) :
    call.starts moves run = [] := by
  cases moves with
  | zero => rfl
  | succ moves => rw [starts, ended]

/-- What starts with further moves starts after what has started before. -/
theorem starts_add (call : Call σ α) (moves more : Nat) (run : Run σ α) :
    call.starts (moves + more) run =
      call.starts moves run ++ call.starts more (call.advance moves run) := by
  induction moves generalizing run with
  | zero => rw [Nat.zero_add, starts, advance, List.nil_append]
  | succ moves ih =>
      rw [Nat.succ_add]
      cases step : call.step run with
      | none => rw [starts_of_over step, starts_of_over step, advance_of_over step,
          starts_of_over step, List.nil_append]
      | some next => rw [starts_succ_of_step _ step, starts_succ_of_step _ step,
          advance_succ_of_step _ step, ih, List.append_assoc]

/-- One move starts what it starts, and a call that is over starts nothing. -/
theorem starts_one (call : Call σ α) (run : Run σ α) : call.starts 1 run = run.starter?.toList := by
  cases step : call.step run with
  | none =>
      have collecting := (step_eq_none_iff.mp step).1
      rw [starts_of_over step, Run.starter?_of_collecting collecting, Option.toList_none]
  | some next => rw [starts_succ_of_step _ step, starts, List.append_nil]

/-- What was called off starts nothing more. -/
theorem starts_of_calledOff (moves : Nat) (off : run.calledOff = true) :
    call.starts moves run = [] := by
  induction moves generalizing run with
  | zero => rfl
  | succ moves ih =>
      cases step : call.step run with
      | none => exact starts_of_over step _
      | some next =>
          have none : run.starter? = none := by
            refine Option.eq_none_iff_forall_ne_some.mpr fun shard starts => ?_
            cases (Run.mem_fresh_of_starter? starts).1.symm.trans off
          rw [starts_succ_of_step _ step, none, ih ((step_eq_some_iff.mp step).calledOff off)]
          rfl

/-- The targets of a call stay in their order. -/
theorem inTurn_advance (moves : Nat) (orderly : run.Orderly)
    (inTurn : run.InTurn call targets started) :
    (call.advance moves run).InTurn call targets (started ++ call.starts moves run) := by
  induction moves generalizing run started with
  | zero =>
      rw [starts, advance, List.append_nil]
      exact inTurn
  | succ moves ih =>
      cases step : call.step run with
      | none =>
          rw [starts_of_over step, advance_of_over step, List.append_nil]
          exact inTurn
      | some next =>
          have move := step_eq_some_iff.mp step
          rw [starts_succ_of_step _ step, advance_succ_of_step _ step, ← List.append_assoc]
          exact ih (move.orderly orderly) (move.inTurn orderly inTurn)

end Call

namespace Run

variable {call : Call σ α} {targets : List Shard} {started : List ShardId} {run : Run σ α}

theorem mem_underWay_of_flies {flight : Flight σ α} (flies : flight ∈ run.flights)
    (begun : flight.hasStarted = true) : flight.shard ∈ run.underWay :=
  List.mem_append_left _ (List.mem_map_of_mem (List.mem_filter.mpr ⟨flies, begun⟩))

/-- The operation that a turn lets begin or go on is under way. -/
theorem Resumes.mem_underWay {shard : ShardId} (resumes : run.Resumes shard) :
    shard ∈ run.underWay := by
  obtain ⟨working, wanted, ⟨others, queue⟩, flying⟩ := resumes
  obtain ⟨flight, mem, rfl⟩ := List.mem_map.mp flying
  cases begun : flight.hasStarted with
  | true => exact mem_underWay_of_flies mem begun
  | false =>
      have waits := mem_fresh.mpr ⟨flight, mem, begun, rfl⟩
      refine List.mem_append_right _ ?_
      rw [starter?_of_queue working queue, if_pos ⟨wanted, waits⟩]
      exact List.mem_singleton_self _

theorem InTurn.mem_of_underWay (inTurn : run.InTurn call targets started) {shard : ShardId}
    (going : shard ∈ run.underWay) : shard ∈ started ++ run.starter?.toList := by
  rcases List.mem_append.mp going with flying | next
  · obtain ⟨flight, mem, rfl⟩ := List.mem_map.mp flying
    obtain ⟨flies, begun⟩ := List.mem_filter.mp mem
    exact List.mem_append_left _ (inTurn.known flight flies begun)
  · exact List.mem_append_right _ next

/-- What has started and is not under way has come to an outcome. -/
theorem InTurn.underWay_or_ended (inTurn : run.InTurn call targets started)
    (apart : (targets.map Shard.id).Nodup) (listed : ∀ shard ∈ targets, shard.id ∈ run.roll)
    {shard : ShardId} (begun : shard ∈ started ++ run.starter?.toList) :
    shard ∈ run.underWay ∨ shard ∈ run.gathered.recorded ++ run.finished.map Answer.shard := by
  rcases List.mem_append.mp begun with before | next
  · obtain ⟨⟨dropped, split, -⟩, -⟩ := inTurn
    rw [← split, List.append_assoc, List.append_assoc] at apart
    have elsewhere := (List.nodup_append.mp apart).2.2 shard before
    obtain ⟨target, mem, rfl⟩ := List.mem_map.mp
      (split ▸ List.mem_append_left _ (List.mem_append_left _ (List.mem_append_left _ before)))
    rcases List.mem_append.mp (listed target mem) with active | pending
    · rcases List.mem_append.mp active with ended | flying
      · exact .inr ended
      · obtain ⟨flight, flies, same⟩ := List.mem_map.mp flying
        cases begun : flight.hasStarted with
        | true => exact .inl (same ▸ mem_underWay_of_flies flies begun)
        | false =>
            have waits := mem_fresh.mpr ⟨flight, flies, begun, same⟩
            refine absurd rfl (elsewhere _ (List.mem_append_right _ ?_))
            exact List.mem_append_left _ waits
    · refine absurd rfl (elsewhere _ (List.mem_append_right _ ?_))
      exact List.mem_append_right _ pending
  · exact .inl (List.mem_append_right _ next)

theorem InTurn.starts_prefix (inTurn : run.InTurn call targets started) :
    started <+: targets.map Shard.id := by
  obtain ⟨⟨dropped, split, -⟩, -⟩ := inTurn
  rw [← split, List.append_assoc, List.append_assoc]
  exact List.prefix_append _ _

end Run

namespace Executor

/-- A call begins with all of its targets to be handed out. -/
theorem start_inTurn (executor : Executor) (options : ScatterOptions) (targets : Targets)
    (operation : Shard → Operation σ α) (moment : Moment σ) :
    (executor.start options targets operation moment).InTurn ⟨operation, options⟩
      (targets.known executor.topology) [] where
  places := ⟨[], rfl, fun _ => rfl⟩
  queued := .refl _
  known := nofun
  whole := nofun
  remaining := List.suffix_refl _

/-- The fan-out of a call, whatever its operations do and however its caller cancels, after any
number of moves; the state in which it ends is one of those. At most as many operations are under
way as the window has room for, with the one that starts with the next move: these are operations
that have started, all that go on are among them, and one that has started and is none of them has
come to an outcome. An operation that has not started has all of its invocation before it. Those
that have started are the first of the targets that are known, in their order and each once. Once
the caller is seen to have cancelled nothing starts any more. -/
theorem fan_out_bounded (executor : Executor) (options : ScatterOptions) (targets : Targets)
    (operation : Shard → Operation σ α) (moment : Moment σ) (moves : Nat) :
    let call : Call σ α := ⟨operation, options⟩
    let start := executor.start options targets operation moment
    let run := call.advance moves start
    let started := call.starts (moves + 1) start
    run.underWay.length ≤ max 1 options.maxConcurrency ∧
    (∀ id, run.Resumes id → id ∈ run.underWay) ∧
    (∀ id ∈ run.underWay, id ∈ started) ∧
    (∀ id ∈ started, id ∈ run.underWay ∨
      id ∈ run.gathered.recorded ++ run.finished.map Answer.shard) ∧
    (∀ flight ∈ run.flights, flight.hasStarted = false →
      ∃ shard ∈ targets.known executor.topology, flight.shard = shard.id ∧
        flight.rest = call.invocation shard) ∧
    (started <+: (targets.ids executor.topology).filter executor.topology.contains ∧
      started.Nodup) ∧
    (run.gathered.callerCancelled = true →
      ∀ more, call.starts (moves + more) start = call.starts moves start) := by
  intro call start run started
  have orderly : start.Orderly := executor.start_orderly options targets operation moment
  have inTurn := executor.start_inTurn options targets operation moment
  have reaches : call.Reaches start run := call.reaches_advance moves start
  have now : run.InTurn call _ (call.starts moves start) := Call.inTurn_advance moves orderly inTurn
  have later : (call.advance (moves + 1) start).InTurn call _ started :=
    Call.inTurn_advance (moves + 1) orderly inTurn
  have split : started = call.starts moves start ++ run.starter?.toList := by
    rw [← call.starts_one run]
    exact call.starts_add moves 1 start
  have known : (targets.known executor.topology).map Shard.id =
      (targets.ids executor.topology).filter executor.topology.contains :=
    Targets.known_ids executor.topology _
  have apart : ((targets.known executor.topology).map Shard.id).Nodup :=
    (List.nodup_append.mp (targets.split_nodup executor.topology)).2.1
  have first := later.starts_prefix
  refine ⟨reaches.length_underWay_le orderly (Nat.zero_le _), fun id => Run.Resumes.mem_underWay,
    fun id going => ?_, fun id begun => ?_, now.whole,
    ⟨known ▸ first, apart.sublist first.sublist⟩, fun heard more => ?_⟩
  · rw [split]
    exact now.mem_of_underWay going
  · rw [split] at begun
    refine now.underWay_or_ended apart (fun shard mem => ?_) begun
    rw [(reaches.roll_perm orderly).mem_iff, start_roll]
    exact List.mem_append_right _ (List.mem_map_of_mem mem)
  · have fired := reaches.fired_of_heard (fun begun => begun) heard
    have off : run.calledOff = true := by simp [Run.calledOff, fired]
    rw [call.starts_add, Call.starts_of_calledOff more off, List.append_nil]

/-- Two scripts that run one after the other are seen to start when their operations start. -/
example :
    let call : Call Stage String :=
      ⟨({ delay := .ofMillis 3 } : Script).operation, { maxConcurrency := 0 }⟩
    let start := (withDefaults .pair).start call.options .all call.operation
      { now := 0, world := {} }
    call.starts 30 start = [Shard.first.id, Shard.second.id] ∧
      (call.advance 30 start).world = ⟨[Shard.first.id, Shard.second.id], 0, 1⟩ := by
  decide +kernel

end Executor

end ShardFleet
