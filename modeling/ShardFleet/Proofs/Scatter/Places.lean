import Mathlib.Data.List.Nodup
import Mathlib.Data.List.Perm.Basic
import ShardFleet.Proofs.Invocation
import ShardFleet.Proofs.Scatter.Moves

/-!
The places of the shards of a call.

Every shard of a call has one place: it is recorded, ended, in flight, or not handed out yet. No
move loses a shard or gives it a second place (`Call.Move.roll_perm`).

What is in flight either queues for a turn or waits for a later instant, and it waits only while
nothing has been called off. What it still has to wait fits its time limit. Every move keeps this
(`Call.Move.orderly`).
-/

namespace ShardFleet

variable {σ α : Type}

/-! ### The roll -/

/-- The shards that a call has recorded, as answers or as called off. -/
def Gathered.recorded (gathered : Gathered α) : List ShardId :=
  gathered.answers.map Answer.shard ++ gathered.cancelled

theorem Gathered.recorded_record (gathered : Gathered α) (answer : Answer α) :
    (gathered.record answer).recorded.Perm (gathered.recorded ++ [answer.shard]) := by
  unfold record
  split
  · simp [recorded]
  · simp only [recorded, List.map_append, List.map_cons, List.map_nil, List.append_assoc]
    exact (List.perm_append_comm).append_left _

namespace Run

/-- All shards of a call, by their places. -/
def roll (run : Run σ α) : List ShardId :=
  run.gathered.recorded ++ run.finished.map Answer.shard ++ run.flights.map Flight.shard ++
    run.pending.map Shard.id

/-- Taking one flight out of the air. -/
theorem flights_perm {flights : List (Flight σ α)} {flight : Flight σ α}
    (apart : (flights.map Flight.shard).Nodup) (flies : flight ∈ flights) :
    flights.Perm (flight :: flights.filter (·.shard ≠ flight.shard)) := by
  induction flights with
  | nil => cases flies
  | cons other rest ih =>
      obtain ⟨fresh, apart⟩ := List.nodup_cons.mp apart
      rcases List.mem_cons.mp flies with rfl | flies
      · have others : rest.filter (·.shard ≠ flight.shard) = rest :=
          List.filter_eq_self.mpr fun other mem => decide_eq_true fun same =>
            fresh (same ▸ List.mem_map_of_mem mem)
        rw [List.filter_cons_of_neg (by simp), others]
      · have different : other.shard ≠ flight.shard := fun same =>
          fresh (same ▸ List.mem_map_of_mem flies)
        rw [List.filter_cons_of_pos (by simpa using different)]
        exact ((ih apart flies).cons other).trans (.swap _ _ _)

theorem flights_nodup {run : Run σ α} (apart : run.roll.Nodup) :
    (run.flights.map Flight.shard).Nodup := by
  refine apart.sublist ?_
  unfold roll
  exact (List.sublist_append_right _ _).trans (List.sublist_append_left _ _)

theorem finish_roll_perm {run : Run σ α} {flight : Flight σ α} (result : Except Error α)
    (apart : run.roll.Nodup) (flies : flight ∈ run.flights) :
    (run.finish flight.shard result).roll.Perm run.roll := by
  have grounded := (flights_perm (flights_nodup apart) flies).map Flight.shard
  simp only [roll, finish, List.map_append, List.map_cons, List.map_nil, List.append_assoc,
    List.cons_append, List.nil_append]
  refine .append_left _ (.append_left _ ?_)
  exact grounded.symm.append_right _

theorem fallAsleep_shards (flights : List (Flight σ α)) {flight : Flight σ α} {shard : ShardId}
    (same : flight.shard = shard) (now ticket ticks : Nat) (abandon : σ → σ) (rest : Job σ α) :
    (flights.map fun other =>
      if other.shard = shard then flight.fallAsleep now ticket ticks abandon rest
      else other).map Flight.shard = flights.map Flight.shard := by
  rw [List.map_map]
  refine List.map_congr_left fun other _ => ?_
  simp only [Function.comp_apply]
  split
  · next found => exact same.trans found.symm
  · rfl

theorem Turn.roll_perm {run next : Run σ α} {shard : ShardId} (turn : run.Turn shard next)
    (apart : run.roll.Nodup) : next.roll.Perm run.roll := by
  cases turn with
  | absent => exact .refl _
  | givenUp found =>
      obtain rfl := shard_of_find found
      exact finish_roll_perm _ apart (List.mem_of_find?_eq_some found)
  | ended found =>
      obtain rfl := shard_of_find found
      exact finish_roll_perm _ apart (List.mem_of_find?_eq_some found)
  | asleep found =>
      simp only [roll]
      rw [fallAsleep_shards run.flights (shard_of_find found)]

end Run

/-- No move loses a shard or gives it a second place. -/
theorem Call.Move.roll_perm {call : Call σ α} {run next : Run σ α} (move : call.Move run next)
    (apart : run.roll.Nodup) : next.roll.Perm run.roll := by
  cases move with
  | handOut _ pending => simp [Run.roll, Call.handOut, pending]
  | notice => exact .refl _
  | @record answer others _ _ _ finished =>
      rw [Run.record_eq]
      simp only [Run.roll, finished, List.map_cons]
      refine .append_right _ (.append_right _ ?_)
      refine ((run.gathered.recorded_record answer).append_right _).trans ?_
      simp
  | work =>
      rw [Run.hearCaller_eq]
      exact .refl _
  | turn _ _ turn =>
      have kept := turn.roll_perm apart
      rw [Run.countTurn_eq]
      exact kept
  | collect => exact .refl _
  | moveOn =>
      rw [Run.hearCaller_eq]
      exact .refl _

/-! ### The queue -/

/-- How an invocation stands: it queues for a turn that is due, unless it was called off, or it
waits for a later instant. What it waits for in all fits its time limit. -/
structure Flight.Orderly (run : Run σ α) (flight : Flight σ α) : Prop where
  reached : run.now ≤ flight.wake
  inTime : flight.wake ≤ flight.deadline
  fits : flight.rest.Fits (flight.deadline - flight.wake)
  queues : flight.shard ∈ run.ready → run.calledOff = false → flight.wake = run.now
  waits : flight.shard ∉ run.ready → run.calledOff = false ∧ run.now < flight.wake

/-- What a flight has left to wait when it falls asleep. -/
theorem Flight.Orderly.asleep {run : Run σ α} {flight : Flight σ α} {world : σ} {ticks : Nat}
    {abandon : σ → σ} {rest : Job σ α} (orderly : flight.Orderly run)
    (queued : flight.shard ∈ run.ready) (wanted : run.calledOff = false)
    (proceeds : Activity.proceed run.now flight.rest run.world =
      (world, .asleep ticks abandon rest)) :
    0 < ticks ∧ run.now + ticks ≤ flight.deadline ∧
      rest.Fits (flight.deadline - (run.now + ticks)) := by
  have fits := orderly.fits.proceed run.now run.world
  rw [proceeds, orderly.queues queued wanted] at fits
  obtain ⟨short, fits⟩ := fits
  have inTime := orderly.inTime
  rw [orderly.queues queued wanted] at inTime
  rw [Nat.sub_sub] at fits
  exact ⟨Activity.proceed_asleep_pos proceeds, by omega, fits⟩

/-- No shard has two places in a call or in its queue, and everything in flight is in order. -/
structure Run.Orderly (run : Run σ α) : Prop where
  apart : run.roll.Nodup
  queueNodup : run.ready.Nodup
  queued : ∀ shard ∈ run.ready, shard ∈ run.flights.map Flight.shard
  flights : ∀ flight ∈ run.flights, flight.Orderly run

namespace Run

theorem Orderly.flights_nodup {run : Run σ α} (orderly : run.Orderly) :
    (run.flights.map Flight.shard).Nodup :=
  Run.flights_nodup orderly.apart

/-- Flights that keep their places in the queue stay in order. -/
theorem Orderly.same {run next : Run σ α} (orderly : run.Orderly) (apart : next.roll.Perm run.roll)
    (now : next.now = run.now) (ready : next.ready = run.ready)
    (flights : next.flights = run.flights) (calledOff : next.calledOff = run.calledOff) :
    next.Orderly where
  apart := apart.nodup_iff.mpr orderly.apart
  queueNodup := ready ▸ orderly.queueNodup
  queued := by
    rw [ready, flights]
    exact orderly.queued
  flights := by
    rw [flights]
    intro flight mem
    obtain ⟨reached, inTime, fits, queues, waits⟩ := orderly.flights flight mem
    exact ⟨now ▸ reached, inTime, fits, by rwa [ready, calledOff, now],
      by rwa [ready, calledOff, now]⟩

theorem mem_waiting {run : Run σ α} {shard : ShardId} :
    shard ∈ run.waiting ↔ shard ∈ run.flights.map Flight.shard ∧ shard ∉ run.ready := by
  simp [waiting, List.contains_eq_mem]

/-- When what is under way is called off, everything queues. -/
theorem Orderly.roused {run next : Run σ α} (orderly : run.Orderly)
    (apart : next.roll.Perm run.roll) (now : next.now = run.now)
    (ready : next.ready = run.ready ++ run.waiting) (flights : next.flights = run.flights)
    (off : next.calledOff = true) : next.Orderly where
  apart := apart.nodup_iff.mpr orderly.apart
  queueNodup := by
    rw [ready, List.nodup_append]
    refine ⟨orderly.queueNodup, orderly.flights_nodup.filter _, ?_⟩
    rintro shard queued _ waits rfl
    exact (mem_waiting.mp waits).2 queued
  queued := by
    rw [ready, flights]
    intro shard mem
    rcases List.mem_append.mp mem with queued | waits
    · exact orderly.queued shard queued
    · exact (mem_waiting.mp waits).1
  flights := by
    rw [flights]
    intro flight mem
    obtain ⟨reached, inTime, fits, -, -⟩ := orderly.flights flight mem
    have queued : flight.shard ∈ next.ready := by
      rw [ready, List.mem_append]
      by_cases already : flight.shard ∈ run.ready
      · exact .inl already
      · exact .inr (mem_waiting.mpr ⟨List.mem_map_of_mem mem, already⟩)
    exact ⟨now ▸ reached, inTime, fits, by simp [off], fun absent => absurd queued absent⟩

theorem hears_of_settle {run : Run σ α} (deaf : run.hears = false) :
    (run.cancellation.settle run.now).hasFired = run.cancellation.hasFired := by
  unfold hears at deaf
  cases caller : run.cancellation with
  | never => rfl
  | due instant => simpa [caller, Cancellation.hasFired] using deaf
  | fired => rfl

theorem Orderly.hearCaller {run : Run σ α} (orderly : run.Orderly) : run.hearCaller.Orderly := by
  rw [hearCaller_eq]
  by_cases heard : run.hears = true
  · have fired : (run.cancellation.settle run.now).hasFired = true := by
      simp only [hears, Bool.and_eq_true] at heard
      exact heard.1
    exact orderly.roused (.refl _) rfl (by rw [if_pos heard]) rfl (by simp [calledOff, fired])
  · have deaf := hears_of_settle (Bool.eq_false_iff.mpr heard)
    exact orderly.same (.refl _) rfl (by simp [heard]) rfl (by simp [calledOff, deaf])

theorem Orderly.countTurn {run : Run σ α} (orderly : run.Orderly) : run.countTurn.Orderly := by
  rw [countTurn_eq]
  exact orderly.same (.refl _) rfl rfl rfl rfl

theorem mem_finish {run : Run σ α} {shard : ShardId} {result : Except Error α}
    {flight : Flight σ α} :
    flight ∈ (run.finish shard result).flights ↔ flight ∈ run.flights ∧ flight.shard ≠ shard := by
  simp [finish]

/-- A turn that ends an invocation leaves the others in order. -/
theorem Orderly.finish {run : Run σ α} {shard : ShardId} {others : List ShardId}
    (orderly : run.Orderly) (queue : run.ready = shard :: others) (world : σ)
    (result : Except Error α) :
    ({ run with ready := others, world }.finish shard result).Orderly := by
  obtain ⟨apart, queueNodup, queued, flights⟩ := orderly
  rw [queue] at queueNodup queued
  obtain ⟨flight, flies, rfl⟩ := List.mem_map.mp (queued shard List.mem_cons_self)
  have kept : ({ run with ready := others, world }.finish flight.shard result).roll.Perm
      run.roll := finish_roll_perm result apart flies
  refine ⟨kept.nodup_iff.mpr apart, queueNodup.tail, ?_, ?_⟩
  · intro other mem
    obtain ⟨flight, flies, rfl⟩ := List.mem_map.mp (queued other (List.mem_cons_of_mem _ mem))
    refine List.mem_map_of_mem (mem_finish.mpr ⟨flies, fun same => ?_⟩)
    exact (List.nodup_cons.mp queueNodup).1 (same ▸ mem)
  · intro flight mem
    obtain ⟨flies, different⟩ := mem_finish.mp mem
    obtain ⟨reached, inTime, fits, queues, waits⟩ := flights flight flies
    rw [queue, List.mem_cons] at queues waits
    exact ⟨reached, inTime, fits, fun inQueue => queues (.inr inQueue),
      fun absent => waits fun inQueue => inQueue.elim different absent⟩

/-- A turn after which an invocation waits leaves it and the others in order. -/
theorem Orderly.fallAsleep {run : Run σ α} {shard : ShardId} {others : List ShardId}
    {flight : Flight σ α} {world : σ} {ticks : Nat} {abandon : σ → σ} {rest : Job σ α}
    (orderly : run.Orderly) (queue : run.ready = shard :: others)
    (found : run.flights.find? (·.shard = shard) = some flight) (wanted : run.calledOff = false)
    (proceeds : Activity.proceed run.now flight.rest run.world =
      (world, .asleep ticks abandon rest)) :
    Orderly { run with
      ready := others
      world
      tickets := run.tickets + 1
      flights := run.flights.map fun other =>
        if other.shard = shard then flight.fallAsleep run.now run.tickets ticks abandon rest
        else other } := by
  obtain ⟨apart, queueNodup, queued, flights⟩ := orderly
  have named := shard_of_find found
  have shards := fallAsleep_shards run.flights named run.now run.tickets ticks
    abandon rest
  rw [queue] at queueNodup queued
  have fresh := (List.nodup_cons.mp queueNodup).1
  refine ⟨?_, queueNodup.tail, ?_, ?_⟩
  · simp only [roll, shards]
    exact apart
  · intro other mem
    simp only [shards]
    exact queued other (List.mem_cons_of_mem _ mem)
  · intro waiting mem
    obtain ⟨other, flies, rfl⟩ := List.mem_map.mp mem
    by_cases same : other.shard = shard
    · have inQueue : flight.shard ∈ run.ready := by simp [queue, named]
      obtain ⟨later, inTime, fits⟩ :=
        (flights flight (List.mem_of_find?_eq_some found)).asleep inQueue wanted proceeds
      rw [if_pos same]
      refine ⟨Nat.le_add_right _ _, inTime, fits, fun inOthers => ?_, fun _ => ⟨wanted, ?_⟩⟩
      · exact absurd (named ▸ inOthers) fresh
      · exact Nat.lt_add_of_pos_right later
    · rw [if_neg same]
      obtain ⟨reached, inTime, fits, queues, waits⟩ := flights other flies
      rw [queue, List.mem_cons] at queues waits
      exact ⟨reached, inTime, fits, fun inQueue => queues (.inr inQueue),
        fun absent => waits fun inQueue => inQueue.elim same absent⟩

theorem Orderly.turn {run served : Run σ α} {shard : ShardId} {others : List ShardId}
    (orderly : run.Orderly) (queue : run.ready = shard :: others)
    (turn : { run with ready := others }.Turn shard served) : served.Orderly := by
  have flying := orderly.queued shard (queue ▸ List.mem_cons_self)
  cases turn with
  | absent missing =>
      obtain ⟨flight, flies, same⟩ := List.mem_map.mp flying
      exact absurd (List.find?_eq_none.mp missing flight flies) (by simp [same])
  | givenUp found off => exact orderly.finish queue _ _
  | ended found wanted proceeds => exact orderly.finish queue _ _
  | asleep found wanted proceeds =>
      exact orderly.fallAsleep queue found wanted proceeds

/-! ### The clock -/

/-- The instants at which something is due. -/
def instants (run : Run σ α) : List Nat :=
  run.flights.map Flight.wake ++ run.cancellation.instant?.toList

/-- The clock moves to the first instant at which something is due. -/
theorem nextInstant_first {run : Run σ α} (flying : run.flights ≠ []) :
    run.nextInstant ∈ run.instants ∧ ∀ instant ∈ run.instants, run.nextInstant ≤ instant := by
  have some : run.instants.min? ≠ none := by simp [instants, flying]
  obtain ⟨first, found⟩ := Option.ne_none_iff_exists'.mp some
  have same : run.nextInstant = first := congrArg (Option.getD · run.now) found
  rw [same]
  exact List.min?_eq_some_iff.mp found

theorem nextInstant_le {run : Run σ α} {flight : Flight σ α} (flies : flight ∈ run.flights) :
    run.nextInstant ≤ flight.wake :=
  (nextInstant_first (List.ne_nil_of_mem flies)).2 _
    (List.mem_append_left _ (List.mem_map_of_mem flies))

theorem mem_due {run : Run σ α} {shard : ShardId} :
    shard ∈ run.due ↔ ∃ flight ∈ run.flights, flight.wake ≤ run.now ∧ flight.shard = shard := by
  simp [due, and_assoc]

theorem due_nodup {run : Run σ α} (apart : (run.flights.map Flight.shard).Nodup) :
    run.due.Nodup := by
  have order : run.due.Perm ((run.flights.filter (·.wake ≤ run.now)).map Flight.shard) :=
    (List.mergeSort_perm _ _).map _
  exact order.nodup_iff.mpr (apart.sublist (List.filter_sublist.map _))

theorem Orderly.atNextInstant {run : Run σ α} (orderly : run.Orderly) (idle : run.ready = []) :
    run.atNextInstant.Orderly := by
  obtain ⟨apart, -, -, flights⟩ := orderly
  refine ⟨apart, due_nodup (Run.flights_nodup apart), ?_, ?_⟩
  · intro shard mem
    obtain ⟨flight, flies, -, same⟩ := mem_due.mp mem
    exact List.mem_map.mpr ⟨flight, flies, same⟩
  · intro flight flies
    obtain ⟨-, inTime, fits, -, waits⟩ := flights flight flies
    have wanted : run.calledOff = false := (waits (by simp [idle])).1
    have reached : run.nextInstant ≤ flight.wake := nextInstant_le flies
    refine ⟨reached, inTime, fits, fun inQueue _ => ?_, fun absent => ⟨wanted, ?_⟩⟩
    · obtain ⟨other, otherFlies, due, same⟩ := mem_due.mp inQueue
      have equal : other = flight :=
        List.inj_on_of_nodup_map (Run.flights_nodup apart) otherFlies flies same
      exact Nat.le_antisymm (equal ▸ due) reached
    · exact Nat.lt_of_not_le fun due => absent (mem_due.mpr ⟨flight, flies, due, rfl⟩)

end Run

namespace Call

theorem orderly_handOut {call : Call σ α} {run : Run σ α} {shard : Shard} {others : List Shard}
    (orderly : run.Orderly) (pending : run.pending = shard :: others) :
    (call.handOut { run with pending := others } shard).Orderly := by
  obtain ⟨apart, queueNodup, queued, flights⟩ := orderly
  have kept : (call.handOut { run with pending := others } shard).roll = run.roll := by
    simp [Run.roll, handOut, pending]
  have nodup := Run.flights_nodup (kept ▸ apart)
  simp only [handOut, List.map_append, List.map_cons, List.map_nil] at nodup
  have fresh : ∀ flight ∈ run.flights, flight.shard ≠ shard.id := fun flight flies =>
    (List.nodup_append.mp nodup).2.2 _ (List.mem_map_of_mem flies) _ List.mem_cons_self
  refine ⟨kept ▸ apart, ?_, ?_, ?_⟩
  · refine List.nodup_append.mpr ⟨queueNodup, by simp, fun other inQueue named mem => ?_⟩
    obtain ⟨flight, flies, rfl⟩ := List.mem_map.mp (queued other inQueue)
    rw [List.mem_singleton.mp mem]
    exact fresh flight flies
  · intro other mem
    simp only [handOut, List.map_append, List.mem_append] at mem ⊢
    exact mem.imp (queued other) (by simp)
  · intro flight mem
    rcases List.mem_append.mp mem with flies | new
    · obtain ⟨reached, inTime, fits, queues, waits⟩ := flights flight flies
      have inOld : flight.shard ∈ run.ready ++ [shard.id] ↔ flight.shard ∈ run.ready := by
        simp [fresh flight flies]
      exact ⟨reached, inTime, fits, fun inQueue => queues (inOld.mp inQueue),
        fun absent => waits fun inQueue => absent (inOld.mpr inQueue)⟩
    · rw [List.mem_singleton.mp new]
      refine ⟨Nat.le_refl _, Nat.le_add_right _ _, ?_, fun _ _ => rfl, fun absent => ?_⟩
      · simp only [Nat.add_sub_cancel_left]
        exact Operation.within_fits _ _ _
      · exact absurd (List.mem_append_right _ List.mem_cons_self) absent

/-- Every move leaves a call in order. -/
theorem Move.orderly {call : Call σ α} {run next : Run σ α} (move : call.Move run next)
    (orderly : run.Orderly) : next.Orderly := by
  cases move with
  | handOut _ pending => exact orderly_handOut orderly pending
  | notice => exact orderly.same (.refl _) rfl rfl rfl rfl
  | @record answer others collecting filled seen finished =>
      have kept := (Move.record collecting filled seen finished).roll_perm orderly.apart
      rw [Run.record_eq] at kept ⊢
      by_cases recalled : run.recalls call.options.tolerance answer = true
      · exact orderly.roused kept rfl (by rw [if_pos recalled]) rfl
          (by simp [Run.calledOff, recalled])
      · exact orderly.same kept rfl (by simp [recalled]) rfl (by simp [Run.calledOff, recalled])
  | work =>
      have kept : run.atWork.Orderly := orderly.same (.refl _) rfl rfl rfl rfl
      exact kept.hearCaller
  | turn _ queue turn => exact (orderly.turn queue turn).countTurn
  | collect => exact orderly.same (.refl _) rfl rfl rfl rfl
  | moveOn _ idle => exact (orderly.atNextInstant idle).hearCaller

theorem Reaches.orderly {call : Call σ α} {start run : Run σ α} (reaches : call.Reaches start run)
    (orderly : start.Orderly) : run.Orderly :=
  reaches.keeps (fun held move => move.orderly held) orderly

/-- A call keeps its roll to the end. -/
theorem Reaches.roll_perm {call : Call σ α} {start run : Run σ α}
    (reaches : call.Reaches start run) (orderly : start.Orderly) : run.roll.Perm start.roll := by
  induction reaches with
  | refl => exact .refl _
  | @tail middle next earlier step ih =>
      have apart := (Reaches.orderly earlier orderly).apart
      exact ((step_eq_some_iff.mp step).roll_perm apart).trans ih

/-- A call begins in order, if no target is named twice. -/
theorem orderly_begin (call : Call σ α) {strays : List ShardId} {targets : List Shard}
    (apart : (strays ++ targets.map Shard.id).Nodup) (moment : Moment σ) :
    (call.begin strays targets moment).Orderly where
  apart := by simpa [Run.roll, begin, Gathered.recorded, Function.comp_def] using apart
  queueNodup := List.nodup_nil
  queued := fun _ absent => by cases absent
  flights := fun _ absent => by cases absent

end Call

end ShardFleet
