import ShardFleet.Proofs.Scatter.Conservation
import ShardFleet.Proofs.Tending
import ShardFleet.Proofs.Topology

/-!
What a call leaves of the parts of its shards.

A world holds a part for every shard. What the operation on a shard may do to this part is
promised beforehand (`Custody`): how it stands while the operation waits or was given up, and how
it is left with each result. If every invocation keeps its promise, then so does the call, however
its invocations take turns and wherever it is cut off: whatever it brings back for a shard, the
part of the shard was left as promised for it, and nothing was done to the parts of shards that
were not started (`Executor.scatterWith_settled`). At no time in between has a part been left as
no result could leave it (`Executor.visible_of_mem_course`).
-/

namespace ShardFleet

variable {σ π α : Type}

/-- What is promised of the parts that a world holds for shards, from the part that is found to
the part that is left. -/
structure Custody (σ π α : Type) where
  part : ShardId → σ → π
  /-- While what is done on the shard waits, and after it was given up. -/
  idle : ShardId → π → π → Prop
  /-- When it has ended with a result. -/
  ends : ShardId → Except Error α → π → π → Prop
  idle_refl : ∀ id found, idle id found found
  calledOff : ∀ {id found left}, idle id found left → ends id (.error .cancelled) found left
  overdue : ∀ {id limit found left}, idle id found left →
    ends id (.error (.shardTimeout id limit)) found left
  stray : ∀ id found, ends id (.error (.unknownShard id.name)) found found

/-- What came of the shards that were started; of one that was called off, that it was. -/
def Gathered.outcomes (gathered : Gathered α) : List (Answer α) :=
  gathered.answers ++ gathered.cancelled.map fun id => ⟨id, .error .cancelled⟩

namespace Custody

variable {custody : Custody σ π α}

/-- From the first world to the later one the part of the shard is left as promised for the
result. -/
def Ends (custody : Custody σ π α) (before : σ) (answer : Answer α) (world : σ) : Prop :=
  custody.ends answer.shard answer.result (custody.part answer.shard before)
    (custody.part answer.shard world)

/-- From the first world to the later one the part of the shard is left as promised while what is
done on the shard waits. -/
def Idle (custody : Custody σ π α) (before : σ) (id : ShardId) (world : σ) : Prop :=
  custody.idle id (custody.part id before) (custody.part id world)

/-- From a world on, a job keeps what is promised of the part of the shard, which was found in
this way. -/
def Tends (custody : Custody σ π α) (id : ShardId) (found : π) (job : Job σ α) (world : σ) :
    Prop :=
  Activity.Tends custody.part id (fun later => custody.idle id found (custody.part id later))
    (fun result later => custody.ends id result found (custody.part id later)) job world

/-- In every world a job keeps what is promised of the part of the shard. -/
def Keeps (custody : Custody σ π α) (id : ShardId) (job : Job σ α) : Prop :=
  ∀ world, custody.Tends id (custody.part id world) job world

/-- Under a time limit a job keeps its promise too. -/
theorem Keeps.within {id : ShardId} {job : Job σ α} (keeps : custody.Keeps id job)
    (limit : Duration) (left : Nat) :
    custody.Keeps id ((Operation.ofJob job).within (.shardTimeout id limit) left) :=
  fun world => Operation.tends_within (fun _ => custody.overdue)
    (Operation.tends_ofJob.mpr (keeps world)) left

/-- No part is left as no result could leave it. -/
def Visible (custody : Custody σ π α) (before world : σ) : Prop :=
  ∀ id, ∃ result, custody.Ends before ⟨id, result⟩ world

/-- A part that nobody touched is left as if the shard had been called off. -/
theorem ends_of_untouched (custody : Custody σ π α) {before world : σ} {id : ShardId}
    (same : custody.part id world = custody.part id before) :
    ∃ result, custody.Ends before ⟨id, result⟩ world := by
  refine ⟨_, custody.calledOff ?_⟩
  rw [same]
  exact custody.idle_refl id _

theorem visible_refl (custody : Custody σ π α) (world : σ) : custody.Visible world world :=
  fun _ => custody.ends_of_untouched rfl

/-- Where one part only was touched, it is this part that matters. -/
theorem visible_of_touchesOnly {before world : σ} {owner : ShardId}
    (own : TouchesOnly custody.part owner before world)
    (left : ∃ result, custody.Ends before ⟨owner, result⟩ world) :
    custody.Visible before world := by
  intro id
  by_cases same : id = owner
  · exact same ▸ left
  · exact custody.ends_of_untouched (own id same)

/-- The parts of the shards that were started are left as promised for what came of them, the
parts of all others as they were. -/
structure Settled (custody : Custody σ π α) (before : σ) (gathered : Gathered α) (after : σ) :
    Prop where
  outcomes : ∀ answer ∈ gathered.outcomes, custody.Ends before answer after
  others : ∀ id, id ∉ gathered.outcomes.map Answer.shard →
    custody.part id after = custody.part id before

end Custody

namespace Custody

variable {custody : Custody σ π α} {before between after : σ} {answer : Answer α}
  {gathered : Gathered α}

/-- One outcome, and nothing that befell another shard. -/
theorem settled_of_single (own : TouchesOnly custody.part answer.shard before after)
    (ends : custody.Ends before answer after) (single : gathered.outcomes = [answer]) :
    custody.Settled before gathered after := by
  constructor
  · intro other mem
    rw [single] at mem
    exact List.mem_singleton.mp mem ▸ ends
  · intro id absent
    rw [single] at absent
    exact own id (by simpa using absent)

/-- One outcome, and then those of other shards. -/
theorem Settled.cons (settled : custody.Settled between gathered after)
    (own : TouchesOnly custody.part answer.shard before between)
    (ends : custody.Ends before answer between)
    (apart : answer.shard ∉ gathered.outcomes.map Answer.shard) :
    custody.Settled before { gathered with answers := answer :: gathered.answers } after := by
  have outcomes : ({ gathered with answers := answer :: gathered.answers } :
      Gathered α).outcomes = answer :: gathered.outcomes := rfl
  constructor
  · intro other mem
    rw [outcomes] at mem
    rcases List.mem_cons.mp mem with rfl | later
    · rw [Ends, settled.others _ apart]
      exact ends
    · have different : other.shard ≠ answer.shard := by
        intro same
        exact apart (same ▸ List.mem_map_of_mem later)
      rw [Ends, ← own _ different]
      exact settled.outcomes other later
  · intro id absent
    rw [outcomes, List.map_cons, List.mem_cons, not_or] at absent
    exact (settled.others id absent.2).trans (own id absent.1)

/-- What is left in the end is what some results leave. -/
theorem Settled.visible (settled : custody.Settled before gathered after) :
    custody.Visible before after := by
  intro id
  by_cases started : id ∈ gathered.outcomes.map Answer.shard
  · obtain ⟨answer, mem, rfl⟩ := List.mem_map.mp started
    exact ⟨answer.result, settled.outcomes answer mem⟩
  · exact custody.ends_of_untouched (settled.others id started)

/-- What others see after one outcome, as long as its shard is left alone. -/
theorem Visible.cons (visible : custody.Visible between after)
    (own : TouchesOnly custody.part answer.shard before between)
    (ends : custody.Ends before answer between)
    (kept : custody.part answer.shard after = custody.part answer.shard between) :
    custody.Visible before after := by
  intro id
  by_cases same : id = answer.shard
  · subst same
    refine ⟨answer.result, ?_⟩
    rw [Ends, kept]
    exact ends
  · obtain ⟨result, ends⟩ := visible id
    refine ⟨result, ?_⟩
    rw [Ends, ← own id same]
    exact ends

end Custody

/-! ### The states of a call -/

/-- An invocation in flight that keeps its promise: as the part stands it may be given up or go
on, and nobody else changes how it stands. -/
def Flight.Keeps (custody : Custody σ π α) (before world : σ) (flight : Flight σ α) : Prop :=
  ∃ standing : π → Prop, standing (custody.part flight.shard world) ∧
    ∀ later, standing (custody.part flight.shard later) →
      custody.Idle before flight.shard later ∧
      (TouchesOnly custody.part flight.shard later (flight.abandon later) ∧
        custody.Idle before flight.shard (flight.abandon later)) ∧
      custody.Tends flight.shard (custody.part flight.shard before) flight.rest later

namespace Run

/-- What came of the shards that have ended, recorded or not. -/
def outcomes (run : Run σ α) : List (Answer α) := run.gathered.outcomes ++ run.finished

/-- The shards that were started. -/
def begun (run : Run σ α) : List ShardId :=
  run.outcomes.map Answer.shard ++ run.flights.map Flight.shard

theorem roll_eq (run : Run σ α) : run.roll = run.begun ++ run.pending.map Shard.id := by
  simp [roll, begun, outcomes, Gathered.outcomes, Gathered.recorded, Function.comp_def]

/-- A state in which every promise was kept so far. -/
structure Keeps (custody : Custody σ π α) (before : σ) (run : Run σ α) : Prop where
  untouched : ∀ id, id ∉ run.begun → custody.part id run.world = custody.part id before
  flights : ∀ flight ∈ run.flights, flight.Keeps custody before run.world
  outcomes : ∀ answer ∈ run.outcomes, custody.Ends before answer run.world

variable {custody : Custody σ π α} {before : σ} {run next : Run σ α}

/-- What only moves outcomes from one place to another keeps every promise. -/
theorem Keeps.same (keeps : run.Keeps custody before) (world : next.world = run.world)
    (flights : next.flights = run.flights) (outcomes : next.outcomes.Perm run.outcomes) :
    next.Keeps custody before where
  untouched := by
    intro id fresh
    rw [world]
    refine keeps.untouched id fun known => fresh ?_
    rw [begun, flights]
    exact ((outcomes.map _).append_right _).mem_iff.mpr known
  flights := by
    rw [flights, world]
    exact keeps.flights
  outcomes := by
    intro answer mem
    rw [world]
    exact keeps.outcomes answer (outcomes.mem_iff.mp mem)

theorem Keeps.visible (keeps : run.Keeps custody before) : custody.Visible before run.world := by
  intro id
  by_cases known : id ∈ run.begun
  · rcases List.mem_append.mp known with ended | flies
    · obtain ⟨answer, mem, rfl⟩ := List.mem_map.mp ended
      exact ⟨answer.result, keeps.outcomes answer mem⟩
    · obtain ⟨flight, mem, rfl⟩ := List.mem_map.mp flies
      obtain ⟨standing, stands, keeps⟩ := keeps.flights flight mem
      exact ⟨_, custody.calledOff (keeps _ stands).1⟩
  · exact custody.ends_of_untouched (keeps.untouched id known)

theorem mem_begun_of_flies {flight : Flight σ α} (flies : flight ∈ run.flights) :
    flight.shard ∈ run.begun :=
  List.mem_append_right _ (List.mem_map_of_mem flies)

/-- A shard in flight has not ended. -/
theorem shard_ne_of_outcome (apart : run.roll.Nodup) {flight : Flight σ α}
    (flies : flight ∈ run.flights) {answer : Answer α} (ended : answer ∈ run.outcomes) :
    answer.shard ≠ flight.shard := by
  rw [roll_eq, begun] at apart
  have apart := (List.nodup_append.mp apart).1
  exact (List.nodup_append.mp apart).2.2 _ (List.mem_map_of_mem ended) _
    (List.mem_map_of_mem flies)

/-- What is done to the part of a shard in flight leaves the others' promises kept. -/
theorem Keeps.frame (keeps : run.Keeps custody before) (apart : run.roll.Nodup)
    {flight : Flight σ α} (flies : flight ∈ run.flights) {world : σ}
    (own : TouchesOnly custody.part flight.shard run.world world) :
    (∀ id, id ∉ run.begun → custody.part id world = custody.part id before) ∧
    (∀ other ∈ run.flights, other.shard ≠ flight.shard → other.Keeps custody before world) ∧
    (∀ answer ∈ run.outcomes, custody.Ends before answer world) := by
  obtain ⟨untouched, flights, outcomes⟩ := keeps
  refine ⟨fun id fresh => ?_, fun other mem different => ?_, fun answer ended => ?_⟩
  · have different : id ≠ flight.shard := by
      rintro rfl
      exact fresh (mem_begun_of_flies flies)
    exact (own id different).trans (untouched id fresh)
  · obtain ⟨standing, stands, keeps⟩ := flights other mem
    exact ⟨standing, (own _ different).symm ▸ stands, keeps⟩
  · have same := own _ (shard_ne_of_outcome apart flies ended)
    rw [Custody.Ends, same]
    exact outcomes answer ended

/-- The end of an invocation leaves the shards that were started as they are. -/
theorem finish_begun_perm (apart : run.roll.Nodup) {flight : Flight σ α}
    (flies : flight ∈ run.flights) (world : σ) (result : Except Error α) :
    ({ run with world }.finish flight.shard result).begun.Perm run.begun := by
  have kept : ({ run with world }.finish flight.shard result).roll.Perm run.roll :=
    finish_roll_perm result apart flies
  rw [roll_eq, roll_eq] at kept
  exact (List.perm_append_right_iff _).mp kept

/-- A turn that ends an invocation as promised. -/
theorem Keeps.finish (keeps : run.Keeps custody before) (apart : run.roll.Nodup)
    {flight : Flight σ α} (flies : flight ∈ run.flights) {world : σ} {result : Except Error α}
    (own : TouchesOnly custody.part flight.shard run.world world)
    (ends : custody.Ends before ⟨flight.shard, result⟩ world) :
    ({ run with world }.finish flight.shard result).Keeps custody before := by
  obtain ⟨untouched, flights, outcomes⟩ := keeps.frame apart flies own
  refine ⟨fun id fresh => ?_, fun other mem => ?_, fun answer mem => ?_⟩
  · have kept := finish_begun_perm apart flies world result
    exact untouched id fun known => fresh (kept.mem_iff.mpr known)
  · obtain ⟨mem, different⟩ := mem_finish.mp mem
    exact flights other mem different
  · rw [Run.outcomes, Run.finish, ← List.append_assoc] at mem
    rcases List.mem_append.mp mem with earlier | new
    · exact outcomes answer earlier
    · obtain rfl := List.mem_singleton.mp new
      exact ends

/-- A turn after which an invocation waits as promised. -/
theorem Keeps.fallAsleep (keeps : run.Keeps custody before) (apart : run.roll.Nodup)
    {flight : Flight σ α} (flies : flight ∈ run.flights) {world : σ} {ticks : Nat}
    {abandon : σ → σ} {rest : Job σ α}
    (own : TouchesOnly custody.part flight.shard run.world world)
    (tended : (Activity.Halt.asleep ticks abandon rest).Tended custody.part flight.shard
      (custody.Idle before flight.shard)
      (fun result => custody.Ends before ⟨flight.shard, result⟩) world) :
    Keeps custody before { run with
      world
      tickets := run.tickets + 1
      flights := run.flights.map fun other =>
        if other.shard = flight.shard then
          flight.fallAsleep run.now run.tickets ticks abandon rest
        else other } := by
  obtain ⟨untouched, flights, outcomes⟩ := keeps.frame apart flies own
  refine ⟨fun id fresh => untouched id ?_, fun waiting mem => ?_, outcomes⟩
  · simp only [begun, fallAsleep_shards run.flights rfl] at fresh
    exact fresh
  · obtain ⟨other, flies, rfl⟩ := List.mem_map.mp mem
    by_cases same : other.shard = flight.shard
    · rw [if_pos same]
      obtain ⟨still, onward⟩ := tended
      refine ⟨(· = custody.part flight.shard world), rfl, fun later kept => ?_⟩
      have same : custody.part flight.shard later = custody.part flight.shard world := kept
      have rests : custody.Idle before flight.shard later := by
        rw [Custody.Idle, same]
        exact still
      exact ⟨rests, onward later same rests⟩
    · rw [if_neg same]
      exact flights other flies same

/-- Every turn keeps the promises. -/
theorem Keeps.turn (keeps : run.Keeps custody before) (apart : run.roll.Nodup)
    {shard : ShardId} (turn : run.Turn shard next) : next.Keeps custody before := by
  cases turn with
  | absent => exact keeps
  | @givenUp flight found off =>
      obtain rfl := shard_of_find found
      have flies := List.mem_of_find?_eq_some found
      obtain ⟨standing, stands, kept⟩ := keeps.flights flight flies
      obtain ⟨own, given⟩ := (kept _ stands).2.1
      exact keeps.finish apart flies own (custody.calledOff given)
  | @ended flight world result found wanted proceeds =>
      obtain rfl := shard_of_find found
      have flies := List.mem_of_find?_eq_some found
      obtain ⟨standing, stands, kept⟩ := keeps.flights flight flies
      obtain ⟨own, ends⟩ := (kept _ stands).2.2.proceed run.now
      rw [proceeds] at own ends
      exact keeps.finish apart flies own ends
  | @asleep flight world ticks abandon rest found wanted proceeds =>
      obtain rfl := shard_of_find found
      have flies := List.mem_of_find?_eq_some found
      obtain ⟨standing, stands, kept⟩ := keeps.flights flight flies
      obtain ⟨own, tended⟩ := (kept _ stands).2.2.proceed run.now
      rw [proceeds] at own tended
      exact keeps.fallAsleep apart flies own tended

end Run

/-! ### The moves of a call -/

theorem Gathered.outcomes_record (gathered : Gathered α) (answer : Answer α) :
    (gathered.record answer).outcomes.Perm (gathered.outcomes ++ [answer]) := by
  unfold record
  split
  · next off =>
      obtain ⟨shard, result⟩ := answer
      simp_all [outcomes]
  · simp only [outcomes, List.append_assoc]
    exact List.perm_append_comm.append_left _

namespace Call

variable {custody : Custody σ π α} {call : Call σ α} {before : σ} {run next : Run σ α}

/-- A shard that is handed out finds its part as it was. -/
theorem keeps_handOut {shard : Shard} {others : List Shard}
    (invocation : custody.Keeps shard.id (call.invocation shard))
    (keeps : run.Keeps custody before) (apart : run.roll.Nodup)
    (pending : run.pending = shard :: others) :
    (call.handOut { run with pending := others } shard).Keeps custody before := by
  have fresh : shard.id ∉ run.begun := by
    intro known
    rw [Run.roll_eq, pending] at apart
    exact (List.nodup_append.mp apart).2.2 _ known _ List.mem_cons_self rfl
  refine ⟨fun id unknown => keeps.untouched id fun known => unknown ?_, fun flight mem => ?_,
    keeps.outcomes⟩
  · simp only [Run.begun, Run.outcomes, handOut, List.map_append, List.mem_append] at known ⊢
    tauto
  · rcases List.mem_append.mp mem with flies | new
    · exact keeps.flights flight flies
    · -- Until its first turn the shard stands by its part being as it was.
      obtain rfl := List.mem_singleton.mp new
      refine ⟨(· = custody.part shard.id before), keeps.untouched _ fresh, fun later same => ?_⟩
      have idle : custody.Idle before shard.id later := by
        rw [Custody.Idle, same]
        exact custody.idle_refl _ _
      refine ⟨idle, ⟨.refl _ _ _, idle⟩, ?_⟩
      exact same ▸ invocation later

/-- Every move keeps the promises. -/
theorem Move.keeps (invocations : ∀ shard, custody.Keeps shard.id (call.invocation shard))
    (move : call.Move run next) (orderly : run.Orderly) (keeps : run.Keeps custody before) :
    next.Keeps custody before := by
  cases move with
  | @handOut shard _ _ pending =>
      exact keeps_handOut (invocations shard) keeps orderly.apart pending
  | notice => exact keeps.same rfl rfl (.refl _)
  | @record answer others _ _ _ finished =>
      rw [Run.record_eq]
      refine keeps.same rfl rfl ?_
      have recorded := (run.gathered.outcomes_record answer).append_right others
      rw [List.append_assoc] at recorded
      rw [Run.outcomes, Run.outcomes, finished]
      exact recorded
  | work =>
      rw [Run.hearCaller_eq]
      exact keeps.same rfl rfl (.refl _)
  | @turn shard others served _ queue turn =>
      have queued : Run.Keeps custody before { run with ready := others } :=
        keeps.same rfl rfl (.refl _)
      rw [Run.countTurn_eq]
      exact (queued.turn orderly.apart turn).same rfl rfl (.refl _)
  | collect => exact keeps.same rfl rfl (.refl _)
  | moveOn =>
      rw [Run.hearCaller_eq]
      exact keeps.same rfl rfl (.refl _)

theorem Reaches.keeps_custody
    (invocations : ∀ shard, custody.Keeps shard.id (call.invocation shard)) {start : Run σ α}
    (reaches : call.Reaches start run) (orderly : start.Orderly)
    (keeps : start.Keeps custody before) : run.Keeps custody before := by
  induction reaches with
  | refl => exact keeps
  | tail earlier step ih =>
      exact (step_eq_some_iff.mp step).keeps invocations (Reaches.orderly earlier orderly) ih

/-- The worlds that a call goes through, from a state on. -/
def course (call : Call σ α) : Nat → Run σ α → List σ
  | 0, run => [run.world]
  | moves + 1, run =>
      match call.step run with
      | none => [run.world]
      | some next => run.world :: call.course moves next

theorem head?_course (call : Call σ α) (moves : Nat) (run : Run σ α) :
    (call.course moves run).head? = some run.world := by
  cases moves with
  | zero => rfl
  | succ moves =>
      rw [course]
      split <;> rfl

theorem getLast?_course (call : Call σ α) (moves : Nat) (run : Run σ α) :
    (call.course moves run).getLast? = some (call.advance moves run).world := by
  induction moves generalizing run with
  | zero => rfl
  | succ moves ih =>
      rw [course, advance]
      cases call.step run with
      | none => rfl
      | some next =>
          simp only
          rw [List.getLast?_cons, ih, Option.getD_some]

theorem reaches_of_mem_course {moves : Nat} {seen : σ} (mem : seen ∈ call.course moves run) :
    ∃ reached, call.Reaches run reached ∧ reached.world = seen := by
  induction moves generalizing run with
  | zero => exact ⟨run, .refl, (List.mem_singleton.mp mem).symm⟩
  | succ moves ih =>
      rw [course] at mem
      split at mem
      · exact ⟨run, .refl, (List.mem_singleton.mp mem).symm⟩
      · next next step =>
          rcases List.mem_cons.mp mem with rfl | later
          · exact ⟨run, .refl, rfl⟩
          · obtain ⟨reached, reaches, same⟩ := ih later
            exact ⟨reached, .head step reaches, same⟩

end Call

/-! ### Calls of an executor -/

namespace Executor

variable {custody : Custody σ π α} {executor : Executor} {options : ScatterOptions}
  {targets : Targets} {operation : Shard → Operation σ α} {moment : Moment σ}

/-- The worlds that a call of the executor goes through. -/
def course (executor : Executor) (options : ScatterOptions) (targets : Targets)
    (operation : Shard → Operation σ α) (moment : Moment σ) : List σ :=
  let call : Call σ α := ⟨operation, options⟩
  call.course (call.moveBound (targets.known executor.topology).length)
    (executor.start options targets operation moment)

theorem head?_course (executor : Executor) (options : ScatterOptions) (targets : Targets)
    (operation : Shard → Operation σ α) (moment : Moment σ) :
    (executor.course options targets operation moment).head? = some moment.world :=
  Call.head?_course _ _ _

/-- The last world that a call goes through is the one that it leaves. -/
theorem getLast?_course (executor : Executor) (options : ScatterOptions) (targets : Targets)
    (operation : Shard → Operation σ α) (moment : Moment σ) :
    (executor.course options targets operation moment).getLast? =
      some (executor.scatterWith options targets operation moment).2.world := by
  rw [scatterWith_eq]
  dsimp only
  rw [Run.after_world, Call.final]
  exact Call.getLast?_course _ _ _

theorem start_keeps : (executor.start options targets operation moment).Keeps custody
    moment.world where
  untouched := fun _ _ => rfl
  flights := fun _ absent => by cases absent
  outcomes := by
    intro answer mem
    simp only [Run.outcomes, Gathered.outcomes, start, Call.begin, List.map_nil,
      List.append_nil] at mem
    obtain ⟨id, -, rfl⟩ := List.mem_map.mp mem
    exact custody.stray id _

/-- A call whose invocations keep what is promised of the parts of their shards leaves every part
as promised for what it brings back, wherever it was cut off. -/
theorem scatterWith_settled
    (invocations : ∀ shard, custody.Keeps shard.id (Call.invocation ⟨operation, options⟩ shard)) :
    custody.Settled moment.world (executor.scatterWith options targets operation moment).1
      (executor.scatterWith options targets operation moment).2.world := by
  obtain ⟨last, ends, whole⟩ := executor.scatterWith_ends options targets operation moment
  have keeps := ends.1.keeps_custody invocations
    (executor.start_orderly options targets operation moment) start_keeps
  obtain ⟨-, flights, finished, -⟩ := Call.step_eq_none_iff.mp ends.2
  have outcomes : last.outcomes = last.outcome.outcomes := by
    rw [Run.outcomes, finished, List.append_nil]
    rfl
  have begun : last.begun = last.outcome.outcomes.map Answer.shard := by
    rw [Run.begun, flights, outcomes, List.map_nil, List.append_nil]
  rw [whole]
  constructor
  · rw [← outcomes]
    exact keeps.outcomes
  · rw [← begun]
    exact keeps.untouched

/-- At no time during such a call has a part been left as no result could leave it. -/
theorem visible_of_mem_course
    (invocations : ∀ shard, custody.Keeps shard.id (Call.invocation ⟨operation, options⟩ shard))
    {seen : σ} (mem : seen ∈ executor.course options targets operation moment) :
    custody.Visible moment.world seen := by
  obtain ⟨reached, reaches, rfl⟩ := Call.reaches_of_mem_course mem
  exact (reaches.keeps_custody invocations
    (executor.start_orderly options targets operation moment) start_keeps).visible

/-- Shards that are not targeted are left alone throughout. -/
theorem untouched_of_mem_course
    (invocations : ∀ shard, custody.Keeps shard.id (Call.invocation ⟨operation, options⟩ shard))
    {seen : σ} (mem : seen ∈ executor.course options targets operation moment) {id : ShardId}
    (stranger : id ∉ targets.ids executor.topology) :
    custody.part id seen = custody.part id moment.world := by
  obtain ⟨reached, reaches, rfl⟩ := Call.reaches_of_mem_course mem
  have orderly := executor.start_orderly options targets operation moment
  have keeps := reaches.keeps_custody invocations orderly start_keeps
  refine keeps.untouched id fun known => stranger ?_
  have kept := reaches.roll_perm orderly
  rw [executor.start_roll, Run.roll_eq] at kept
  exact ((kept.trans (targets.split_perm executor.topology)).mem_iff).mp
    (List.mem_append_left _ known)

/-! ### One shard -/

/-- An operation on one shard keeps what is promised of its part, also if the shard is not known
or the caller has cancelled. -/
theorem keeps_attempt
    (invocations : ∀ shard, custody.Keeps shard.id (executor.invocation operation shard))
    (id : ShardId) (cancelled : Bool) :
    custody.Keeps id (executor.attempt id operation cancelled) := by
  intro world
  unfold attempt
  cases found : executor.topology.get id with
  | error error =>
      have missing : error = .unknownShard id.name := by
        rw [Topology.get] at found
        split at found
        · cases found
        · exact (Except.error.inj found).symm
      subst missing
      exact custody.stray id _
  | ok shard =>
      obtain ⟨-, rfl⟩ := Topology.get_eq_ok_iff.mp found
      cases cancelled with
      | true => exact custody.calledOff (custody.idle_refl _ _)
      | false => exact invocations shard world

/-- An operation on one shard touches no other part, and leaves its own as promised for what it
comes to. -/
theorem on_ends
    (invocations : ∀ shard, custody.Keeps shard.id (executor.invocation operation shard))
    (id : ShardId) (moment : Moment σ) :
    TouchesOnly custody.part id moment.world (executor.on id operation moment).2.world ∧
      custody.Ends moment.world ⟨id, (executor.on id operation moment).1⟩
        (executor.on id operation moment).2.world :=
  Job.tends_perform (fun _ => custody.calledOff)
    (keeps_attempt invocations id moment.cancellation.hasFired moment.world)

/-- The worlds that an operation on one shard goes through. -/
def courseOn (executor : Executor) (id : ShardId) (operation : Shard → Operation σ α)
    (moment : Moment σ) : List σ :=
  moment.world ::
    Activity.course (executor.attempt id operation moment.cancellation.hasFired) moment

theorem getLast?_courseOn (executor : Executor) (id : ShardId)
    (operation : Shard → Operation σ α) (moment : Moment σ) :
    (executor.courseOn id operation moment).getLast? =
      some (executor.on id operation moment).2.world := by
  rw [courseOn, List.getLast?_cons, Activity.getLast?_course, Option.getD_some]
  rfl

/-- Other shards are left alone throughout. -/
theorem untouched_of_mem_courseOn
    (invocations : ∀ shard, custody.Keeps shard.id (executor.invocation operation shard))
    {id : ShardId} {seen : σ} (mem : seen ∈ executor.courseOn id operation moment) :
    TouchesOnly custody.part id moment.world seen := by
  rcases List.mem_cons.mp mem with rfl | later
  · exact .refl _ _ _
  · exact (Activity.Tends.course
      (keeps_attempt invocations id moment.cancellation.hasFired moment.world) seen later).1

theorem visible_of_mem_courseOn
    (invocations : ∀ shard, custody.Keeps shard.id (executor.invocation operation shard))
    {id : ShardId} {seen : σ} (mem : seen ∈ executor.courseOn id operation moment) :
    custody.Visible moment.world seen := by
  rcases List.mem_cons.mp mem with rfl | later
  · exact custody.visible_refl _
  · obtain ⟨own, left⟩ := Activity.Tends.course
      (keeps_attempt invocations id moment.cancellation.hasFired moment.world) seen later
    refine custody.visible_of_touchesOnly own ?_
    rcases left with still | ended
    · exact ⟨_, custody.calledOff still⟩
    · exact ended

end Executor

end ShardFleet
