import ShardFleet.Proofs.Scatter.FailFast
import ShardFleet.Proofs.Scatter.Isolation
import ShardFleet.Proofs.Scatter.Custody
import ShardFleet.Proofs.Spending

/-!
Shards whose results are assured.

What an invocation comes to may depend on the part that the world holds for its shard. In a call
that nothing calls off, each shard finds its part as it was when the call began, so what is assured
of its invocation then, it comes to in the end, whenever it is handed out and whatever the others do
meanwhile (`Executor.scatterWith_assured`). If success is assured to all, no failure stops the call,
whether it tolerates failures or not (`Executor.scatterWith_succeeds`).
-/

namespace ShardFleet

variable {σ π α : Type} {part : ShardId → σ → π} {results : ShardId → Except Error α → Prop}

/-- As the parts stand, whoever has not ended comes to one of the results of its shard, and
whoever has ended came to one. -/
structure Run.Assured (part : ShardId → σ → π) (results : ShardId → Except Error α → Prop)
    (call : Call σ α) (run : Run σ α) : Prop where
  pending : ∀ shard ∈ run.pending,
    (call.invocation shard).Assures part shard.id (part shard.id run.world) (results shard.id)
  flights : ∀ flight ∈ run.flights,
    flight.rest.Assures part flight.shard (part flight.shard run.world) (results flight.shard)
  outcomes : ∀ answer ∈ run.outcomes, results answer.shard answer.result

namespace Run

variable {call : Call σ α} {run next served : Run σ α} {shard : ShardId}

/-- Moving on with the same world. -/
theorem Assured.same (assured : run.Assured part results call) (world : next.world = run.world)
    (pending : next.pending = run.pending) (flights : next.flights = run.flights)
    (outcomes : next.outcomes.Perm run.outcomes) : next.Assured part results call where
  pending := by
    rw [pending, world]
    exact assured.pending
  flights := by
    rw [flights, world]
    exact assured.flights
  outcomes := fun answer mem => assured.outcomes answer (outcomes.mem_iff.mp mem)

/-- What is done to the part of a shard in flight leaves the others' results assured. -/
theorem Assured.frame (assured : run.Assured part results call) (apart : run.roll.Nodup)
    {flight : Flight σ α} (flies : flight ∈ run.flights) {world : σ}
    (own : TouchesOnly part flight.shard run.world world) :
    (∀ shard ∈ run.pending,
      (call.invocation shard).Assures part shard.id (part shard.id world) (results shard.id)) ∧
    ∀ other ∈ run.flights, other.shard ≠ flight.shard →
      other.rest.Assures part other.shard (part other.shard world) (results other.shard) := by
  constructor
  · intro shard waits
    have different : shard.id ≠ flight.shard := by
      intro same
      exact (List.nodup_append.mp apart).2.2 flight.shard
        (List.mem_append_right _ (List.mem_map_of_mem flies)) shard.id
        (List.mem_map_of_mem waits) same.symm
    rw [own _ different]
    exact assured.pending shard waits
  · intro other otherFlies different
    rw [own _ different]
    exact assured.flights other otherFlies

/-- A turn in a call that is not called off brings its invocation to a result or to a wait. -/
theorem Assured.turn (assured : run.Assured part results call) (apart : run.roll.Nodup)
    (wanted : run.calledOff = false) (turn : run.Turn shard served) :
    served.Assured part results call := by
  cases turn with
  | absent => exact assured
  | givenUp _ off => cases wanted.symm.trans off
  | @ended flight world result found _ proceeds =>
      obtain rfl := shard_of_find found
      have flies := List.mem_of_find?_eq_some found
      obtain ⟨own, ends⟩ := (assured.flights flight flies run.world rfl).proceed run.now
      rw [proceeds] at own ends
      obtain ⟨pending, flights⟩ := assured.frame apart flies own
      refine ⟨pending, fun other mem => ?_, fun answer mem => ?_⟩
      · obtain ⟨mem, different⟩ := mem_finish.mp mem
        exact flights other mem different
      · rw [Run.outcomes, Run.finish, ← List.append_assoc] at mem
        rcases List.mem_append.mp mem with earlier | new
        · exact assured.outcomes answer earlier
        · obtain rfl := List.mem_singleton.mp new
          exact ends
  | @asleep flight world ticks abandon rest found _ proceeds =>
      obtain rfl := shard_of_find found
      have flies := List.mem_of_find?_eq_some found
      obtain ⟨own, tended⟩ := (assured.flights flight flies run.world rfl).proceed run.now
      rw [proceeds] at own tended
      obtain ⟨pending, flights⟩ := assured.frame apart flies own
      refine ⟨pending, fun waiting mem => ?_, assured.outcomes⟩
      obtain ⟨other, otherFlies, rfl⟩ := List.mem_map.mp mem
      by_cases same : other.shard = flight.shard
      · rw [if_pos same]
        exact fun later kept => (tended.2 later kept trivial).2
      · rw [if_neg same]
        exact flights other otherFlies same

end Run

/-- Every move of an undisturbed call keeps what is assured. -/
theorem Call.Move.assured {call : Call σ α} {run next : Run σ α} (move : call.Move run next)
    (orderly : run.Orderly) (undisturbed : run.Undisturbed)
    (assured : run.Assured part results call) : next.Assured part results call := by
  cases move with
  | @handOut shard others _ queue =>
      obtain ⟨pending, flights, outcomes⟩ := assured
      rw [queue] at pending
      refine ⟨fun other mem => pending other (List.mem_cons_of_mem _ mem), ?_, outcomes⟩
      intro flight mem
      rcases List.mem_append.mp mem with flies | new
      · exact flights flight flies
      · obtain rfl := List.mem_singleton.mp new
        exact pending shard List.mem_cons_self
  | notice _ _ _ fired =>
      rw [undisturbed.unfired] at fired
      cases fired
  | @record answer others _ _ _ finished =>
      rw [Run.record_eq]
      refine assured.same rfl rfl rfl ?_
      have recorded := (run.gathered.outcomes_record answer).append_right others
      rw [List.append_assoc] at recorded
      rw [Run.outcomes, Run.outcomes, finished]
      exact recorded
  | work =>
      rw [Run.hearCaller_eq]
      exact assured.same rfl rfl rfl (.refl _)
  | @turn shard others served _ queue turn =>
      have queued : Run.Assured part results call { run with ready := others } :=
        assured.same rfl rfl rfl (.refl _)
      rw [Run.countTurn_eq]
      exact (queued.turn orderly.apart undisturbed.wanted turn).same rfl rfl rfl (.refl _)
  | collect => exact assured.same rfl rfl rfl (.refl _)
  | moveOn =>
      rw [Run.hearCaller_eq]
      exact assured.same rfl rfl rfl (.refl _)

theorem Call.Reaches.assured {call : Call σ α} {start run : Run σ α}
    (reaches : call.Reaches start run) (tolerant : call.options.tolerance = .bestEffort)
    (orderly : start.Orderly) (undisturbed : start.Undisturbed)
    (assured : start.Assured part results call) : run.Assured part results call := by
  induction reaches with
  | refl => exact assured
  | tail earlier step ih =>
      exact (step_eq_some_iff.mp step).assured (Reaches.orderly earlier orderly)
        (Reaches.undisturbed earlier tolerant undisturbed) ih

namespace Executor

variable {executor : Executor} {options : ScatterOptions} {targets : Targets}
  {operation : Shard → Operation σ α} {moment : Moment σ}

/-- A call that tolerates failures and whose caller waits skips nobody, and everyone comes to a
result that was assured when the call began. -/
theorem scatterWith_assured (tolerant : options.tolerance = .bestEffort)
    (patient : moment.cancellation = .never) (known : targets.strays executor.topology = [])
    (assured : ∀ shard ∈ targets.known executor.topology,
      (Call.invocation ⟨operation, options⟩ shard).Assures part shard.id
        (part shard.id moment.world) (results shard.id)) :
    let gathered := (executor.scatterWith options targets operation moment).1
    (∀ answer ∈ gathered.outcomes, results answer.shard answer.result) ∧
      gathered.skipped = [] := by
  intro gathered
  obtain ⟨last, ends, whole⟩ := executor.scatterWith_ends options targets operation moment
  have same : gathered = last.outcome := congrArg Prod.fst whole
  have undisturbed := executor.start_undisturbed targets operation tolerant patient
  have begun : (executor.start options targets operation moment).Assured part results
      ⟨operation, options⟩ := by
    refine ⟨assured, nofun, fun answer mem => ?_⟩
    simp [Run.outcomes, Gathered.outcomes, start, Call.begin, known] at mem
  have atEnd := ends.1.assured tolerant (executor.start_orderly options targets operation moment)
    undisturbed begun
  have going := (ends.1.undisturbed tolerant undisturbed).going
  have handed := (Call.step_eq_none_iff.mp ends.2).2.2.2 going
  rw [same]
  refine ⟨fun answer mem => atEnd.outcomes answer (List.mem_append_left _ mem), ?_⟩
  simp [Run.outcome, handed]

/-- If success is assured to all targets when the call begins and the caller waits, then the call
is complete, whatever it does about failures, and everyone succeeds as was assured. -/
theorem scatterWith_succeeds {values : ShardId → α → Prop}
    (patient : moment.cancellation = .never) (known : targets.strays executor.topology = [])
    (assured : ∀ shard ∈ targets.known executor.topology,
      (Call.invocation ⟨operation, options⟩ shard).Assures part shard.id
        (part shard.id moment.world)
        (fun result => ∃ value, result = .ok value ∧ values shard.id value)) :
    let gathered := (executor.scatterWith options targets operation moment).1
    gathered.isComplete = true ∧
      ∀ answer ∈ gathered.answers, ∃ value, answer.result = .ok value ∧
        values answer.shard value := by
  intro gathered
  -- The same call that tolerates failures records none, so that it is the same call.
  let tolerant : ScatterOptions := { options with tolerance := .bestEffort }
  let brought := (executor.scatterWith tolerant targets operation moment).1
  let results : ShardId → Except Error α → Prop := fun id result =>
    ∃ value, result = .ok value ∧ values id value
  obtain ⟨outcomes, skipped⟩ : (∀ answer ∈ brought.outcomes, results answer.shard answer.result) ∧
      brought.skipped = [] := scatterWith_assured rfl patient known assured
  have succeeded : ∀ answer ∈ brought.answers, results answer.shard answer.result :=
    fun answer mem => outcomes answer (List.mem_append_left _ mem)
  have calm : brought.failures = [] := by
    refine List.filterMap_eq_nil_iff.mpr fun answer mem => ?_
    obtain ⟨value, success, -⟩ := succeeded answer mem
    rw [success]
  have kept : brought.cancelled = [] := by
    refine List.eq_nil_iff_forall_not_mem.mpr fun id listed => ?_
    obtain ⟨value, success, -⟩ :=
      outcomes ⟨id, .error .cancelled⟩ (List.mem_append_right _ (List.mem_map_of_mem listed))
    cases success
  have same : gathered = brought :=
    congrArg Prod.fst (scatterWith_tolerating options.tolerance calm)
  rw [same]
  exact ⟨by simp [Gathered.isComplete, calm, kept, skipped], succeeded⟩

/-- On its own an invocation whose caller waits comes to a result that was assured. It touches the
part of its shard only, and the caller goes on waiting. -/
theorem on_assured {shard : Shard} {met : Except Error α → Prop}
    (known : executor.topology.find? shard.id = some shard)
    (patient : moment.cancellation = .never)
    (assured : (executor.invocation operation shard).Assures part shard.id
      (part shard.id moment.world) met) :
    met (executor.on shard.id operation moment).1 ∧
      TouchesOnly part shard.id moment.world (executor.on shard.id operation moment).2.world ∧
      (executor.on shard.id operation moment).2.cancellation = .never := by
  rw [on_performs known patient]
  exact assured.perform patient

end Executor

end ShardFleet
