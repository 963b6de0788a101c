import ShardFleet.Proofs.Migration.Rollouts
import ShardFleet.Proofs.Scatter.Verdicts

/-!
What rollouts and calls say of themselves as a whole.

A rollout says what its call says, and one that visits a shard first says what the call on the
others says if that visit succeeds (`Rollout.runUnder_concludes`). When the visit has succeeded, its
caller has not cancelled at an instant so far (`Executor.unfired_of_on`). So the results of all
calls and rollouts agree with their completeness, unless the caller cancels when nothing is left to
do (`toResult_concludes`).
-/

namespace ShardFleet

variable {σ α : Type}

/-! ### One shard first -/

/-- What comes to its result is not cancelled meanwhile. -/
theorem Activity.cancellation_run {ρ : Type} {activity : Activity σ ρ} {moment : Moment σ}
    {result : ρ} (ends : (activity.run moment).1 = some result) :
    (activity.run moment).2.cancellation = moment.cancellation := by
  induction activity generalizing moment with
  | done => rfl
  | act update next ih => exact ih moment.world ends
  | clock next ih => exact ih moment.now ends
  | pause ticks abandon next ih =>
      cases ticks with
      | zero => exact ih ends
      | succ ticks =>
          simp only [Activity.run] at ends ⊢
          split at ends
          · cases ends
          · next passes =>
              rw [if_neg passes]
              exact ih ends

theorem Job.cancellation_perform {job : Job σ α} {moment : Moment σ} {value : α}
    (succeeds : (job.perform moment).1 = .ok value) :
    (job.perform moment).2.cancellation = moment.cancellation := by
  cases result : (Activity.run job moment).1 with
  | none =>
      have off : (job.perform moment).1 = .error .cancelled := congrArg (Option.getD · _) result
      rw [off] at succeeds
      cases succeeds
  | some outcome => exact Activity.cancellation_run result

/-- When an operation on one shard has succeeded, its caller has not cancelled. -/
theorem Executor.unfired_of_on {executor : Executor} {id : ShardId}
    {operation : Shard → Operation σ α} {moment : Moment σ} {value : α}
    (succeeds : (executor.on id operation moment).1 = .ok value) :
    (executor.on id operation moment).2.cancellation.hasFired = false := by
  have performs : executor.on id operation moment =
      (executor.attempt id operation moment.cancellation.hasFired).perform moment := rfl
  have going : moment.cancellation.hasFired = false := by
    by_contra fired
    rw [Bool.not_eq_false] at fired
    rw [performs, fired] at succeeds
    -- An attempt whose caller has cancelled does not begin.
    unfold attempt at succeeds
    cases found : executor.topology.get id <;> rw [found] at succeeds <;> cases succeeds
  rw [performs] at succeeds ⊢
  rw [Job.cancellation_perform succeeds, going]

namespace Gathered

variable {gathered : Gathered α} {id : ShardId} {value : α}

/-- A success in front changes nothing in what is complete. -/
theorem isComplete_cons_ok :
    isComplete { gathered with answers := ⟨id, .ok value⟩ :: gathered.answers } =
      gathered.isComplete :=
  rfl

end Gathered

namespace Rollout

variable {rollout : Rollout} {direction : Direction} {migration : Migration}
  {strategy : RolloutStrategy} {interruption : Interruption} {moment : Moment Deployment}

/-- Nothing is left to do when the caller of a rollout cancels. If a shard is visited first, that
visit has succeeded, and nothing is left to do in the call on the others. -/
def Idle (rollout : Rollout) (interruption : Interruption) (direction : Direction)
    (migration : Migration) (strategy : RolloutStrategy) (moment : Moment Deployment) : Prop :=
  let executor := rollout.executor
  let operation := rollout.operation direction migration
  match strategy with
  | .sequential => executor.Idle interruption rollout.sequentialOptions .all operation moment
  | .parallel => executor.Idle interruption executor.options .all operation moment
  | .canary canary => ∃ outcome reached,
      executor.on canary operation moment = (.ok outcome, reached) ∧
        executor.Idle interruption executor.options (others executor.topology canary) operation
          reached

/-- A rollout that visits one shard first is complete although its caller has cancelled only if the
call on the others is. -/
theorem complete_and_heard_canary (rollout : Rollout) (interruption : Interruption)
    (direction : Direction) (migration : Migration) (canary : ShardId)
    (moment : Moment Deployment) :
    let gathered := (rollout.runCanaryUnder interruption direction migration canary moment).1
    gathered.isComplete = true ∧ gathered.callerCancelled = true ↔
      rollout.Idle interruption direction migration (.canary canary) moment := by
  intro gathered
  have ran : gathered =
      (rollout.runCanaryUnder interruption direction migration canary moment).1 := rfl
  rw [ran]
  unfold Idle
  rcases rollout.runCanaryUnder_cases interruption direction migration canary moment with
    ⟨error, reached, visit, failed⟩ |
    ⟨outcome, reached, gathered, ended, visit, followed, succeeded⟩
  · have incomplete : (afterFailedCanary canary
        (rollout.executor.topology.ids.filter (· ≠ canary)) error).isComplete = false := by
      cases error <;> rfl
    rw [failed]
    simp only [visit]
    constructor
    · rintro ⟨complete, -⟩
      exact absurd (incomplete.symm.trans complete) Bool.false_ne_true
    · rintro ⟨outcome, other, same, -⟩
      cases same
  · have call := (rollout.executor.scatterUnder_concludes interruption rollout.executor.options
      (others rollout.executor.topology canary) (rollout.operation direction migration)
      reached).idle
    rw [followed] at call
    rw [succeeded]
    simp only [visit, Gathered.isComplete_cons_ok]
    rw [← call]
    constructor
    · intro idle
      exact ⟨outcome, reached, rfl, idle⟩
    · rintro ⟨other, again, same, idle⟩
      cases same
      exact idle

/-- Without an interruption nothing is left to do only if there is no shard. -/
theorem idle_never_iff (known : strategy.Known rollout.executor.topology) :
    rollout.Idle .never direction migration strategy moment ↔
      moment.cancellation.hasFired = true ∧ rollout.executor.topology.ids = [] := by
  cases strategy with
  | sequential => exact .rfl
  | parallel => exact .rfl
  | canary canary =>
      constructor
      · rintro ⟨outcome, reached, visit, fired, -⟩
        have going := Executor.unfired_of_on (congrArg Prod.fst visit)
        rw [visit] at going
        exact absurd fired (by simp [going])
      · rintro ⟨-, none⟩
        have listed : canary ∈ rollout.executor.topology.ids := known
        simp [none] at listed

theorem runUnder_concludes (rollout : Rollout) (interruption : Interruption)
    (direction : Direction) (migration : Migration) (strategy : RolloutStrategy)
    (moment : Moment Deployment) :
    match (rollout.runUnder interruption direction migration strategy moment).1 with
    | .ok report => report.gathered.Concludes rollout.executor.topology.ids
        (rollout.Idle interruption direction migration strategy moment)
    | .error _ => ¬ strategy.Known rollout.executor.topology := by
  cases strategy with
  | sequential =>
      exact rollout.executor.scatterUnder_concludes interruption rollout.sequentialOptions .all _
        moment
  | parallel =>
      exact rollout.executor.scatterUnder_concludes interruption rollout.executor.options .all _
        moment
  | canary canary =>
      by_cases known : canary ∈ rollout.executor.topology.ids
      · rw [runUnder_of_canary interruption known]
        exact Gathered.concludes_of_heard_iff
          (rollout.runCanaryUnder_roll interruption known direction migration moment)
          rollout.executor.topology.distinct
          (rollout.complete_and_heard_canary interruption direction migration canary moment)
      · have unknown : ¬ (RolloutStrategy.canary canary).Known rollout.executor.topology := known
        obtain ⟨error, stranger⟩ :=
          rollout.runUnder_of_stranger unknown interruption direction migration moment
        rw [stranger]
        exact unknown

theorem run_concludes (rollout : Rollout) (direction : Direction) (migration : Migration)
    (strategy : RolloutStrategy) (moment : Moment Deployment) :
    match (rollout.run direction migration strategy moment).1 with
    | .ok report => report.gathered.Concludes rollout.executor.topology.ids
        (moment.cancellation.hasFired = true ∧ rollout.executor.topology.ids = [])
    | .error _ => ¬ strategy.Known rollout.executor.topology := by
  by_cases known : strategy.Known rollout.executor.topology
  · rw [← idle_never_iff known]
    exact rollout.runUnder_concludes .never direction migration strategy moment
  · obtain ⟨error, stranger⟩ := rollout.run_of_stranger known direction migration moment
    rw [stranger]
    exact known

end Rollout

/-! ### Every verdict -/

/-- The results of all calls and of all rollouts agree with their completeness, whatever is done on
the shards, under whatever options, and whenever the caller cancels: at an instant, before a call,
or between any two moves of it. The exception is a caller who cancels when nothing is left to do;
such a call is complete, and its result is that it was cancelled. Without an interruption the
exception is a call that has no shard to visit and whose caller had cancelled before. A rollout
without a report is one whose strategy cannot be followed. -/
theorem toResult_concludes (executor : Executor) (options : ScatterOptions) (targets : Targets)
    (operation : Shard → Operation σ α) (moment : Moment σ)
    (rollout : Rollout) (direction : Direction) (migration : Migration)
    (strategy : RolloutStrategy) (instant : Moment Deployment) (interruption : Interruption) :
    (executor.scatterUnder interruption options targets operation moment).1.Concludes
        (targets.ids executor.topology)
        (executor.Idle interruption options targets operation moment) ∧
      (match (rollout.runUnder interruption direction migration strategy instant).1 with
        | .ok report => report.gathered.Concludes rollout.executor.topology.ids
            (rollout.Idle interruption direction migration strategy instant)
        | .error _ => ¬ strategy.Known rollout.executor.topology) ∧
      (executor.scatterWith options targets operation moment).1.Concludes
        (targets.ids executor.topology)
        (moment.cancellation.hasFired = true ∧ targets.ids executor.topology = []) ∧
      match (rollout.run direction migration strategy instant).1 with
      | .ok report => report.gathered.Concludes rollout.executor.topology.ids
          (instant.cancellation.hasFired = true ∧ rollout.executor.topology.ids = [])
      | .error _ => ¬ strategy.Known rollout.executor.topology := by
  refine ⟨?interrupted, ?interruptedRollout, ?alone, ?rolloutAlone⟩
  case interrupted =>
    exact executor.scatterUnder_concludes interruption options targets operation moment
  case interruptedRollout =>
    exact rollout.runUnder_concludes interruption direction migration strategy instant
  case alone => exact executor.scatterUnder_concludes .never options targets operation moment
  case rolloutAlone => exact rollout.run_concludes direction migration strategy instant

/-- The caller of a call on one shard cancels when the operation has returned and its value is not
recorded yet. -/
example :
    let gathered := (Executor.scatterUnder ⟨.pair, {}⟩ (.amid 3) {} (.some [Shard.first.id])
      (fun shard => Script.operation {} shard) { now := 0, world := {} }).1
    gathered.isComplete = true ∧ gathered.toResult = .error .cancelled :=
  ⟨rfl, rfl⟩

/-- A call without targets is complete, and its result is that its caller had cancelled. -/
theorem idle_complete_yet_cancelled :
    let gathered := (Executor.scatterWith ⟨.pair, {}⟩ {} (.some [])
      (fun shard => Script.operation {} shard) { now := 0, world := {}, cancellation := .fired }).1
    gathered.isComplete = true ∧ gathered.toResult = .error .cancelled :=
  ⟨rfl, rfl⟩

end ShardFleet
