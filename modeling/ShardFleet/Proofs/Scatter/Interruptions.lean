import ShardFleet.Proofs.Scatter.Conservation

/-!
Calls whose callers interrupt them.

An interruption takes nothing from a call and adds little to what it still has to do
(`Call.effort_interrupt`), so a call that is interrupted comes to its end too, from the state in
which it is left (`Executor.scatterUnder_amid_ends`). Whenever that is, it accounts for its targets
(`Executor.scatterUnder_roll`).
-/

namespace ShardFleet

variable {σ α : Type}

/-! ### Interrupted states -/

namespace Run

variable {run : Run σ α}

theorem interrupt_of_fired (fired : run.cancellation.hasFired = true) : run.interrupt = run :=
  if_pos fired

theorem interrupt_of_unfired (going : run.cancellation.hasFired = false) :
    run.interrupt =
      { run with cancellation := .fired, ready := run.ready ++ run.waiting } := by
  rw [interrupt, if_neg (by simp [going])]
  rfl

/-- An interruption changes how the caller stands and who queues. -/
theorem interrupt_frame (run : Run σ α) :
    run.interrupt =
      { run with
        cancellation := run.interrupt.cancellation
        ready := run.interrupt.ready } := by
  cases fired : run.cancellation.hasFired with
  | false => rw [interrupt_of_unfired fired]
  | true => rw [interrupt_of_fired fired]

theorem fired_interrupt (run : Run σ α) : run.interrupt.cancellation.hasFired = true := by
  cases fired : run.cancellation.hasFired with
  | false =>
      rw [interrupt_of_unfired fired]
      rfl
  | true => rwa [interrupt_of_fired fired]

theorem roll_interrupt (run : Run σ α) : run.interrupt.roll = run.roll := by
  rw [interrupt_frame]
  rfl

theorem Orderly.interrupt (orderly : run.Orderly) : run.interrupt.Orderly := by
  cases fired : run.cancellation.hasFired with
  | false =>
      rw [interrupt_of_unfired fired]
      exact orderly.roused (.refl _) rfl rfl rfl (Bool.or_true _)
  | true => rwa [interrupt_of_fired fired]

theorem Lively.interrupt (lively : run.Lively) : run.interrupt.Lively := by
  rw [interrupt_frame]
  exact lively

end Run

namespace Call

variable {call : Call σ α} {start run last : Run σ α}

/-- A caller who interrupts is still to be heard, which may cost a move and a change of the
phase. -/
theorem effort_interrupt (call : Call σ α) (run : Run σ α) :
    call.effort run.interrupt ≤ call.effort run + 3 := by
  cases fired : run.cancellation.hasFired with
  | true =>
      rw [Run.interrupt_of_fired fired]
      omega
  | false =>
      rw [Run.interrupt_of_unfired fired]
      have caller : Run.callerEffort
          { run with cancellation := .fired, ready := run.ready ++ run.waiting } ≤ 1 := by
        simp only [Run.callerEffort]
        split <;> omega
      have phase := Run.phaseEffort_le
        { run with cancellation := .fired, ready := run.ready ++ run.waiting }
      simp only [effort, Run.flightEffort, List.length_append]
      omega

theorem Reaches.lively (reaches : call.Reaches start run) (lively : start.Lively) : run.Lively :=
  reaches.keeps (fun held move => move.lively held) lively

/-- No state that a call gets to costs more than the one before. -/
theorem Reaches.effort_le (reaches : call.Reaches start run) (orderly : start.Orderly)
    (lively : start.Lively) : call.effort run ≤ call.effort start := by
  induction reaches with
  | refl => exact Nat.le_refl _
  | @tail middle next earlier step ih =>
      have less := (step_eq_some_iff.mp step).effort_lt (Reaches.orderly earlier orderly)
        (Reaches.lively earlier lively)
      omega

/-- A call that is interrupted comes to its end within the bound on its moves. -/
theorem step_finalUnder_amid (call : Call σ α) (moves : Nat) {strays : List ShardId}
    {targets : List Shard} (apart : (strays ++ targets.map Shard.id).Nodup) (moment : Moment σ) :
    call.step (call.finalUnder (.amid moves) strays targets moment) = none := by
  have orderly := orderly_begin call apart moment
  have lively : (call.begin strays targets moment).Lively := Run.lively_of_collecting rfl
  have reached := call.reaches_advance moves (call.begin strays targets moment)
  have room := call.effort_begin strays targets moment
  have begun := reached.effort_le orderly lively
  have cost := call.effort_interrupt (call.advance moves (call.begin strays targets moment))
  apply step_advance (reached.orderly orderly).interrupt (reached.lively lively).interrupt
  omega

end Call

namespace Executor

variable {executor : Executor} {options : ScatterOptions} {targets : Targets}
  {operation : Shard → Operation σ α} {moment : Moment σ}

/-- The state of a call when it has made so many moves. -/
def midway (executor : Executor) (options : ScatterOptions) (targets : Targets)
    (operation : Shard → Operation σ α) (moves : Nat) (moment : Moment σ) : Run σ α :=
  Call.advance ⟨operation, options⟩ moves (executor.start options targets operation moment)

theorem reaches_midway (executor : Executor) (options : ScatterOptions) (targets : Targets)
    (operation : Shard → Operation σ α) (moves : Nat) (moment : Moment σ) :
    Call.Reaches ⟨operation, options⟩ (executor.start options targets operation moment)
      (executor.midway options targets operation moves moment) :=
  Call.reaches_advance _ _ _

/-- A call that is left to itself midway comes to its end from there. -/
theorem scatterWith_midway_ends (executor : Executor) (moves : Nat) (options : ScatterOptions)
    (targets : Targets) (operation : Shard → Operation σ α) (moment : Moment σ) :
    ∃ last, Call.Ends ⟨operation, options⟩
        (executor.midway options targets operation moves moment) last ∧
      executor.scatterWith options targets operation moment =
        (last.outcome, last.after moment) := by
  obtain ⟨last, ends, whole⟩ := executor.scatterWith_ends options targets operation moment
  have onward := ends.of_reaches (executor.reaches_midway options targets operation moves moment)
  exact ⟨last, ⟨onward, ends.2⟩, whole⟩

/-- A call that is interrupted midway comes to its end from there, and brings back what it has
then. -/
theorem scatterUnder_amid_ends (executor : Executor) (moves : Nat) (options : ScatterOptions)
    (targets : Targets) (operation : Shard → Operation σ α) (moment : Moment σ) :
    ∃ last, Call.Ends ⟨operation, options⟩
        (executor.midway options targets operation moves moment).interrupt last ∧
      executor.scatterUnder (.amid moves) options targets operation moment =
        (last.outcome, last.after moment) := by
  let last := Call.finalUnder ⟨operation, options⟩ (.amid moves)
    (targets.strays executor.topology) (targets.known executor.topology) moment
  have halts := Call.step_finalUnder_amid ⟨operation, options⟩ moves
    (targets.split_nodup executor.topology) moment
  have brought : executor.scatterUnder (.amid moves) options targets operation moment =
      (last.outcome, last.after moment) := by
    unfold last scatterUnder Targets.strays Targets.known
    rfl
  exact ⟨last, ⟨Call.reaches_advance _ _ _, halts⟩, brought⟩

/-- Once the caller has cancelled, an interruption changes nothing. -/
theorem scatterUnder_amid_of_fired {moves : Nat}
    (fired :
      (executor.midway options targets operation moves moment).cancellation.hasFired = true) :
    executor.scatterUnder (.amid moves) options targets operation moment =
      executor.scatterWith options targets operation moment := by
  obtain ⟨last, ends, whole⟩ :=
    executor.scatterUnder_amid_ends moves options targets operation moment
  obtain ⟨alone, onward, wholeAlone⟩ :=
    executor.scatterWith_midway_ends moves options targets operation moment
  rw [Run.interrupt_of_fired fired] at ends
  rw [whole, wholeAlone, onward.unique ends]

/-- Whenever a call is interrupted, it accounts for its targets. -/
theorem scatterUnder_roll (executor : Executor) (interruption : Interruption)
    (options : ScatterOptions) (targets : Targets) (operation : Shard → Operation σ α)
    (moment : Moment σ) :
    (executor.scatterUnder interruption options targets operation moment).1.roll.Perm
      (targets.ids executor.topology) := by
  cases interruption with
  | never => exact executor.scatterWith_roll options targets operation moment
  | before => exact executor.scatterWith_roll options targets operation _
  | amid moves =>
      obtain ⟨last, ends, whole⟩ :=
        executor.scatterUnder_amid_ends moves options targets operation moment
      have orderly := executor.start_orderly options targets operation moment
      have reached := executor.reaches_midway options targets operation moves moment
      have kept := ends.1.roll_perm (reached.orderly orderly).interrupt
      rw [Run.roll_interrupt, ← Call.roll_of_over ends.2] at kept
      have begun := reached.roll_perm orderly
      rw [executor.start_roll] at begun
      rw [whole]
      exact kept.trans (begun.trans (targets.split_perm executor.topology))

end Executor

end ShardFleet
