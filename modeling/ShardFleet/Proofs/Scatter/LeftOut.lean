import ShardFleet.Proofs.Scatter.FailFast

/-!
Nobody is left out in silence.

A call may stop for its caller, or for a failure, before every target has answered. That the caller
has cancelled is noticed before the next outcome is recorded, so whoever is called off or skipped is
left out for a reason that stands in what the call brings back (`Executor.told_of_leftOut`),
provided that no operation claims on its own to have been called off. Without such a reason the
call is complete (`Executor.complete_of_untold`).

A call that tolerates failures leaves nobody out but for its caller (`Executor.heard_of_leftOut`),
and nobody is noticed to have cancelled who has not (`Executor.fired_of_heard`).
-/

namespace ShardFleet

variable {σ α : Type}

/-- What was brought back says why the call stopped: something failed, or the caller cancelled. -/
def Gathered.Told (gathered : Gathered α) : Prop :=
  gathered.failures ≠ [] ∨ gathered.callerCancelled = true

/-- A call that has stopped, or has called something off, tells why. -/
structure Run.Tells (run : Run σ α) : Prop where
  halted : run.halted = true → run.gathered.Told
  cancelled : run.gathered.cancelled ≠ [] → run.gathered.Told

/-- A reason that was told once is not taken back. -/
theorem Call.Move.told {call : Call σ α} {run next : Run σ α} (move : call.Move run next)
    (told : run.gathered.Told) : next.gathered.Told := by
  refine told.imp move.extends.failures_ne_nil fun heard => ?_
  rcases move.gathered with same | noticed | ⟨answer, -, recorded⟩
  · rw [same]
    exact heard
  · rw [noticed]
  · rw [recorded, Gathered.record_callerCancelled]
    exact heard

theorem Call.Move.tells {call : Call σ α} {run next : Run σ α} (move : call.Move run next)
    (traced : run.Traced call fun result => result ≠ .error .cancelled) (tells : run.Tells) :
    next.Tells := by
  have kept := move.told
  obtain ⟨halted, cancelled⟩ := tells
  cases move with
  | handOut => exact ⟨halted, cancelled⟩
  | notice => exact ⟨fun _ => .inr rfl, fun _ => .inr rfl⟩
  | @record answer others _ _ seen queue =>
      rw [Run.record_eq] at kept ⊢
      refine ⟨fun stopped => ?_, fun listed => ?_⟩
      · rcases Bool.or_eq_true_iff.mp stopped with earlier | recalls
        · exact kept (halted earlier)
        · simp only [Run.recalls, Bool.and_eq_true] at recalls
          exact .inl (run.gathered.failures_record_of_failure recalls.1.1)
      · obtain ⟨id, mem⟩ := List.exists_mem_of_ne_nil _ listed
        rcases Gathered.mem_cancelled_record mem with earlier | ⟨-, off⟩
        · exact kept (cancelled (List.ne_nil_of_mem earlier))
        · -- What was called off had a cause, and a caller who is the cause has been noticed.
          have given := traced.finished answer (queue ▸ List.mem_cons_self)
          have cause := (given.resolve_left fun own => own off).2
          exact kept (cause.imp_right seen)
  | work =>
      rw [Run.hearCaller_eq]
      exact ⟨halted, cancelled⟩
  | turn _ _ turn =>
      rw [Run.countTurn_eq, turn.frame]
      exact ⟨halted, cancelled⟩
  | collect => exact ⟨halted, cancelled⟩
  | moveOn =>
      rw [Run.hearCaller_eq]
      exact ⟨halted, cancelled⟩

theorem Call.Reaches.tells {call : Call σ α} {start run : Run σ α}
    (reaches : call.Reaches start run)
    (traced : start.Traced call fun result => result ≠ .error .cancelled) (tells : start.Tells) :
    run.Tells := by
  induction reaches with
  | refl => exact tells
  | tail earlier step ih =>
      exact (Call.step_eq_some_iff.mp step).tells (Call.Reaches.traced earlier traced) ih

namespace Executor

variable {executor : Executor} {options : ScatterOptions} {targets : Targets}
  {operation : Shard → Operation σ α} {moment : Moment σ}

/-- A call that begins halted tells why. -/
theorem start_tells : (executor.start options targets operation moment).Tells := by
  refine ⟨fun halted => ?_, fun listed => absurd rfl listed⟩
  rcases Bool.or_eq_true_iff.mp halted with fired | unknown
  · exact .inr fired
  · refine .inl ?_
    rw [start_failures]
    simp only [Bool.and_eq_true] at unknown
    simpa using unknown.2

/-- Whoever is skipped or called off is left out for a reason that is told. -/
theorem told_of_leftOut
    (sincere : ∀ shard ∈ targets.known executor.topology, (operation shard).Sincere)
    (leftOut : (executor.scatterWith options targets operation moment).1.skipped ≠ [] ∨
      (executor.scatterWith options targets operation moment).1.cancelled ≠ []) :
    (executor.scatterWith options targets operation moment).1.Told := by
  obtain ⟨last, ends, whole⟩ := executor.scatterWith_ends options targets operation moment
  have tells := ends.1.tells (traced_of_sincere sincere) start_tells
  rw [whole] at leftOut ⊢
  rcases leftOut with skipped | cancelled
  · exact tells.halted (ends.halted_of_skipped skipped)
  · exact tells.cancelled cancelled

/-- If nothing failed and the caller did not cancel, every target has succeeded. -/
theorem complete_of_untold
    (sincere : ∀ shard ∈ targets.known executor.topology, (operation shard).Sincere)
    (calm : (executor.scatterWith options targets operation moment).1.failures = [])
    (unheard : (executor.scatterWith options targets operation moment).1.callerCancelled = false) :
    (executor.scatterWith options targets operation moment).1.isComplete = true := by
  have untold : ¬ (executor.scatterWith options targets operation moment).1.Told := by
    rintro (failed | heard)
    · exact failed calm
    · exact Bool.false_ne_true (unheard.symm.trans heard)
  have none := mt (told_of_leftOut sincere) untold
  simp only [not_or, not_not] at none
  simp [Gathered.isComplete, calm, none]

end Executor

/-- No answer claims to have been called off. -/
theorem Executor.answer_ne_cancelled {executor : Executor} {options : ScatterOptions}
    {targets : Targets} {operation : Shard → Operation σ α} {moment : Moment σ}
    (sincere : ∀ shard ∈ targets.known executor.topology, (operation shard).Sincere)
    {answer : Answer α}
    (answered : answer ∈ (executor.scatterWith options targets operation moment).1.answers) :
    answer.result ≠ .error .cancelled := by
  obtain ⟨last, ends, whole⟩ := executor.scatterWith_ends options targets operation moment
  rw [whole] at answered
  exact (ends.1.traced (traced_of_sincere sincere)).answers _ answered

/-! ### Callers who are noticed -/

/-- That the caller has cancelled is noticed only when he has. -/
theorem Call.Move.fired_of_heard {call : Call σ α} {run next : Run σ α} (move : call.Move run next)
    (fired : run.gathered.callerCancelled = true → run.cancellation.hasFired = true)
    (heard : next.gathered.callerCancelled = true) : next.cancellation.hasFired = true := by
  by_cases before : run.gathered.callerCancelled = true
  · exact move.fired (fired before)
  · -- Only one kind of move notices.
    cases move with
    | notice _ _ _ cancelled => exact cancelled
    | handOut => exact absurd heard before
    | record =>
        rw [Run.record_eq, Gathered.record_callerCancelled] at heard
        exact absurd heard before
    | work =>
        rw [Run.hearCaller_eq] at heard
        exact absurd heard before
    | turn _ _ turn =>
        rw [Run.countTurn_eq, turn.frame] at heard
        exact absurd heard before
    | collect => exact absurd heard before
    | moveOn =>
        rw [Run.hearCaller_eq] at heard
        exact absurd heard before

theorem Call.Reaches.fired_of_heard {call : Call σ α} {start run : Run σ α}
    (reaches : call.Reaches start run)
    (fired : start.gathered.callerCancelled = true → start.cancellation.hasFired = true) :
    run.gathered.callerCancelled = true → run.cancellation.hasFired = true := by
  induction reaches with
  | refl => exact fired
  | tail _ step ih => exact (Call.step_eq_some_iff.mp step).fired_of_heard ih

/-! ### Calls that tolerate failures -/

/-- A call that has stopped, or has called something off, for nothing but its caller. -/
structure Run.Forbearing (run : Run σ α) : Prop where
  recalled : run.recalled = false
  halted : run.halted = true → run.gathered.callerCancelled = true
  finished : ∀ answer ∈ run.finished, answer.result = .error .cancelled →
    run.cancellation.hasFired = true
  cancelled : run.gathered.cancelled ≠ [] → run.gathered.callerCancelled = true

namespace Run

/-- A turn gives an invocation up for the caller alone. -/
theorem Forbearing.turn {call : Call σ α} {run served : Run σ α} {shard : ShardId}
    (forbearing : run.Forbearing)
    (traced : run.Traced call fun result => result ≠ .error .cancelled)
    (turn : run.Turn shard served) : served.Forbearing := by
  obtain ⟨recalled, halted, finished, cancelled⟩ := forbearing
  cases turn with
  | absent => exact ⟨recalled, halted, finished, cancelled⟩
  | givenUp _ off =>
      have fired : run.cancellation.hasFired = true := by simpa [calledOff, recalled] using off
      exact ⟨recalled, halted, fun _ _ _ => fired, cancelled⟩
  | @ended flight world result found _ proceeds =>
      refine ⟨recalled, halted, fun answer mem off => ?_, cancelled⟩
      rcases List.mem_append.mp mem with earlier | new
      · exact finished answer earlier off
      · have left := (traced.flights _ (List.mem_of_find?_eq_some found)).proceed run.now run.world
        rw [proceeds] at left
        rw [List.mem_singleton.mp new] at off
        exact absurd off left
  | asleep => exact ⟨recalled, halted, finished, cancelled⟩

end Run

theorem Call.Move.forbearing {call : Call σ α} {run next : Run σ α} (move : call.Move run next)
    (tolerant : call.options.tolerance = .bestEffort)
    (traced : run.Traced call fun result => result ≠ .error .cancelled)
    (forbearing : run.Forbearing) : next.Forbearing := by
  have stays := move.fired
  obtain ⟨recalled, halted, finished, cancelled⟩ := forbearing
  have fired := fun answer mem off => stays (finished answer mem off)
  cases move with
  | handOut => exact ⟨recalled, halted, fired, cancelled⟩
  | notice => exact ⟨recalled, fun _ => rfl, fired, fun _ => rfl⟩
  | @record answer others _ _ seen queue =>
      rw [queue] at finished
      have kept : run.recalls call.options.tolerance answer = false := by
        simp [Run.recalls, tolerant]
      rw [Run.record_eq, kept]
      refine ⟨by simp [recalled], fun stopped => ?_, fun other mem => ?_, fun listed => ?_⟩
      · rw [Gathered.record_callerCancelled]
        exact halted (by simpa using stopped)
      · exact finished other (List.mem_cons_of_mem _ mem)
      · rw [Gathered.record_callerCancelled]
        obtain ⟨id, mem⟩ := List.exists_mem_of_ne_nil _ listed
        rcases Gathered.mem_cancelled_record mem with earlier | ⟨-, off⟩
        · exact cancelled (List.ne_nil_of_mem earlier)
        · exact seen (finished answer List.mem_cons_self off)
  | work =>
      rw [Run.hearCaller_eq] at fired ⊢
      exact ⟨recalled, halted, fired, cancelled⟩
  | @turn shard others served _ _ turn =>
      have before : Run.Forbearing { run with ready := others } :=
        ⟨recalled, halted, finished, cancelled⟩
      have beforeTraced : Run.Traced call (fun result => result ≠ .error .cancelled)
          { run with ready := others } := traced.same (fun held => held) rfl rfl rfl rfl rfl rfl
      obtain ⟨recalled, halted, finished, cancelled⟩ := before.turn beforeTraced turn
      rw [Run.countTurn_eq]
      exact ⟨recalled, halted, finished, cancelled⟩
  | collect => exact ⟨recalled, halted, fired, cancelled⟩
  | moveOn =>
      rw [Run.hearCaller_eq] at fired ⊢
      exact ⟨recalled, halted, fired, cancelled⟩

theorem Call.Reaches.forbearing {call : Call σ α} {start run : Run σ α}
    (reaches : call.Reaches start run) (tolerant : call.options.tolerance = .bestEffort)
    (traced : start.Traced call fun result => result ≠ .error .cancelled)
    (forbearing : start.Forbearing) : run.Forbearing := by
  induction reaches with
  | refl => exact forbearing
  | tail earlier step ih =>
      exact (Call.step_eq_some_iff.mp step).forbearing tolerant
        (Call.Reaches.traced earlier traced) ih

namespace Executor

variable {executor : Executor} {options : ScatterOptions} {targets : Targets}
  {operation : Shard → Operation σ α} {moment : Moment σ}

/-- Whoever is noticed to have cancelled has cancelled by the end of the call. -/
theorem fired_of_heard
    (heard : (executor.scatterWith options targets operation moment).1.callerCancelled = true) :
    (executor.scatterWith options targets operation moment).2.cancellation.hasFired = true := by
  obtain ⟨last, ends, whole⟩ := executor.scatterWith_ends options targets operation moment
  rw [whole] at heard ⊢
  exact ends.1.fired_of_heard (fun begun => begun) heard

/-- A call that tolerates failures skips shards, or calls them off, for its caller alone. -/
theorem heard_of_leftOut (tolerant : options.tolerance = .bestEffort)
    (sincere : ∀ shard ∈ targets.known executor.topology, (operation shard).Sincere)
    (leftOut : (executor.scatterWith options targets operation moment).1.skipped ≠ [] ∨
      (executor.scatterWith options targets operation moment).1.cancelled ≠ []) :
    (executor.scatterWith options targets operation moment).1.callerCancelled = true := by
  obtain ⟨last, ends, whole⟩ := executor.scatterWith_ends options targets operation moment
  have begun : (executor.start options targets operation moment).Forbearing := by
    refine ⟨rfl, fun halted => ?_, nofun, fun listed => absurd rfl listed⟩
    simpa [start, Call.begin, tolerant] using halted
  have forbearing := ends.1.forbearing tolerant (traced_of_sincere sincere) begun
  rw [whole] at leftOut ⊢
  rcases leftOut with skipped | cancelled
  · exact forbearing.halted (ends.halted_of_skipped skipped)
  · exact forbearing.cancelled cancelled

end Executor

end ShardFleet
