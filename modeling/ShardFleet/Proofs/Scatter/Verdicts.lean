import ShardFleet.Proofs.Scatter.Interruptions
import ShardFleet.Proofs.Scatter.LeftOut

/-!
What a call says of itself as a whole.

A call is complete if every target has succeeded, and then its result is all values; otherwise its
result says what stands against it. That the caller has cancelled is a reason of its own in the
result, and none against completeness. The two part company where the caller is noticed to have
cancelled and nothing failed, was called off or was skipped.

As long as something is pending or in flight, a caller who cancels has something left out
(`Call.Ends.incomplete`). So the two part company only if nothing was left to do when the caller
cancelled: the call has no targets and its caller had cancelled before it began, or all its targets
succeed and the caller cancels when the last of them has come to its end but some outcome is still
to be recorded (`Executor.Idle`). They do so then (`Executor.scatterUnder_concludes`).
-/

namespace ShardFleet

variable {σ α : Type}

/-! ### Results and completeness -/

/-- What was gathered from some shards, as one verdict. It is complete if every shard has
succeeded. Its result is all values in the order in which they came in if it is complete and not
`idle`; all failures in their order, if there are any; and that the call was cut short otherwise.
What is complete is idle if the caller was noticed to have cancelled all the same. -/
structure Gathered.Concludes (gathered : Gathered α) (shards : List ShardId) (idle : Prop) :
    Prop where
  complete : gathered.isComplete = true ↔
    ∀ id ∈ shards, ∃ value, (id, value) ∈ gathered.successes
  succeeded : ∀ values, gathered.toResult = .ok values ↔
    (gathered.isComplete = true ∧ ¬ idle) ∧ values = gathered.successes
  failed : gathered.failures ≠ [] →
    gathered.toResult = .error (.partialFailure gathered.successes.length gathered.failures)
  cut : gathered.failures = [] → ¬ (gathered.isComplete = true ∧ ¬ idle) →
    gathered.toResult = .error .cancelled
  idle : idle ↔ gathered.isComplete = true ∧ gathered.callerCancelled = true

namespace Gathered

variable {gathered : Gathered α} {shards : List ShardId} {idle : Prop}

/-- What accounts for some shards once each is complete if all of them have succeeded. -/
theorem isComplete_iff_succeeded (accounts : gathered.roll.Perm shards)
    (apart : shards.Nodup) :
    gathered.isComplete = true ↔ ∀ id ∈ shards, ∃ value, (id, value) ∈ gathered.successes := by
  have once : gathered.roll.Nodup := accounts.nodup_iff.mpr apart
  constructor
  · intro complete id mem
    exact exists_success_of_complete complete (accounts.mem_iff.mpr mem)
  · intro succeeded
    have answered : ∀ id ∈ gathered.roll, ∃ value, ⟨id, .ok value⟩ ∈ gathered.answers := by
      intro id mem
      obtain ⟨value, brought⟩ := succeeded id (accounts.mem_iff.mp mem)
      exact ⟨value, mem_successes.mp brought⟩
    have calm : gathered.failures = [] := by
      apply List.eq_nil_iff_forall_not_mem.mpr
      rintro ⟨id, error⟩ failed
      have answer := mem_failures.mp failed
      have listed : id ∈ gathered.roll := by
        simp only [roll, List.mem_append]
        exact .inl (.inl (List.mem_map_of_mem answer))
      obtain ⟨value, other⟩ := answered id listed
      cases answer_unique once answer other rfl
    have stayed : ∀ id, ¬ gathered.LeavesOut id := by
      intro id leftOut
      have listed : id ∈ gathered.roll := by
        rw [roll, List.append_assoc]
        exact List.mem_append_right _ leftOut
      obtain ⟨value, answer⟩ := answered id listed
      exact shard_ne_of_leftOut once leftOut answer rfl
    apply isComplete_iff.mpr
    simp only [LeavesOut, List.mem_append, not_or, forall_and] at stayed
    exact ⟨calm, List.eq_nil_iff_forall_not_mem.mpr stayed.1,
      List.eq_nil_iff_forall_not_mem.mpr stayed.2⟩

theorem toResult_of_complete (complete : gathered.isComplete = true)
    (unheard : gathered.callerCancelled = false) : gathered.toResult = .ok gathered.successes := by
  obtain ⟨failures, cancelled, skipped⟩ := isComplete_iff.mp complete
  simp [toResult, failures, cancelled, skipped, unheard]

/-- Without a failure, but not complete or cancelled by its caller, a call was cut short. -/
theorem toResult_of_cut (calm : gathered.failures = [])
    (cut : gathered.isComplete = false ∨ gathered.callerCancelled = true) :
    gathered.toResult = .error .cancelled := by
  have stands : (gathered.callerCancelled || !gathered.cancelled.isEmpty ||
      !gathered.skipped.isEmpty) = true := by
    rcases cut with incomplete | heard
    · by_contra nothing
      have complete : gathered.isComplete = true := by
        apply isComplete_iff.mpr
        simp_all
      simp [complete] at incomplete
    · simp [heard]
  rw [toResult, if_neg (by simp [calm]), if_pos stands]

/-- The result and the completeness of what was gathered agree but where it is complete although
the caller has cancelled. -/
theorem concludes_of_heard_iff (accounts : gathered.roll.Perm shards) (apart : shards.Nodup)
    (heard : gathered.isComplete = true ∧ gathered.callerCancelled = true ↔ idle) :
    gathered.Concludes shards idle := by
  have whole : gathered.isComplete = true ∧ ¬ idle ↔
      gathered.isComplete = true ∧ gathered.callerCancelled = false := by
    rw [← heard]
    cases gathered.isComplete <;> simp
  constructor
  case complete => exact isComplete_iff_succeeded accounts apart
  case failed => exact toResult_of_failed
  case idle => exact heard.symm
  case succeeded =>
    intro values
    rw [whole]
    constructor
    · intro result
      by_cases good : gathered.isComplete = true ∧ gathered.callerCancelled = false
      · rw [toResult_of_complete good.1 good.2] at result
        exact ⟨good, (Except.ok.inj result).symm⟩
      · -- Whatever stands against the call is its result.
        by_cases calm : gathered.failures = []
        · rw [toResult_of_cut calm (by simpa [Classical.or_iff_not_imp_left] using good)] at result
          cases result
        · rw [toResult_of_failed calm] at result
          cases result
    · rintro ⟨⟨complete, unheard⟩, rfl⟩
      exact toResult_of_complete complete unheard
  case cut =>
    intro calm against
    rw [whole] at against
    exact toResult_of_cut calm (by simpa [Classical.or_iff_not_imp_left] using against)

end Gathered

/-! ### Nothing left but to record -/

/-- All shards are handed out, and none is in flight any more. -/
structure Run.Spent (run : Run σ α) : Prop where
  pending : run.pending = []
  flights : run.flights = []

/-- What a call has recorded when everything is recorded that came about, whether or not it has
noticed its caller. -/
def Run.settled (run : Run σ α) : Gathered α :=
  run.finished.foldl Gathered.record { run.gathered with callerCancelled := false }

/-- Noticing the caller and recording an outcome may change places. -/
theorem Gathered.record_unheard (gathered : Gathered α) (answer : Answer α) :
    Gathered.record { gathered with callerCancelled := false } answer =
      { gathered.record answer with callerCancelled := false } := by
  unfold record
  split <;> rfl

namespace Call

variable {call : Call σ α} {run next last : Run σ α}

/-- From a state in which nothing is left but to record, the call only records. -/
theorem Move.settled (move : call.Move run next) (spent : run.Spent) :
    next.Spent ∧ next.settled = run.settled := by
  obtain ⟨pending, flights⟩ := spent
  cases move with
  | handOut _ waiting => cases pending.symm.trans waiting
  | notice => exact ⟨⟨pending, flights⟩, rfl⟩
  | @record answer others _ _ _ finished =>
      rw [Run.record_eq]
      constructor
      · exact ⟨pending, flights⟩
      · rw [Run.settled, Run.settled, finished, List.foldl_cons, Gathered.record_unheard]
  | work _ _ flying => exact absurd flights flying
  | turn _ _ turn =>
      rw [Run.countTurn_eq]
      cases turn with
      | absent => exact ⟨⟨pending, flights⟩, rfl⟩
      | givenUp found | ended found | asleep found => simp [flights] at found
  | collect => exact ⟨⟨pending, flights⟩, rfl⟩
  | moveOn _ _ _ flying => exact absurd flights flying

/-- A caller who has cancelled is noticed before the next outcome is recorded. -/
theorem Move.heard_or_finished (move : call.Move run next) (spent : run.Spent)
    (fired : run.cancellation.hasFired = true) :
    next.gathered.callerCancelled = true ∨ next.finished ≠ [] ↔
      run.gathered.callerCancelled = true ∨ run.finished ≠ [] := by
  obtain ⟨pending, flights⟩ := spent
  cases move with
  | handOut _ waiting => cases pending.symm.trans waiting
  | notice _ _ busy =>
      have finished : run.finished ≠ [] := by
        rintro none
        simp [Run.inFlight, flights, none] at busy
      simp [finished]
  | record _ _ seen =>
      rw [Run.record_eq]
      simp [seen fired]
  | work _ _ flying => exact absurd flights flying
  | turn _ _ turn =>
      rw [Run.countTurn_eq]
      cases turn with
      | absent => rfl
      | givenUp found | ended found | asleep found => simp [flights] at found
  | collect => rfl
  | moveOn _ _ _ flying => exact absurd flights flying

theorem Reaches.settled (reaches : call.Reaches run last) (spent : run.Spent) :
    last.Spent ∧ last.settled = run.settled := by
  induction reaches with
  | refl => exact ⟨spent, rfl⟩
  | tail _ step ih =>
      obtain ⟨still, same⟩ := (step_eq_some_iff.mp step).settled ih.1
      exact ⟨still, same.trans ih.2⟩

theorem Reaches.heard_or_finished (reaches : call.Reaches run last) (spent : run.Spent)
    (fired : run.cancellation.hasFired = true) :
    last.gathered.callerCancelled = true ∨ last.finished ≠ [] ↔
      run.gathered.callerCancelled = true ∨ run.finished ≠ [] := by
  induction reaches with
  | refl => rfl
  | tail earlier step ih =>
      have still := (Reaches.settled earlier spent).1
      have heard := Reaches.keeps (fun held move => move.fired held) earlier fired
      exact ((step_eq_some_iff.mp step).heard_or_finished still heard).trans ih

/-- Where nothing is left but to record, a call ends with everything recorded that came about. -/
theorem Ends.outcome_of_spent (ends : call.Ends run last) (spent : run.Spent) :
    last.outcome =
      { run.settled with
        skipped := []
        callerCancelled := last.gathered.callerCancelled } := by
  obtain ⟨still, same⟩ := ends.1.settled spent
  obtain ⟨-, -, finished, -⟩ := step_eq_none_iff.mp ends.2
  rw [← same, Run.settled, finished, Run.outcome, still.pending]
  rfl

/-- Where nothing is left but to record, a caller who has cancelled is noticed if there is anything
to record. -/
theorem Ends.heard_of_spent (ends : call.Ends run last) (spent : run.Spent)
    (fired : run.cancellation.hasFired = true) (unheard : run.gathered.callerCancelled = false) :
    last.gathered.callerCancelled = true ↔ run.finished ≠ [] := by
  have pressed := ends.1.heard_or_finished spent fired
  obtain ⟨-, -, finished, -⟩ := step_eq_none_iff.mp ends.2
  simpa [finished, unheard] using pressed

/-- Interrupted where nothing is left but to record, a call is complete if it would have been
anyway, and notices its caller if there is anything to record. -/
theorem Ends.interrupted_of_spent {alone : Run σ α} (ends : call.Ends run.interrupt last)
    (onward : call.Ends run alone) (spent : run.Spent)
    (unheard : run.gathered.callerCancelled = false) :
    last.outcome.isComplete = alone.outcome.isComplete ∧
      (last.outcome.callerCancelled = true ↔ run.finished ≠ []) := by
  have still : run.interrupt.Spent := by
    rw [Run.interrupt_frame]
    exact ⟨spent.pending, spent.flights⟩
  have settled : run.interrupt.settled = run.settled := by rw [Run.interrupt_frame]; rfl
  have finished : run.interrupt.finished = run.finished := by rw [Run.interrupt_frame]
  have silent : run.interrupt.gathered.callerCancelled = false := by rwa [Run.interrupt_frame]
  constructor
  · rw [ends.outcome_of_spent still, onward.outcome_of_spent spent, settled]
    rfl
  · rw [← finished]
    exact ends.heard_of_spent still run.fired_interrupt silent

end Call

/-! ### Callers who cancel during a call -/

/-- Once the caller has cancelled, something is left out, or will be. -/
def Run.Owing (run : Run σ α) : Prop :=
  run.cancellation.hasFired = true →
    run.flights ≠ [] ∨ run.pending ≠ [] ∨
      (∃ answer ∈ run.finished, answer.result = .error .cancelled) ∨ run.gathered.cancelled ≠ []

namespace Run

/-- What is in flight when the caller has cancelled is called off when its turn comes. -/
theorem Owing.turn {run served : Run σ α} {shard : ShardId} (owing : run.Owing)
    (turn : run.Turn shard served) : served.Owing := by
  cases turn with
  | absent => exact owing
  | givenUp =>
      exact fun _ => .inr (.inr (.inl ⟨_, List.mem_append_right _ List.mem_cons_self, rfl⟩))
  | ended _ wanted | asleep _ wanted =>
      intro fired
      have off : run.calledOff = true := Bool.or_eq_true_iff.mpr (.inr fired)
      simp [off] at wanted

end Run

namespace Call

theorem Move.owing {call : Call σ α} {run next : Run σ α} (move : call.Move run next)
    (owing : run.Owing) : next.Owing := by
  cases move with
  | handOut => exact fun _ => .inl (by simp [Call.handOut])
  | notice => exact owing
  | @record answer others _ _ _ finished =>
      have kept := (run.gathered.extends_record answer).cancelled
      rw [Run.record_eq]
      intro fired
      rcases owing fired with flying | pending | ⟨other, mem, off⟩ | called
      · exact .inl flying
      · exact .inr (.inl pending)
      · rw [finished] at mem
        rcases List.mem_cons.mp mem with rfl | later
        · obtain ⟨shard, _⟩ := other
          subst off
          exact .inr (.inr (.inr (by simp [Gathered.record_cancelled])))
        · exact .inr (.inr (.inl ⟨other, later, off⟩))
      · exact .inr (.inr (.inr fun none => called (List.prefix_nil.mp (none ▸ kept))))
  | work _ _ flying =>
      rw [Run.hearCaller_eq]
      exact fun _ => .inl flying
  | @turn shard others served _ _ turn =>
      have before : Run.Owing { run with ready := others } := owing
      have after := before.turn turn
      rw [Run.countTurn_eq]
      exact after
  | collect => exact owing
  | moveOn _ _ _ flying =>
      rw [Run.hearCaller_eq]
      exact fun _ => .inl flying

/-- A call whose caller cancels while it has something to do is not complete. -/
theorem Ends.incomplete {call : Call σ α} {run last : Run σ α} (ends : call.Ends run last)
    (owing : run.Owing) (fired : last.cancellation.hasFired = true) :
    last.outcome.isComplete = false := by
  have owes : last.Owing := ends.1.keeps (fun held move => move.owing held) owing
  obtain ⟨-, flights, finished, -⟩ := step_eq_none_iff.mp ends.2
  have leftOut : last.pending ≠ [] ∨ last.gathered.cancelled ≠ [] := by
    simpa [flights, finished] using owes fired
  apply Bool.eq_false_iff.mpr
  intro complete
  obtain ⟨-, cancelled, skipped⟩ := Gathered.isComplete_iff.mp complete
  rcases leftOut with pending | called
  · exact pending (List.map_eq_nil_iff.mp skipped)
  · exact called cancelled

end Call

/-- An interrupted call has something left out if it had something to do. -/
theorem Run.owing_interrupt {run : Run σ α} (unspent : ¬ run.Spent) : run.interrupt.Owing := by
  rw [Run.interrupt_frame]
  intro _
  by_cases flights : run.flights = []
  · exact .inr (.inl fun pending => unspent ⟨pending, flights⟩)
  · exact .inl flights

/-! ### The verdict on a call -/

/-- Outcomes are left to record, and nothing else is left to do; the caller has not cancelled. -/
structure Run.Settling (run : Run σ α) : Prop extends run.Spent where
  finished : run.finished ≠ []
  going : run.cancellation.hasFired = false

namespace Executor

variable {executor : Executor} {options : ScatterOptions} {targets : Targets}
  {operation : Shard → Operation σ α} {moment : Moment σ}

/-- Nothing is left to do when the caller of a call cancels. Either the call has no targets and the
caller cancels before it begins; or its targets succeed, left to themselves, and the caller cancels
when all have come to their ends and some outcome is still to be recorded. -/
def Idle (executor : Executor) (interruption : Interruption) (options : ScatterOptions)
    (targets : Targets) (operation : Shard → Operation σ α) (moment : Moment σ) : Prop :=
  match interruption with
  | .never => moment.cancellation.hasFired = true ∧ targets.ids executor.topology = []
  | .before => targets.ids executor.topology = []
  | .amid moves =>
      (moment.cancellation.hasFired = true ∧ targets.ids executor.topology = []) ∨
        (executor.midway options targets operation moves moment).Settling ∧
          (executor.scatterWith options targets operation moment).1.isComplete = true

/-- A caller who cancels at an instant during a call has something left out. -/
theorem incomplete_of_heard (going : moment.cancellation.hasFired = false)
    (heard : (executor.scatterWith options targets operation moment).1.callerCancelled = true) :
    (executor.scatterWith options targets operation moment).1.isComplete = false := by
  obtain ⟨last, ends, whole⟩ := executor.scatterWith_ends options targets operation moment
  rw [whole] at heard ⊢
  have begun : (executor.start options targets operation moment).Owing := by
    intro fired
    simp [start, Call.begin, going] at fired
  apply ends.incomplete begun
  exact ends.1.fired_of_heard (fun begun => begun) heard

/-- A call whose caller had cancelled before ends as it begins. -/
theorem scatterWith_of_fired (fired : moment.cancellation.hasFired = true) :
    (executor.scatterWith options targets operation moment).1 =
      (executor.start options targets operation moment).outcome := by
  obtain ⟨last, ends, whole⟩ := executor.scatterWith_ends options targets operation moment
  have atOnce : Call.step ⟨operation, options⟩ (executor.start options targets operation moment) =
      none :=
    Call.step_eq_none_iff.mpr ⟨rfl, rfl, rfl, by simp [start, Call.begin, fired]⟩
  rw [whole, Call.Ends.unique ⟨.refl, atOnce⟩ ends]

/-- A call is complete although its caller has cancelled only if it had nothing to do when the
caller had cancelled before. -/
theorem complete_and_heard_iff :
    (executor.scatterWith options targets operation moment).1.isComplete = true ∧
        (executor.scatterWith options targets operation moment).1.callerCancelled = true ↔
      moment.cancellation.hasFired = true ∧ targets.ids executor.topology = [] := by
  cases fired : moment.cancellation.hasFired with
  | false =>
      simp only [Bool.false_eq_true, false_and, iff_false, not_and]
      intro complete heard
      rw [incomplete_of_heard fired heard] at complete
      cases complete
  | true =>
      have nothing : (targets.strays executor.topology = [] ∧
          targets.known executor.topology = []) ↔ targets.ids executor.topology = [] := by
        have size := (targets.split_perm executor.topology).length_eq
        rw [← List.length_eq_zero_iff (l := targets.ids executor.topology), ← size]
        simp
      have noted : (executor.start options targets operation moment).outcome.failures = [] ↔
          targets.strays executor.topology = [] := by
        have strays := executor.start_failures options targets operation moment
        rw [show (executor.start options targets operation moment).outcome.failures = _ from strays,
          List.map_eq_nil_iff]
      rw [scatterWith_of_fired fired, Gathered.isComplete_iff, noted]
      simp [Run.outcome, start, Call.begin, fired, nothing]

/-- Whoever has not cancelled midway had not cancelled before, and is not noticed either. -/
theorem unfired_of_midway {moves : Nat}
    (unfired : (executor.midway options targets operation moves moment).cancellation.hasFired =
      false) :
    moment.cancellation.hasFired = false ∧
      (executor.midway options targets operation moves moment).gathered.callerCancelled =
        false := by
  have reached := executor.reaches_midway options targets operation moves moment
  constructor
  · apply Bool.eq_false_iff.mpr
    intro before
    have fired := reached.keeps (fun held move => move.fired held) before
    exact Bool.false_ne_true (unfired.symm.trans fired)
  · apply Bool.eq_false_iff.mpr
    intro heard
    have fired := reached.fired_of_heard (fun begun => begun) heard
    exact Bool.false_ne_true (unfired.symm.trans fired)

/-- An interrupted call is complete although its caller has cancelled only if nothing was left to do
but to record that all targets have succeeded. -/
theorem complete_and_heard_amid (executor : Executor) (moves : Nat) (options : ScatterOptions)
    (targets : Targets) (operation : Shard → Operation σ α) (moment : Moment σ) :
    let gathered := (executor.scatterUnder (.amid moves) options targets operation moment).1
    gathered.isComplete = true ∧ gathered.callerCancelled = true ↔
      executor.Idle (.amid moves) options targets operation moment := by
  intro gathered
  have ran : gathered =
      (executor.scatterUnder (.amid moves) options targets operation moment).1 := rfl
  rw [ran, Idle]
  cases fired :
      (executor.midway options targets operation moves moment).cancellation.hasFired with
  | true =>
      have unsettled : ¬ (executor.midway options targets operation moves moment).Settling :=
        fun settling => Bool.false_ne_true (settling.going.symm.trans fired)
      rw [scatterUnder_amid_of_fired fired, complete_and_heard_iff]
      simp only [unsettled, false_and, or_false]
  | false =>
      obtain ⟨going, unheard⟩ := unfired_of_midway fired
      obtain ⟨last, ends, whole⟩ :=
        executor.scatterUnder_amid_ends moves options targets operation moment
      obtain ⟨alone, onward, wholeAlone⟩ :=
        executor.scatterWith_midway_ends moves options targets operation moment
      rw [whole, wholeAlone]
      simp only [going, Bool.false_eq_true, false_and, false_or]
      by_cases spent : (executor.midway options targets operation moves moment).Spent
      · obtain ⟨complete, heard⟩ := ends.interrupted_of_spent onward spent unheard
        rw [complete, heard, and_comm]
        apply and_congr_left
        intro _
        exact ⟨fun finished => ⟨spent, finished, fired⟩, fun settling => settling.finished⟩
      · have noticed := ends.1.keeps (fun held move => move.fired held) (Run.fired_interrupt _)
        have incomplete := ends.incomplete (Run.owing_interrupt spent) noticed
        have unsettled : ¬ (executor.midway options targets operation moves moment).Settling :=
          fun settling => spent settling.toSpent
        simp [incomplete, unsettled]

/-- The result of a call and its completeness agree, unless the call is idle. -/
theorem scatterUnder_concludes (executor : Executor) (interruption : Interruption)
    (options : ScatterOptions) (targets : Targets) (operation : Shard → Operation σ α)
    (moment : Moment σ) :
    (executor.scatterUnder interruption options targets operation moment).1.Concludes
      (targets.ids executor.topology)
      (executor.Idle interruption options targets operation moment) := by
  apply Gathered.concludes_of_heard_iff
    (executor.scatterUnder_roll interruption options targets operation moment)
    (targets.ids_nodup executor.topology)
  cases interruption with
  | never => exact complete_and_heard_iff
  | before => exact complete_and_heard_iff.trans (and_iff_right rfl)
  | amid moves => exact executor.complete_and_heard_amid moves options targets operation moment

end Executor

end ShardFleet
