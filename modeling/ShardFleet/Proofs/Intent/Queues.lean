import Mathlib.Data.Finset.Card
import ShardFleet.Proofs.Intent.Turns

/-!
Who queues for turns.

To rouse tasks lets them queue, and nobody else (`Schedule.queue_foldl_rouse_subset`). In a turn of
a task, those that it spawns begin to queue, and it may itself ask for another turn when it has
used up its allowance (`Schedule.Queues`, `Strand.Goes.queues`).
-/

namespace ShardFleet

namespace Schedule

variable {schedule later : Schedule}

/-- Who queues for a turn. -/
def queue (schedule : Schedule) : Finset (Option Nat) :=
  (schedule.ready.map some).toFinset ∪ if schedule.mainReady then {none} else ∅

@[simp] theorem none_mem_queue : none ∈ schedule.queue ↔ schedule.mainReady = true := by
  cases main : schedule.mainReady <;> simp [queue, main]

@[simp] theorem some_mem_queue {task : Nat} :
    some task ∈ schedule.queue ↔ task ∈ schedule.ready := by
  cases main : schedule.mainReady <;> simp [queue, main]

theorem queue_subset (main : schedule.mainReady = true → later.mainReady = true)
    (ready : schedule.ready ⊆ later.ready) : schedule.queue ⊆ later.queue := by
  intro other mem
  cases other with
  | none => exact none_mem_queue.mpr (main (none_mem_queue.mp mem))
  | some task => exact some_mem_queue.mpr (ready (some_mem_queue.mp mem))

/-- Nobody queues but those who queued before and those who are roused. -/
theorem queue_rouse_subset (schedule : Schedule) (task : Option Nat) :
    (schedule.rouse task).queue ⊆ insert task schedule.queue := by
  intro other mem
  rw [Finset.mem_insert]
  cases task with
  | none =>
      cases other with
      | none => exact .inl rfl
      | some other =>
          have there := some_mem_queue.mp mem
          exact .inr (some_mem_queue.mpr there)
  | some task =>
      rw [rouse] at mem
      split at mem
      · exact .inr mem
      · cases other with
        | none =>
            have there := none_mem_queue.mp mem
            exact .inr (none_mem_queue.mpr there)
        | some other =>
            rcases List.mem_append.mp (some_mem_queue.mp mem) with old | new
            · exact .inr (some_mem_queue.mpr old)
            · exact .inl (congrArg some (List.mem_singleton.mp new))

theorem queue_foldl_rouse_subset (tasks : List (Option Nat)) (schedule : Schedule) :
    (tasks.foldl rouse schedule).queue ⊆ schedule.queue ∪ tasks.toFinset := by
  induction tasks generalizing schedule with
  | nil => simp
  | cons task rest ih =>
      intro other mem
      have before := ih (schedule.rouse task) mem
      rw [List.toFinset_cons]
      rcases Finset.mem_union.mp before with queued | roused
      · rcases Finset.mem_insert.mp (queue_rouse_subset schedule task queued) with rfl | old
        · exact Finset.mem_union_right _ (Finset.mem_insert_self ..)
        · exact Finset.mem_union_left _ old
      · exact Finset.mem_union_right _ (Finset.mem_insert_of_mem roused)

/-- Who queued goes on to queue. -/
theorem queue_subset_rouse (schedule : Schedule) (task : Option Nat) :
    schedule.queue ⊆ (schedule.rouse task).queue := by
  cases task with
  | none => exact queue_subset (fun _ => rfl) (List.Subset.refl _)
  | some task =>
      rw [rouse]
      split
      · exact Finset.Subset.refl _
      · exact queue_subset id (List.subset_append_left ..)

theorem queue_subset_foldl_rouse (tasks : List (Option Nat)) (schedule : Schedule) :
    schedule.queue ⊆ (tasks.foldl rouse schedule).queue := by
  induction tasks generalizing schedule with
  | nil => exact Finset.Subset.refl _
  | cons task rest ih => exact (queue_subset_rouse schedule task).trans (ih (schedule.rouse task))

/-- Who is roused queues, unless it has ended. -/
theorem mem_queue_rouse (schedule : Schedule) (task : Option Nat) :
    task ∈ (schedule.rouse task).queue ∨
      ∃ number, task = some number ∧ (schedule.result? number).isSome = true := by
  cases task with
  | none => exact .inl (none_mem_queue.mpr rfl)
  | some task =>
      rw [rouse]
      split
      · next settled =>
          rcases settled with queued | ended
          · exact .inl (some_mem_queue.mpr queued)
          · exact .inr ⟨task, rfl, ended⟩
      · exact .inl (some_mem_queue.mpr (List.mem_append_right _ (List.mem_singleton_self _)))

/-- Nobody queues twice. -/
theorem nodup_rouse (schedule : Schedule) (task : Option Nat) (distinct : schedule.ready.Nodup) :
    (schedule.rouse task).ready.Nodup := by
  cases task with
  | none => exact distinct
  | some task =>
      rw [rouse]
      split
      · exact distinct
      · next settled =>
          refine List.nodup_append.mpr ⟨distinct, List.nodup_singleton _, ?_⟩
          rintro old mem new last rfl
          exact (not_or.mp settled).1 (List.mem_singleton.mp last ▸ mem)

/-- What a turn of a task does to those who queue. -/
structure Queues (task : Option Nat) (schedule later : Schedule) : Prop where
  allowance : later.allowance ≤ schedule.allowance
  queue : schedule.queue ⊆ later.queue
  spawned : ∀ number, schedule.tasks.length ≤ number → number < later.tasks.length →
    some number ∈ later.queue
  others : ∀ other ∈ later.queue, other ∈ schedule.queue ∨
    ∃ number, other = some number ∧ schedule.tasks.length ≤ number
  nodup : schedule.ready.Nodup → later.ready.Nodup
  deferred : schedule.deferred ⊆ later.deferred
  asked : ∀ other ∈ later.deferred, other ∈ schedule.deferred ∨ other = task
  spent : later.deferred = schedule.deferred ∨ later.allowance = 0
  timers : ∀ timer ∈ later.timers, timer ∈ schedule.timers ∨ schedule.now < timer.wake

namespace Queues

variable {last : Schedule} {task : Option Nat}

/-- Where the same tasks queue. -/
theorem of_eq (allowance : later.allowance ≤ schedule.allowance)
    (queue : later.queue = schedule.queue) (ready : later.ready = schedule.ready)
    (tasks : later.tasks.length = schedule.tasks.length)
    (deferred : later.deferred = schedule.deferred)
    (timers : ∀ timer ∈ later.timers, timer ∈ schedule.timers ∨ schedule.now < timer.wake) :
    Queues task schedule later where
  allowance := allowance
  queue := queue ▸ Finset.Subset.refl _
  spawned _ new old := absurd (tasks ▸ old) (Nat.not_lt_of_le new)
  others _ mem := .inl (queue ▸ mem)
  nodup distinct := ready ▸ distinct
  deferred := deferred ▸ List.Subset.refl _
  asked _ mem := .inl (deferred ▸ mem)
  spent := .inl deferred
  timers := timers

/-- A task asks for another turn. -/
theorem defer (spent : schedule.allowance = 0) :
    Queues task schedule { schedule with deferred := task :: schedule.deferred } where
  allowance := Nat.le_refl _
  queue := Finset.Subset.refl _
  spawned _ new old := absurd old (Nat.not_lt_of_le new)
  others _ mem := .inl mem
  nodup := id
  deferred := List.subset_cons_self ..
  asked _ mem := (List.mem_cons.mp mem).symm
  spent := .inr spent
  timers _ mem := .inl mem

/-- Who did not queue does not queue after the turn, unless it is new. -/
theorem not_mem_ready (queues : Queues task schedule later) {number : Nat}
    (idle : number ∉ schedule.ready) (old : number < schedule.tasks.length) :
    number ∉ later.ready := by
  intro mem
  rcases queues.others _ (some_mem_queue.mpr mem) with queued | ⟨other, same, new⟩
  · exact idle (some_mem_queue.mp queued)
  · obtain rfl := Option.some.inj same
    exact Nat.not_lt_of_le new old

theorem trans (first : Queues task schedule later) (onward : schedule.Onward later)
    (second : Queues task later last) : Queues task schedule last where
  allowance := Nat.le_trans second.allowance first.allowance
  queue := first.queue.trans second.queue
  spawned number new old := by
    by_cases earlier : number < later.tasks.length
    · exact second.queue (first.spawned number new earlier)
    · exact second.spawned number (Nat.le_of_not_lt earlier) old
  others other mem := by
    rcases second.others other mem with queued | ⟨number, same, new⟩
    · exact first.others other queued
    · exact .inr ⟨number, same, Nat.le_trans onward.length_le new⟩
  nodup := second.nodup ∘ first.nodup
  deferred := List.Subset.trans first.deferred second.deferred
  asked other mem := by
    rcases second.asked other mem with earlier | same
    · exact first.asked other earlier
    · exact .inr same
  spent := by
    rcases second.spent with same | none
    · rcases first.spent with same' | none
      · exact .inl (same.trans same')
      · exact .inr (Nat.le_zero.mp (none ▸ second.allowance))
    · exact .inr none
  timers timer mem := by
    rcases second.timers timer mem with earlier | ahead
    · exact first.timers timer earlier
    · exact .inr (onward.now ▸ ahead)

/-- A task that is spawned queues. -/
theorem spawn (task : Option Nat) (body : Course) (schedule : Schedule) :
    Queues task schedule (Schedule.spawn task body schedule).2 where
  allowance := Nat.le_of_eq (spawn_allowance ..)
  queue := queue_subset_rouse
    { schedule with tasks := schedule.tasks ++ [{ strand := .fresh body, parent := task }] } _
  spawned number new old := by
    rw [spawn_tasks, List.length_append, List.length_singleton] at old
    obtain rfl : number = schedule.tasks.length := by omega
    rcases mem_queue_rouse
      { schedule with tasks := schedule.tasks ++ [{ strand := .fresh body, parent := task }] }
      (some schedule.tasks.length) with queued | ⟨number, same, ended⟩
    · exact queued
    · obtain rfl := Option.some.inj same
      simp [result?, Strand.result?] at ended
  others other mem := by
    rcases Finset.mem_insert.mp (queue_rouse_subset _ _ mem) with rfl | old
    · exact .inr ⟨_, rfl, Nat.le_refl _⟩
    · exact .inl old
  nodup := nodup_rouse
    { schedule with tasks := schedule.tasks ++ [{ strand := .fresh body, parent := task }] } _
  deferred := by simp
  asked _ mem := .inl (by simpa using mem)
  spent := .inl (spawn_deferred ..)
  timers _ mem := .inl (by simpa using mem)

end Queues

end Schedule

/-- What a strand does to those who queue in its turn. -/
theorem Strand.Goes.queues {task : Option Nat} {strand strand' : Strand}
    {schedule later : Schedule} (goes : Goes task strand schedule strand' later) :
    Schedule.Queues task schedule later := by
  have refl : ∀ {schedule later : Schedule}, later.allowance ≤ schedule.allowance →
      later.queue = schedule.queue → later.ready = schedule.ready →
      later.tasks.length = schedule.tasks.length → later.deferred = schedule.deferred →
      later.timers = schedule.timers → Schedule.Queues task schedule later :=
    fun allowance queue ready tasks deferred timers =>
      .of_eq allowance queue ready tasks deferred fun timer mem => .inl (timers ▸ mem)
  have same : ∀ schedule : Schedule, schedule.timers ⊆ schedule.timers := fun schedule =>
    List.Subset.refl schedule.timers
  induction goes with
  | ended | settled | asleep => exact refl (Nat.le_refl _) rfl rfl rfl rfl rfl
  | act on ih =>
      refine .trans ?_ ?_ ih
      · exact refl (Nat.le_refl _) rfl rfl rfl rfl rfl
      · exact .of_eq rfl rfl rfl rfl rfl (same _)
  | sleep on ih | join on ih => exact ih
  | spawn on ih => exact .trans (.spawn ..) (.spawn ..) ih
  | woken allowed due on ih | answered allowed found on ih =>
      refine .trans ?_ ?_ ih
      · refine refl ?_ rfl rfl rfl rfl rfl
        rw [allowed]
        exact Nat.le_succ _
      · exact .of_eq rfl rfl rfl rfl rfl (same _)
  | timing early =>
      refine .of_eq (Nat.le_refl _) rfl rfl rfl rfl fun timer mem => ?_
      rcases List.mem_append.mp mem with old | new
      · exact .inl old
      · exact .inr (List.mem_singleton.mp new ▸ early)
  | overslept spent | unanswered spent => exact .defer spent
  | awaiting pending =>
      exact refl (Nat.le_refl _) rfl rfl (List.length_modify ..) rfl rfl
  | met earlier second on onEarlier onSecond ih =>
      exact .trans (onEarlier.trans earlier.onward onSecond)
        (earlier.onward.trans second.onward) ih
  | paired earlier second apart onEarlier onSecond =>
      exact onEarlier.trans earlier.onward onSecond

end ShardFleet
