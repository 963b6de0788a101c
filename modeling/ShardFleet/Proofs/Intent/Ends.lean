import ShardFleet.Proofs.Intent.Costs
import ShardFleet.Proofs.Intent.Runs
import ShardFleet.Proofs.Intent.Waits

/-!
Runs come to an end.

A schedule owes what its strands may still cost, and what its queue, its timers, its requests for
another turn and its batch are worth (`Schedule.Owes`). Every step takes at least 61 off that
(`Schedule.Owes.step`). A body owes 183 for each of its actions at first, and a place in the queue;
so it ends within the steps that it is given (`Flow.run_ends`).
-/

namespace ShardFleet

namespace Schedule

variable {schedule later : Schedule}

/-- What is worth something apart from the strands. -/
def due (schedule : Schedule) : Nat :=
  schedule.load + 123 * schedule.deferred.toFinset.card + schedule.turns

/-- A schedule owes no more than this. -/
def Owes (schedule : Schedule) (amount : Nat) : Prop :=
  ∃ cost bill, schedule.main.Costs cost ∧ schedule.Billed bill ∧
    cost + bill.sum + schedule.due ≤ amount

/-- A place in the queue is worth 62. -/
theorem due_of_ssubset (queue : later.queue ⊂ schedule.queue)
    (timers : later.timers = schedule.timers) (deferred : later.deferred = schedule.deferred) :
    later.due + schedule.turns + 62 ≤ schedule.due + later.turns := by
  have less := Finset.card_lt_card queue
  rw [due, load, due, load, timers, deferred]
  omega

/-- Each one that is roused may need a place in the queue. -/
theorem due_foldl_rouse_le (tasks : List (Option Nat)) (schedule : Schedule) :
    (tasks.foldl rouse schedule).due ≤ schedule.due + 62 * tasks.toFinset.card := by
  have queue := (Finset.card_le_card (queue_foldl_rouse_subset tasks schedule)).trans
    (Finset.card_union_le ..)
  obtain ⟨mainReady, ready, same⟩ := foldl_rouse_eq tasks schedule
  rw [due, load, due, load]
  rw [same] at queue ⊢
  dsimp only
  omega

/-- At most one who did not ask before asks for another turn. -/
theorem Queues.card_deferred_le {task : Option Nat} (queues : Queues task schedule later) :
    later.deferred.toFinset.card ≤ schedule.deferred.toFinset.card + 1 := by
  have asked : later.deferred.toFinset ⊆ insert task schedule.deferred.toFinset := by
    intro other mem
    rw [Finset.mem_insert, List.mem_toFinset]
    exact (queues.asked other (List.mem_toFinset.mp mem)).symm
  exact (Finset.card_le_card asked).trans (Finset.card_insert_le ..)

/-- A strand has had its turn, and is put on the bill again. -/
theorem Billed.settle {bill : List Nat} (billed : schedule.Billed bill) {number charge : Nat}
    {strand : Strand} (old : number < schedule.tasks.length) (task : SpawnedTask)
    (bills : strand.Bills charge) :
    (schedule.settle number task strand).Billed (bill.set number charge) where
  length := by rw [List.length_set, billed.length, Schedule.settle, List.length_set]
  tasks other strand' charge' found known := by
    by_cases self : other = number
    · subst self
      rw [strand?_settle old] at found
      rw [List.getElem?_set_self (billed.length ▸ old)] at known
      obtain rfl := Option.some.inj found
      obtain rfl := Option.some.inj known
      exact bills
    · rw [strand?_settle_ne (by simpa using self)] at found
      rw [List.getElem?_set_ne (Ne.symm self)] at known
      exact billed.tasks other strand' charge' found known

end Schedule

/-- A turn pays for all that it leaves, and also for another turn that is asked for: the waits
that have ended by then pay for that. -/
theorem Strand.Goes.due_le {task : Option Nat} {strand strand' : Strand} {schedule later : Schedule}
    (goes : Goes task strand schedule strand' later)
    (full : schedule.allowance = Fairness.allowance) {cost : Nat} {bill : List Nat}
    (costs : strand.Costs cost) (billed : schedule.Billed bill) :
    ∃ cost' more, strand'.Costs cost' ∧ later.Billed (bill ++ more) ∧
      cost' + more.sum + later.due ≤ cost + schedule.due := by
  obtain ⟨cost', more, costs', billed', paid⟩ := goes.pays cost bill costs billed
  refine ⟨cost', more, costs', billed', ?_⟩
  rw [Schedule.due, Schedule.due, goes.onward.turns]
  have allowed := goes.queues.allowance
  rcases goes.queues.spent with same | spent
  · rw [same]
    omega
  · -- The allowance is used up: 128 waits have ended, and a request is worth 123.
    have asked := goes.queues.card_deferred_le
    rw [full, Fairness.allowance] at paid
    omega

namespace Schedule

/-- An entry of a bill is replaced. -/
theorem sum_set_add (bill : List Nat) {number old : Nat} (known : bill[number]? = some old)
    (new : Nat) : (bill.set number new).sum + old = bill.sum + new := by
  induction bill generalizing number with
  | nil => cases known
  | cons first rest ih =>
      cases number with
      | zero =>
          obtain rfl := Option.some.inj known
          rw [List.set_cons_zero, List.sum_cons, List.sum_cons]
          omega
      | succ number =>
          have others := ih known
          rw [List.set_cons_succ, List.sum_cons, List.sum_cons]
          omega

namespace Owes

variable {schedule later : Schedule} {amount paid : Nat}

theorem mono (owes : schedule.Owes paid) (le : paid ≤ amount) : schedule.Owes amount := by
  obtain ⟨cost, bill, main, billed, fits⟩ := owes
  exact ⟨cost, bill, main, billed, fits.trans le⟩

/-- Where the strands are the same, the difference is what the rest is worth. -/
theorem of_due (owes : schedule.Owes amount) (main : later.main = schedule.main)
    (tasks : later.tasks = schedule.tasks) (due : later.due + amount ≤ schedule.due + paid) :
    later.Owes paid := by
  obtain ⟨cost, bill, costs, billed, fits⟩ := owes
  refine ⟨cost, bill, main ▸ costs, ⟨tasks ▸ billed.length, fun number strand charge => ?_⟩,
    by omega⟩
  rw [strand?_congr main tasks]
  exact billed.tasks number strand charge

theorem less (owes : schedule.Owes amount) (main : later.main = schedule.main)
    (tasks : later.tasks = schedule.tasks) (due : later.due + paid ≤ schedule.due) :
    ∃ rest, later.Owes rest ∧ rest + paid ≤ amount := by
  have covered : schedule.due ≤ amount := by
    obtain ⟨cost, bill, -, -, fits⟩ := owes
    omega
  exact ⟨amount - paid, owes.of_due main tasks (by omega), by omega⟩

theorem rouse (owes : schedule.Owes amount) (tasks : List (Option Nat)) :
    (tasks.foldl Schedule.rouse schedule).Owes (amount + 62 * tasks.toFinset.card) := by
  have due := due_foldl_rouse_le tasks schedule
  obtain ⟨mainReady, ready, same⟩ := foldl_rouse_eq tasks schedule
  refine owes.of_due ?_ ?_ (by omega) <;> rw [same]

/-- The main flow pays for its turn with its place in the queue. -/
theorem mainTurn (owes : schedule.Owes amount) (asked : schedule.mainReady = true) :
    ∃ rest, schedule.mainTurn.Owes rest ∧ rest + 62 ≤ amount := by
  let begun : Schedule := { schedule with mainReady := false, allowance := Fairness.allowance }
  have queue : begun.queue ⊂ schedule.queue := by
    have subset : begun.queue ⊆ schedule.queue :=
      queue_subset (fun _ => asked) (List.Subset.refl _)
    exact (Finset.ssubset_iff_of_subset subset).mpr
      ⟨none, none_mem_queue.mpr asked, mt none_mem_queue.mp Bool.false_ne_true⟩
  have due : begun.due + 62 ≤ schedule.due := by
    have worth := due_of_ssubset queue rfl rfl
    have turns : begun.turns = schedule.turns := rfl
    omega
  obtain ⟨main, after, goes, same⟩ := schedule.mainTurn_eq
  obtain ⟨rest, ⟨cost, bill, costs, billed, fits⟩, less⟩ :=
    owes.less (show begun.main = _ from rfl) rfl due
  obtain ⟨cost', more, costs', billed', paid⟩ := goes.due_le rfl costs billed
  have paid : cost' + more.sum + after.due ≤ cost + begun.due := paid
  refine ⟨rest, ⟨cost', bill ++ more, ?_, ?_, ?_⟩, less⟩
  · rwa [same]
  · rw [same]
    exact ⟨billed'.length, billed'.tasks⟩
  · have worth : schedule.mainTurn.due = after.due := by rw [same]; rfl
    rw [worth, List.sum_append]
    omega

/-- The main flow is attended to at no cost. -/
theorem attend (owes : schedule.Owes amount) : schedule.attend.Owes amount := by
  rw [Schedule.attend]
  split
  · next asked =>
      obtain ⟨rest, owes', less⟩ := owes.mainTurn asked
      exact owes'.mono (by omega)
  · exact owes

/-- A task that has not ended has its turn at no cost. When it ends, its entry on the bill pays
for the place of its parent. -/
theorem taskTurn (owes : schedule.Owes amount) {number : Nat}
    (running : schedule.result? number = none) : (schedule.taskTurn number).Owes amount := by
  cases there : schedule.tasks[number]? with
  | none =>
      rw [Schedule.taskTurn, there]
      exact owes
  | some task =>
      obtain ⟨cost, bill, main, billed, fits⟩ := owes
      obtain ⟨strand, after, goes, same⟩ := taskTurn_eq there
      have found : schedule.strand? (some number) = some task.strand :=
        congrArg (Option.map SpawnedTask.strand) there
      have old := strand?_lt found
      have known : bill[number]? = some _ := List.getElem?_eq_getElem (billed.length ▸ old)
      obtain ⟨rest, costs, charged⟩ := billed.tasks number _ _ found known
      have unended : task.strand.result? = none := by
        rwa [result?_eq, found] at running
      rw [unended, if_neg (by simp)] at charged
      have begins : ({ schedule with allowance := Fairness.allowance } : Schedule).Billed bill :=
        ⟨billed.length, billed.tasks⟩
      obtain ⟨cost', more, costs', billed', paid⟩ := goes.due_le rfl costs begins
      have paid : cost' + more.sum + after.due ≤ rest + schedule.due := paid
      have settled : ∀ charge, strand.Bills charge →
          (after.settle number task strand).Owes
            (cost + ((bill ++ more).set number charge).sum + after.due) := fun charge bills =>
        ⟨cost, _, by rwa [show (after.settle number task strand).main = _ from goes.onward.main],
          billed'.settle (Nat.lt_of_lt_of_le old goes.onward.length_le) task bills, Nat.le_refl _⟩
      have total := sum_set_add (bill ++ more)
        ((List.getElem?_append_left (billed.length ▸ old)).trans known)
      rw [List.sum_append] at total
      rw [same]
      split
      · next done =>
          have ended := (settled cost' ⟨cost', costs', by rw [if_pos done.1]; rfl⟩).rouse
            [task.parent]
          have sum := total cost'
          refine ended.mono ?_
          rw [List.toFinset_cons, List.toFinset_nil, insert_empty_eq, Finset.card_singleton]
          omega
      · have bills : strand.Bills (cost' + 62) := ⟨cost', costs', by split <;> omega⟩
        have sum := total (cost' + 62)
        exact (settled _ bills).mono (by omega)

/-- A recess pays for itself with the turns of a batch, with the main flow's place in the queue, or
with what the requests for another turn are worth beyond a place in the queue. -/
theorem recess (owes : schedule.Owes amount)
    (held : Fairness.batch ≤ schedule.turns ∨ schedule.mainReady = true ∨
      schedule.deferred ≠ []) :
    ∃ rest, schedule.recess.Owes rest ∧ rest + 61 ≤ amount := by
  let begun : Schedule := { schedule with turns := 0, deferred := [] }
  have due : begun.due + (123 * schedule.deferred.toFinset.card + schedule.turns) ≤
      schedule.due := by
    have same : begun.due = schedule.load := rfl
    rw [same, Schedule.due]
    omega
  obtain ⟨rest, owes', less⟩ := owes.less (show begun.main = _ from rfl) rfl due
  have roused := owes'.rouse schedule.deferred
  -- Each request is worth 61 more than the place in the queue that it becomes.
  by_cases saved : 61 ≤ 61 * schedule.deferred.toFinset.card + schedule.turns
  · exact ⟨_, roused.attend, by omega⟩
  · have asked : schedule.mainReady = true := by
      rcases held with full | asked | more
      · rw [Fairness.batch] at full
        omega
      · exact asked
      · have some := Finset.card_pos.mpr ((List.toFinset_nonempty_iff _).mpr more)
        omega
    have still : (schedule.deferred.foldl Schedule.rouse begun).mainReady = true :=
      none_mem_queue.mp (queue_subset_foldl_rouse _ _ (none_mem_queue.mpr asked))
    obtain ⟨last, owes'', less'⟩ := roused.mainTurn still
    refine ⟨last, ?_, by omega⟩
    rwa [Schedule.recess, Schedule.attend, if_pos still]

/-- When the clock moves, what the timers are worth that run out pays for it. -/
theorem moveOn (owes : schedule.Owes amount) (set : schedule.timers ≠ []) :
    ∃ rest, schedule.moveOn.Owes rest ∧ rest + 61 ≤ amount := by
  let ran := schedule.timers.filter (·.wake ≤ schedule.nextInstant)
  let begun : Schedule := { schedule with
    now := schedule.nextInstant
    timers := schedule.timers.filter (schedule.nextInstant < ·.wake)
    turns := 0 }
  have split : schedule.timers.length = ran.length + begun.timers.length := by
    have rest : schedule.timers.filter (fun timer => !decide (timer.wake ≤ schedule.nextInstant)) =
        begun.timers := List.filter_congr fun timer _ => by simp [← decide_not]
    rw [← rest]
    exact List.length_eq_length_filter_add _
  have due : begun.due + 123 * ran.length ≤ schedule.due := by
    have queue : begun.queue = schedule.queue := rfl
    have deferred : begun.deferred = schedule.deferred := rfl
    have turns : begun.turns = 0 := rfl
    rw [Schedule.due, Schedule.due, load, load, queue, deferred, turns]
    omega
  have some : 0 < ran.length := by
    obtain ⟨timer, mem, first⟩ := exists_first set
    exact List.length_pos_of_mem (List.mem_filter.mpr ⟨mem, decide_eq_true (Nat.le_of_eq first)⟩)
  have roused : (ran.map Timer.task).toFinset.card ≤ ran.length :=
    (List.toFinset_card_le _).trans (Nat.le_of_eq (List.length_map _))
  obtain ⟨rest, owes', less⟩ := owes.less (show begun.main = _ from rfl) rfl due
  have moved : schedule.moveOn.Owes (rest + 62 * (ran.map Timer.task).toFinset.card) := by
    rw [moveOn_eq]
    exact (owes'.rouse _).attend
  exact ⟨_, moved, by omega⟩

/-- Every step takes at least 61 off what is owed. -/
theorem step (owes : schedule.Owes amount) (lively : schedule.Lively fun _ => False)
    (running : schedule.main.result? = none) (steps : schedule.Steps later) :
    ∃ rest, later.Owes rest ∧ rest + 61 ≤ amount := by
  cases steps with
  | @turn task others queue more =>
      let begun : Schedule := { schedule with ready := others, turns := schedule.turns + 1 }
      have distinct := queue ▸ lively.distinct
      have mem : task ∈ schedule.ready := queue ▸ List.mem_cons_self ..
      have fewer : begun.queue ⊂ schedule.queue := by
        have subset : begun.queue ⊆ schedule.queue :=
          queue_subset id (queue ▸ List.subset_cons_self ..)
        exact (Finset.ssubset_iff_of_subset subset).mpr
          ⟨task, some_mem_queue.mpr mem, mt some_mem_queue.mp (List.nodup_cons.mp distinct).1⟩
      have due : begun.due + 61 ≤ schedule.due := by
        have worth := due_of_ssubset fewer rfl rfl
        have turns : begun.turns = schedule.turns + 1 := rfl
        omega
      obtain ⟨rest, owes', less⟩ := owes.less (show begun.main = _ from rfl) rfl due
      exact ⟨rest, owes'.taskTurn (lively.running task mem), less⟩
  | batch full => exact owes.recess (.inl full)
  | pause asked => exact owes.recess (.inr asked)
  | clock queue main deferred => exact owes.moveOn (lively.timed queue main deferred running)

/-- The main flow ends before more than what is owed is spent. -/
theorem ends (owes : schedule.Owes amount) (lively : schedule.Lively fun _ => False) {steps : Nat}
    (enough : amount < 61 * steps) :
    ∃ shown, (schedule.advance steps).main.result? = some shown := by
  induction steps generalizing schedule amount with
  | zero => exact absurd enough (Nat.not_lt_zero _)
  | succ steps ih =>
      rw [Schedule.advance]
      cases running : schedule.main.result? with
      | some shown =>
          rw [Schedule.step, running]
          exact ⟨shown, running⟩
      | none =>
          obtain ⟨next, taken, steps⟩ := exists_step running
          obtain ⟨rest, owes', less⟩ := owes.step lively running steps
          rw [taken]
          exact ih owes' (lively.step steps) (by omega)

end Owes

end Schedule

namespace Flow

/-- At the beginning the main flow queues. -/
theorem begun_lively (body : List Flow) : (begun body).Lively fun _ => False where
  grounded owner strand found := by
    cases owner with
    | none => exact Option.some.inj found ▸ trivial
    | some number => cases found
  busy owner strand _ found _ := by
    cases owner with
    | none => exact .inl (Schedule.none_mem_queue.mpr rfl)
    | some number => cases found
  ahead timer mem := nomatch mem
  distinct := List.nodup_nil
  running task mem := nomatch mem

/-- A body owes 183 for each of its actions at first, and its place in the queue. -/
theorem begun_owes (body : List Flow) : (begun body).Owes (183 * sizes body + 62) := by
  refine ⟨_, [], adds_courses body none .ended 0 fun _ => trivial, ⟨rfl, nofun⟩, ?_⟩
  have due : (begun body).due = 62 := rfl
  rw [due]
  exact Nat.le_refl _

/-- Every body ends within the steps that it is given. -/
theorem run_ends (body : List Flow) :
    ∃ shown, ((begun body).advance (stepBound body)).main.result? = some shown := by
  refine (begun_owes body).ends (begun_lively body) ?_
  rw [stepBound]
  omega

/-- A lexical body ends with what is told of it. -/
theorem run_ended {body : List Flow} (lexical : lexicals false body = true) :
    ((begun body).advance (stepBound body)).main.result? = some (tolds none body) := by
  obtain ⟨shown, ended⟩ := run_ends body
  rw [ended, shown_eq lexical ended]

theorem run_shown {body : List Flow} (lexical : lexicals false body = true) :
    (run body).1 = tolds none body := by
  have same : (run body).1 = ((begun body).advance (stepBound body)).main.result?.getD [] := rfl
  rw [same, run_ended lexical]
  rfl

end Flow

end ShardFleet
