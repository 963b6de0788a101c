import ShardFleet.Intent.Schedule

/-!
What a strand does in its turn.

`Strand.Goes` says how a strand goes on as long as it can, with a rule for each thing that it may
come to; every turn is one (`Strand.goes`). What holds of turns is shown by induction on it.
-/

namespace ShardFleet

/-- The one of two that is on a side. -/
def Side.pick {α : Type} (left right : α) : Side → α
  | .left => left
  | .right => right

/-- In the turn of a task, one of its strands goes on from a schedule to another. -/
inductive Strand.Goes (task : Option Nat) : Strand → Schedule → Strand → Schedule → Prop where
  | ended {shown : List Transcript} {schedule : Schedule} :
      Goes task (.ended shown) schedule (.ended shown) schedule
  | settled {shown : List Transcript} {schedule : Schedule} :
      Goes task (.fresh (.ended shown)) schedule (.ended shown) schedule
  | act {update : Contexts → Contexts} {next : Contexts → Course} {schedule later : Schedule}
      {strand : Strand}
      (on : Goes task (.fresh (next schedule.contexts))
        { schedule with contexts := update schedule.contexts } strand later) :
      Goes task (.fresh (.act update next)) schedule strand later
  | sleep {ticks : Nat} {next : Course} {schedule later : Schedule} {strand : Strand}
      (on : Goes task (.asleep (schedule.now + ticks) false next) schedule strand later) :
      Goes task (.fresh (.sleep ticks next)) schedule strand later
  | spawn {body : Course} {next : List Transcript → Course} {schedule later : Schedule}
      {strand : Strand}
      (on : Goes task (.awaiting schedule.tasks.length next) (Schedule.spawn task body schedule).2
        strand later) :
      Goes task (.fresh (.spawn body next)) schedule strand later
  | join {left right : Course} {next : List Transcript → List Transcript → Course}
      {schedule later : Schedule} {strand : Strand}
      (on : Goes task (.paired .left (.fresh left) (.fresh right) next) schedule strand later) :
      Goes task (.fresh (.join left right next)) schedule strand later
  | woken {wake left : Nat} {timed : Bool} {next : Course} {schedule later : Schedule}
      {strand : Strand} (allowed : schedule.allowance = left + 1) (due : wake ≤ schedule.now)
      (on : Goes task (.fresh next) { schedule with allowance := left } strand later) :
      Goes task (.asleep wake timed next) schedule strand later
  | asleep {wake : Nat} {next : Course} {schedule : Schedule} (early : schedule.now < wake) :
      Goes task (.asleep wake true next) schedule (.asleep wake true next) schedule
  | timing {wake : Nat} {next : Course} {schedule : Schedule} (early : schedule.now < wake) :
      Goes task (.asleep wake false next) schedule (.asleep wake true next)
        { schedule with timers := schedule.timers ++ [⟨wake, task⟩] }
  | overslept {wake : Nat} {timed : Bool} {next : Course} {schedule : Schedule}
      (spent : schedule.allowance = 0) :
      Goes task (.asleep wake timed next) schedule (.asleep wake timed next)
        { schedule with deferred := task :: schedule.deferred }
  | answered {child left : Nat} {shown : List Transcript} {next : List Transcript → Course}
      {schedule later : Schedule} {strand : Strand} (allowed : schedule.allowance = left + 1)
      (found : schedule.result? child = some shown)
      (on : Goes task (.fresh (next shown)) { schedule with allowance := left } strand later) :
      Goes task (.awaiting child next) schedule strand later
  | awaiting {child : Nat} {next : List Transcript → Course} {schedule : Schedule}
      (pending : schedule.result? child = none) :
      Goes task (.awaiting child next) schedule (.awaiting child next)
        { schedule with
          tasks := schedule.tasks.modify child fun spawned => { spawned with watched := true } }
  | unanswered {child : Nat} {next : List Transcript → Course} {schedule : Schedule}
      (spent : schedule.allowance = 0) :
      Goes task (.awaiting child next) schedule (.awaiting child next)
        { schedule with deferred := task :: schedule.deferred }
  | met {first : Side} {left right strand : Strand} {one other : List Transcript}
      {next : List Transcript → List Transcript → Course} {schedule between apart later : Schedule}
      (earlier : Goes task (first.pick left right) schedule
        (first.pick (.ended one) (.ended other)) between)
      (second : Goes task (first.other.pick left right) between
        (first.other.pick (.ended one) (.ended other)) apart)
      (on : Goes task (.fresh (next one other)) apart strand later) :
      Goes task (.paired first left right next) schedule strand later
  | paired {first : Side} {left right left' right' : Strand}
      {next : List Transcript → List Transcript → Course} {schedule between later : Schedule}
      (earlier : Goes task (first.pick left right) schedule (first.pick left' right') between)
      (second : Goes task (first.other.pick left right) between
        (first.other.pick left' right') later)
      (apart : left'.result? = none ∨ right'.result? = none) :
      Goes task (.paired first left right next) schedule
        (.paired first.other left' right' next) later

/-! ### Looking at waits -/

namespace Schedule

variable {schedule : Schedule} {task : Option Nat} {left : Nat}

theorem look_spent (spent : schedule.allowance = 0) (isOver : Schedule → Bool) :
    look task isOver schedule =
      (.postponed, { schedule with deferred := task :: schedule.deferred }) := by
  simp [look, spent]

theorem look_allowed (allowed : schedule.allowance = left + 1) (isOver : Schedule → Bool) :
    look task isOver schedule =
      if isOver schedule then (.over, { schedule with allowance := left })
      else (.pending, schedule) := by
  simp [look, allowed]

/-- What comes of a look at the clock. -/
theorem lookAtClock_eq (wake : Nat) (timed : Bool) :
    lookAtClock task wake timed schedule =
      let (wait, later) := look task (fun schedule => wake ≤ schedule.now) schedule
      (wait, if wait = .pending && !timed then
          { later with timers := later.timers ++ [⟨wake, task⟩] } else later) := by
  simp only [lookAtClock, bind, StateT.bind]
  rcases look task (fun schedule => wake ≤ schedule.now) schedule with ⟨_ | _ | _, later⟩ <;>
    cases timed <;> rfl

/-- What comes of a look at a spawned task. -/
theorem lookAtTask_eq (child : Nat) :
    lookAtTask task child schedule =
      match look task (fun schedule => (schedule.result? child).isSome) schedule with
      | (.over, later) => (later.result? child, later)
      | (.pending, later) =>
          (none, { later with
            tasks := later.tasks.modify child fun spawned => { spawned with watched := true } })
      | (.postponed, later) => (none, later) := by
  simp only [lookAtTask, bind, StateT.bind]
  rcases look task (fun schedule => (schedule.result? child).isSome) schedule with
    ⟨_ | _ | _, later⟩ <;> rfl

end Schedule

namespace Strand

/-- A strand goes on as `Strand.go` has it. -/
abbrev Follows (task : Option Nat) (strand : Strand) : Prop :=
  ∀ schedule, Goes task strand schedule (strand.go task schedule).1 (strand.go task schedule).2

variable {task : Option Nat}

theorem follows_asleep {next : Course} (after : Follows task (.fresh next)) (wake : Nat)
    (timed : Bool) : Follows task (.asleep wake timed next) := by
  intro schedule
  have step : go task (.asleep wake timed next) schedule =
      match Schedule.lookAtClock task wake timed schedule with
      | (.over, later) => next.go task later
      | (.pending, later) => (.asleep wake true next, later)
      | (.postponed, later) => (.asleep wake timed next, later) := by
    simp only [go, bind, StateT.bind]
    rcases Schedule.lookAtClock task wake timed schedule with ⟨_ | _ | _, later⟩ <;> rfl
  rw [step, Schedule.lookAtClock_eq]
  cases allowed : schedule.allowance with
  | zero =>
      rw [Schedule.look_spent allowed]
      exact .overslept allowed
  | succ left =>
      rw [Schedule.look_allowed allowed]
      by_cases due : wake ≤ schedule.now
      · rw [if_pos (decide_eq_true due)]
        exact .woken allowed due (after _)
      · rw [if_neg (by simpa using due)]
        cases timed with
        | false => exact .timing (Nat.lt_of_not_le due)
        | true => exact .asleep (Nat.lt_of_not_le due)

theorem follows_awaiting {next : List Transcript → Course}
    (after : ∀ shown, Follows task (.fresh (next shown))) (child : Nat) :
    Follows task (.awaiting child next) := by
  intro schedule
  have step : go task (.awaiting child next) schedule =
      match Schedule.lookAtTask task child schedule with
      | (some shown, later) => (next shown).go task later
      | (none, later) => (.awaiting child next, later) := by
    simp only [go, bind, StateT.bind]
    rcases Schedule.lookAtTask task child schedule with ⟨_ | shown, later⟩ <;> rfl
  rw [step, Schedule.lookAtTask_eq]
  cases allowed : schedule.allowance with
  | zero =>
      rw [Schedule.look_spent allowed]
      exact .unanswered allowed
  | succ left =>
      rw [Schedule.look_allowed allowed]
      cases found : schedule.result? child with
      | none => exact .awaiting found
      | some shown =>
          have same : Schedule.result? { schedule with allowance := left } child = some shown :=
            found
          simp only [Option.isSome_some, if_true, same]
          exact .answered allowed found (after shown _)

theorem follows_paired {left right : Strand} {next : List Transcript → List Transcript → Course}
    (onLeft : Follows task left) (onRight : Follows task right)
    (after : ∀ one other, Follows task (.fresh (next one other))) (first : Side) :
    Follows task (.paired first left right next) := by
  intro schedule
  cases first with
  | left =>
      have earlier := onLeft schedule
      have second := onRight (left.go task schedule).2
      rcases ran : left.go task schedule with ⟨left', between⟩
      rw [ran] at earlier second
      rcases ran' : right.go task between with ⟨right', later⟩
      rw [ran'] at second
      simp only [go, bind, StateT.bind, ran, ran']
      cases left' with
      | ended one =>
          cases right' with
          | ended other => exact .met earlier second (after one other later)
          | fresh | asleep | awaiting | paired => exact .paired earlier second (.inr rfl)
      | fresh | asleep | awaiting | paired => exact .paired earlier second (.inl rfl)
  | right =>
      have earlier := onRight schedule
      have second := onLeft (right.go task schedule).2
      rcases ran : right.go task schedule with ⟨right', between⟩
      rw [ran] at earlier second
      rcases ran' : left.go task between with ⟨left', later⟩
      rw [ran'] at second
      simp only [go, bind, StateT.bind, ran, ran']
      cases left' with
      | ended one =>
          cases right' with
          | ended other => exact .met earlier second (after one other later)
          | fresh | asleep | awaiting | paired => exact .paired earlier second (.inr rfl)
      | fresh | asleep | awaiting | paired => exact .paired earlier second (.inl rfl)

theorem go_spawn (body : Course) (next : List Transcript → Course) (schedule : Schedule) :
    go task (.fresh (.spawn body next)) schedule =
      go task (.awaiting schedule.tasks.length next) (Schedule.spawn task body schedule).2 := by
  have begun : Schedule.spawn task body schedule =
      (schedule.tasks.length, (Schedule.spawn task body schedule).2) := rfl
  simp only [go, Course.go, bind, StateT.bind]
  rw [begun]

theorem go_join (left right : Course) (next : List Transcript → List Transcript → Course)
    (schedule : Schedule) :
    go task (.fresh (.join left right next)) schedule =
      go task (.paired .left (.fresh left) (.fresh right) next) schedule := by
  simp only [go, Course.go, bind, StateT.bind]
  rcases left.go task schedule with ⟨left', between⟩
  rcases right.go task between with ⟨right', later⟩
  cases left' <;> cases right' <;> rfl

/-- A course goes on as `Course.go` has it. -/
theorem follows_fresh (course : Course) : Follows task (.fresh course) := by
  induction course with
  | ended shown => exact fun _ => .settled
  | act update next ih => exact fun schedule => .act (ih _ _)
  | sleep ticks next ih =>
      exact fun schedule => .sleep (follows_asleep ih (schedule.now + ticks) false schedule)
  | spawn body next _ ih =>
      intro schedule
      rw [go_spawn]
      exact .spawn (follows_awaiting ih _ _)
  | join left right next onLeft onRight ih =>
      intro schedule
      rw [go_join]
      exact .join (follows_paired onLeft onRight ih .left schedule)

theorem follows (strand : Strand) : Follows task strand := by
  induction strand with
  | fresh course => exact follows_fresh course
  | ended shown => exact fun _ => .ended
  | asleep wake timed next => exact follows_asleep (follows_fresh next) wake timed
  | awaiting child next => exact follows_awaiting (fun shown => follows_fresh (next shown)) child
  | paired first left right next onLeft onRight =>
      exact follows_paired onLeft onRight (fun one other => follows_fresh (next one other)) first

end Strand

/-! ### What a turn leaves -/

namespace Schedule

/-- The strand of the main flow or of a task. -/
def strand? (schedule : Schedule) : Option Nat → Option Strand
  | none => some schedule.main
  | some task => schedule.tasks[task]?.map SpawnedTask.strand

theorem strand?_congr {schedule later : Schedule} (main : later.main = schedule.main)
    (tasks : later.tasks = schedule.tasks) (task : Option Nat) :
    later.strand? task = schedule.strand? task := by
  cases task with
  | none => exact congrArg some main
  | some task => rw [strand?, strand?, tasks]

/-- To rouse tasks changes who queues, and nothing else. -/
theorem foldl_rouse_eq (tasks : List (Option Nat)) (schedule : Schedule) :
    ∃ mainReady ready, tasks.foldl rouse schedule = { schedule with mainReady, ready } := by
  induction tasks generalizing schedule with
  | nil => exact ⟨schedule.mainReady, schedule.ready, rfl⟩
  | cons task rest ih =>
      obtain ⟨mainReady, ready, same⟩ := ih (schedule.rouse task)
      refine ⟨mainReady, ready, same.trans ?_⟩
      unfold rouse
      split
      · rfl
      · split <;> rfl

theorem rouse_eq (schedule : Schedule) (task : Option Nat) :
    ∃ mainReady ready, schedule.rouse task = { schedule with mainReady, ready } :=
  foldl_rouse_eq [task] schedule

theorem spawn_eq (parent : Option Nat) (body : Course) (schedule : Schedule) :
    ∃ mainReady ready, (Schedule.spawn parent body schedule).2 =
      { schedule with
        tasks := schedule.tasks ++ [{ strand := .fresh body, parent }], mainReady, ready } :=
  rouse_eq _ (some schedule.tasks.length)

@[simp] theorem spawn_tasks (parent : Option Nat) (body : Course) (schedule : Schedule) :
    (Schedule.spawn parent body schedule).2.tasks =
      schedule.tasks ++ [{ strand := .fresh body, parent }] := by
  obtain ⟨_, _, same⟩ := spawn_eq parent body schedule
  rw [same]

@[simp] theorem spawn_contexts (parent : Option Nat) (body : Course) (schedule : Schedule) :
    (Schedule.spawn parent body schedule).2.contexts = schedule.contexts := by
  obtain ⟨_, _, same⟩ := spawn_eq parent body schedule
  rw [same]

@[simp] theorem spawn_allowance (parent : Option Nat) (body : Course) (schedule : Schedule) :
    (Schedule.spawn parent body schedule).2.allowance = schedule.allowance := by
  obtain ⟨_, _, same⟩ := spawn_eq parent body schedule
  rw [same]

@[simp] theorem spawn_timers (parent : Option Nat) (body : Course) (schedule : Schedule) :
    (Schedule.spawn parent body schedule).2.timers = schedule.timers := by
  obtain ⟨_, _, same⟩ := spawn_eq parent body schedule
  rw [same]

@[simp] theorem spawn_deferred (parent : Option Nat) (body : Course) (schedule : Schedule) :
    (Schedule.spawn parent body schedule).2.deferred = schedule.deferred := by
  obtain ⟨_, _, same⟩ := spawn_eq parent body schedule
  rw [same]

theorem result?_eq (schedule : Schedule) (task : Nat) :
    schedule.result? task = (schedule.strand? (some task)).bind Strand.result? := by
  rw [strand?, Option.bind_map]
  rfl

theorem strand?_lt {schedule : Schedule} {task : Nat} {strand : Strand}
    (found : schedule.strand? (some task) = some strand) : task < schedule.tasks.length := by
  obtain ⟨spawned, there, -⟩ := Option.map_eq_some_iff.mp found
  exact (List.getElem?_eq_some_iff.mp there).1

/-- A task that is spawned comes last, and begins with its body. -/
theorem strand?_spawn_or {parent : Option Nat} {body : Course} {schedule : Schedule} {task : Nat}
    {strand : Strand}
    (found : (Schedule.spawn parent body schedule).2.strand? (some task) = some strand) :
    schedule.strand? (some task) = some strand ∨
      task = schedule.tasks.length ∧ strand = .fresh body := by
  rw [strand?, spawn_tasks, List.getElem?_append] at found
  split at found
  · exact .inl found
  · next new =>
      obtain ⟨spawned, there, rfl⟩ := Option.map_eq_some_iff.mp found
      obtain ⟨bound, rfl⟩ := List.getElem?_eq_some_iff.mp there
      have last : task - schedule.tasks.length = 0 := Nat.lt_one_iff.mp bound
      exact .inr ⟨by omega, by simp⟩

/-- In a turn tasks are spawned and watched and timers are set; nothing else is done to others. -/
structure Onward (schedule later : Schedule) : Prop where
  now : later.now = schedule.now
  main : later.main = schedule.main
  mainReady : later.mainReady = schedule.mainReady
  turns : later.turns = schedule.turns
  timers : schedule.timers ⊆ later.timers
  tasks : ∀ (task : Nat) (spawned : SpawnedTask), schedule.tasks[task]? = some spawned →
    ∃ watched : Bool, (spawned.watched = true → watched = true) ∧
      later.tasks[task]? = some { spawned with watched }
  fresh : ∀ (task : Nat) (spawned : SpawnedTask), schedule.tasks.length ≤ task →
    later.tasks[task]? = some spawned → ∃ body, spawned.strand = .fresh body

namespace Onward

variable {schedule later last : Schedule}

/-- Where the same tasks and timers are. -/
theorem of_eq (now : later.now = schedule.now) (main : later.main = schedule.main)
    (mainReady : later.mainReady = schedule.mainReady) (turns : later.turns = schedule.turns)
    (tasks : later.tasks = schedule.tasks) (timers : schedule.timers ⊆ later.timers) :
    Onward schedule later where
  now := now
  main := main
  mainReady := mainReady
  turns := turns
  timers := timers
  tasks task spawned found := ⟨spawned.watched, id, tasks ▸ found⟩
  fresh task spawned new found := by
    rw [tasks, List.getElem?_eq_none new] at found
    cases found

theorem refl (schedule : Schedule) : Onward schedule schedule :=
  .of_eq rfl rfl rfl rfl rfl (List.Subset.refl _)

/-- Old tasks keep their strands. -/
theorem strand?_eq (onward : Onward schedule later) {task : Option Nat} {strand : Strand}
    (found : schedule.strand? task = some strand) : later.strand? task = some strand := by
  cases task with
  | none => exact congrArg some onward.main |>.trans found
  | some task =>
      obtain ⟨spawned, there, rfl⟩ := Option.map_eq_some_iff.mp found
      obtain ⟨watched, -, same⟩ := onward.tasks task spawned there
      rw [strand?, same]
      rfl

/-- The strand of a task is an old one, or the task is new. -/
theorem strand?_or (onward : Onward schedule later) {task : Nat} {strand : Strand}
    (found : later.strand? (some task) = some strand) :
    schedule.strand? (some task) = some strand ∨
      schedule.tasks.length ≤ task ∧ ∃ body, strand = .fresh body := by
  by_cases old : task < schedule.tasks.length
  · have there : schedule.strand? (some task) = some schedule.tasks[task].strand := by
      rw [strand?, List.getElem?_eq_getElem old]
      rfl
    exact .inl (there.trans ((onward.strand?_eq there).symm.trans found))
  · obtain ⟨spawned, there, rfl⟩ := Option.map_eq_some_iff.mp found
    exact .inr ⟨Nat.le_of_not_lt old, onward.fresh task spawned (Nat.le_of_not_lt old) there⟩

theorem length_le (onward : Onward schedule later) :
    schedule.tasks.length ≤ later.tasks.length := by
  refine Nat.le_of_not_lt fun less => ?_
  obtain ⟨_, -, found⟩ := onward.tasks _ _ (List.getElem?_eq_getElem less)
  exact Nat.lt_irrefl _ (List.getElem?_eq_some_iff.mp found).1

theorem trans (first : Onward schedule later) (second : Onward later last) :
    Onward schedule last where
  now := second.now.trans first.now
  main := second.main.trans first.main
  mainReady := second.mainReady.trans first.mainReady
  turns := second.turns.trans first.turns
  timers := List.Subset.trans first.timers second.timers
  tasks task spawned found := by
    obtain ⟨watched, kept, found⟩ := first.tasks task spawned found
    obtain ⟨watched', kept', found⟩ := second.tasks task _ found
    exact ⟨watched', kept' ∘ kept, found⟩
  fresh task spawned new found := by
    by_cases old : task < later.tasks.length
    · obtain ⟨body, same⟩ := first.fresh task _ new (List.getElem?_eq_getElem old)
      obtain ⟨watched, -, kept⟩ := second.tasks task _ (List.getElem?_eq_getElem old)
      obtain rfl := Option.some.inj (found.symm.trans kept)
      exact ⟨body, same⟩
    · exact second.fresh task spawned (Nat.le_of_not_lt old) found

/-- A task that is watched from now on. -/
theorem watch (schedule : Schedule) (child : Nat) :
    Onward schedule
      { schedule with
        tasks := schedule.tasks.modify child fun spawned => { spawned with watched := true } } where
  now := rfl
  main := rfl
  mainReady := rfl
  turns := rfl
  timers := List.Subset.refl _
  tasks task spawned found := by
    rw [List.getElem?_modify, found]
    by_cases same : child = task
    · exact ⟨true, fun _ => rfl, by simp [same]⟩
    · exact ⟨spawned.watched, id, by simp [same]⟩
  fresh task spawned new found := by
    rw [List.getElem?_modify, List.getElem?_eq_none new] at found
    cases found

/-- One more task. -/
theorem spawn (parent : Option Nat) (body : Course) (schedule : Schedule) :
    Onward schedule (Schedule.spawn parent body schedule).2 := by
  unfold Schedule.spawn rouse
  dsimp only
  split
  all_goals
    refine ⟨rfl, rfl, rfl, rfl, List.Subset.refl _, fun task spawned found => ?_, ?_⟩
    · have old : task < schedule.tasks.length := (List.getElem?_eq_some_iff.mp found).1
      exact ⟨spawned.watched, id, (List.getElem?_append_left old).trans found⟩
    · intro task spawned new found
      rw [List.getElem?_append_right new] at found
      exact ⟨body, congrArg _ (List.mem_singleton.mp (List.mem_of_getElem? found))⟩

end Onward

end Schedule

namespace Strand.Goes

variable {task : Option Nat} {strand strand' : Strand} {schedule later : Schedule}

theorem onward (goes : Goes task strand schedule strand' later) : schedule.Onward later := by
  have same : ∀ schedule : Schedule, schedule.timers ⊆ schedule.timers := fun schedule =>
    List.Subset.refl schedule.timers
  induction goes with
  | ended | settled | asleep => exact .refl _
  | sleep on ih | join on ih => exact ih
  | act on ih =>
      refine .trans ?_ ih
      exact .of_eq rfl rfl rfl rfl rfl (same _)
  | woken allowed due on ih | answered allowed found on ih =>
      refine .trans ?_ ih
      exact .of_eq rfl rfl rfl rfl rfl (same _)
  | spawn on ih => exact (Schedule.Onward.spawn ..).trans ih
  | timing early => exact .of_eq rfl rfl rfl rfl rfl (List.subset_append_left ..)
  | overslept spent | unanswered spent => exact .of_eq rfl rfl rfl rfl rfl (same _)
  | awaiting pending => exact .watch ..
  | met earlier second on onEarlier onSecond ih => exact (onEarlier.trans onSecond).trans ih
  | paired earlier second apart onEarlier onSecond => exact onEarlier.trans onSecond

end Strand.Goes

/-! ### Turns of a schedule -/

namespace Schedule

variable {schedule : Schedule} {number : Nat} {task : SpawnedTask} {strand : Strand}

/-- A task is put back in its place. -/
def settle (schedule : Schedule) (number : Nat) (task : SpawnedTask) (strand : Strand) : Schedule :=
  { schedule with tasks := schedule.tasks.set number { task with strand } }

theorem strand?_settle (there : number < schedule.tasks.length) :
    (schedule.settle number task strand).strand? (some number) = some strand := by
  rw [strand?, settle, List.getElem?_set_self there]
  rfl

theorem strand?_settle_ne {other : Option Nat} (different : other ≠ some number) :
    (schedule.settle number task strand).strand? other = schedule.strand? other := by
  cases other with
  | none => rfl
  | some other =>
      have apart : number ≠ other := fun same => different (congrArg some same.symm)
      rw [strand?, strand?, settle, List.getElem?_set_ne apart]

/-- The turn of the main flow. -/
theorem mainTurn_eq (schedule : Schedule) :
    ∃ main later, Strand.Goes none schedule.main
        { schedule with mainReady := false, allowance := Fairness.allowance } main later ∧
      schedule.mainTurn = { later with main } :=
  ⟨_, _, Strand.follows schedule.main _, rfl⟩

/-- The turn of a task. -/
theorem taskTurn_eq (there : schedule.tasks[number]? = some task) :
    ∃ strand later, Strand.Goes (some number) task.strand
        { schedule with allowance := Fairness.allowance } strand later ∧
      schedule.taskTurn number =
        if strand.result?.isSome ∧ task.watched then
          (later.settle number task strand).rouse task.parent
        else later.settle number task strand := by
  refine ⟨_, _, Strand.follows task.strand _, ?_⟩
  rw [taskTurn, there]
  dsimp only
  rw [giveTurn]
  rcases task.strand.go (some number) { schedule with allowance := Fairness.allowance }
    with ⟨strand, later⟩
  dsimp only
  cases strand.result? with
  | none => exact (if_neg fun ended => Bool.noConfusion ended.1).symm
  | some shown =>
      by_cases watched : task.watched = true
      · rw [if_pos watched, if_pos ⟨rfl, watched⟩]
        rfl
      · rw [if_neg watched, if_neg fun both => watched both.2]
        rfl

/-- The instant to which the clock moves. -/
def nextInstant (schedule : Schedule) : Nat :=
  (schedule.timers.map Timer.wake).min?.getD schedule.now

/-- When the clock moves the timers run out that are due. -/
theorem moveOn_eq (schedule : Schedule) :
    schedule.moveOn =
      (((schedule.timers.filter (·.wake ≤ schedule.nextInstant)).map Timer.task).foldl rouse
        { schedule with
          now := schedule.nextInstant
          timers := schedule.timers.filter (schedule.nextInstant < ·.wake)
          turns := 0 }).attend := by
  have rest : (not ∘ fun timer : Timer => decide (timer.wake ≤ schedule.nextInstant)) =
      fun timer => decide (schedule.nextInstant < timer.wake) := by
    funext timer
    rw [Function.comp_apply, ← decide_not, decide_eq_decide]
    exact Nat.not_le
  rw [moveOn, List.partition_eq_filter_filter, ← rest]
  rfl

/-- What a step does. -/
inductive Steps (schedule : Schedule) : Schedule → Prop where
  | turn {task : Nat} {others : List Nat} (queue : schedule.ready = task :: others)
      (more : schedule.turns < Fairness.batch) :
      Steps schedule
        ({ schedule with ready := others, turns := schedule.turns + 1 }.taskTurn task)
  | batch (full : Fairness.batch ≤ schedule.turns) : Steps schedule schedule.recess
  | pause (asked : schedule.mainReady = true ∨ schedule.deferred ≠ []) :
      Steps schedule schedule.recess
  | clock (queue : schedule.ready = []) (main : schedule.mainReady = false)
      (deferred : schedule.deferred = []) : Steps schedule schedule.moveOn

/-- As long as the main flow has not ended there is a step. -/
theorem exists_step (running : schedule.main.result? = none) :
    ∃ later, schedule.step = some later ∧ Steps schedule later := by
  rw [step, running]
  dsimp only
  cases queue : schedule.ready with
  | cons task others =>
      by_cases more : schedule.turns < Fairness.batch
      · exact ⟨_, if_pos more, .turn queue more⟩
      · exact ⟨_, if_neg more, .batch (Nat.le_of_not_lt more)⟩
  | nil =>
      by_cases asked : schedule.mainReady = true ∨ schedule.deferred ≠ []
      · exact ⟨_, if_pos (by simpa using asked), .pause asked⟩
      · have idle := not_or.mp asked
        exact ⟨_, if_neg (by simpa using asked), .clock queue (by simpa using idle.1)
          (by simpa using idle.2)⟩

end Schedule

end ShardFleet
