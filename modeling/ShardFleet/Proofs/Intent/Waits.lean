import ShardFleet.Proofs.Intent.Queues

/-!
Nobody waits for nothing.

A strand that has come as far as it could waits for timers that are set, or for tasks of its own
that have not ended and will have it roused (`Strand.Waits`). So whoever has not ended queues, has
asked for another turn, or waits in this way (`Schedule.Lively`). As a task is spawned after its
parent, the last of those that wait waits for a timer; so there is a timer when nobody has anything
else to do (`Schedule.Lively.timed`).
-/

namespace ShardFleet

/-! ### What strands wait for -/

/-- What a strand of an owner may wait for: timers that are set or have run out, and tasks that
the owner spawned. -/
def Strand.Grounded (schedule : Schedule) (owner : Option Nat) : Strand → Prop
  | .fresh _ | .ended _ => True
  | .asleep wake timed _ => timed = true → schedule.now < wake → ⟨wake, owner⟩ ∈ schedule.timers
  | .awaiting child _ =>
      (∀ number, owner = some number → number < child) ∧
        ∃ spawned, schedule.tasks[child]? = some spawned ∧ spawned.parent = owner
  | .paired _ left right _ => left.Grounded schedule owner ∧ right.Grounded schedule owner

/-- A strand has come as far as it could: timers are set for it, and the tasks that it waits for
have not ended and are watched. -/
def Strand.Waits (schedule : Schedule) (owner : Option Nat) : Strand → Prop
  | .fresh _ => False
  | .ended _ => True
  | .asleep wake _ _ => ⟨wake, owner⟩ ∈ schedule.timers
  | .awaiting child _ =>
      ∃ spawned, schedule.tasks[child]? = some spawned ∧ spawned.watched = true ∧
        spawned.strand.result? = none
  | .paired _ left right _ =>
      left.Waits schedule owner ∧ right.Waits schedule owner ∧
        (left.result? = none ∨ right.result? = none)

namespace Strand

variable {schedule later : Schedule} {owner : Option Nat} {strand strand' : Strand}

/-- What a strand may wait for stays when timers run out only when they are due, and tasks keep
their parents. -/
theorem Grounded.mono (grounded : strand.Grounded schedule owner)
    (now : schedule.now ≤ later.now)
    (timers : ∀ wake, later.now < wake → ⟨wake, owner⟩ ∈ schedule.timers →
      ⟨wake, owner⟩ ∈ later.timers)
    (parents : ∀ (child : Nat) (spawned : SpawnedTask), schedule.tasks[child]? = some spawned →
      ∃ spawned', later.tasks[child]? = some spawned' ∧ spawned'.parent = spawned.parent) :
    strand.Grounded later owner := by
  induction strand with
  | fresh course | ended shown => trivial
  | asleep wake timed next =>
      exact fun set early => timers wake early (grounded set (Nat.lt_of_le_of_lt now early))
  | awaiting child next =>
      obtain ⟨below, spawned, found, parent⟩ := grounded
      obtain ⟨spawned', found', parent'⟩ := parents child spawned found
      exact ⟨below, spawned', found', parent'.trans parent⟩
  | paired first left right next onLeft onRight => exact ⟨onLeft grounded.1, onRight grounded.2⟩

/-- A strand goes on to wait when its timers stay set and the tasks of its owner do not end. -/
theorem Waits.mono (waits : strand.Waits schedule owner)
    (grounded : strand.Grounded schedule owner)
    (timers : ∀ wake, ⟨wake, owner⟩ ∈ schedule.timers → ⟨wake, owner⟩ ∈ later.timers)
    (awaited : ∀ (child : Nat) (spawned : SpawnedTask),
      (∀ number, owner = some number → number < child) → schedule.tasks[child]? = some spawned →
        spawned.parent = owner → spawned.watched = true → spawned.strand.result? = none →
          ∃ spawned', later.tasks[child]? = some spawned' ∧ spawned'.watched = true ∧
            spawned'.strand.result? = none) :
    strand.Waits later owner := by
  induction strand with
  | fresh course => exact waits
  | ended shown => trivial
  | asleep wake timed next => exact timers wake waits
  | awaiting child next =>
      obtain ⟨spawned, found, watched, running⟩ := waits
      obtain ⟨below, _, found', parent⟩ := grounded
      obtain rfl := Option.some.inj (found.symm.trans found')
      exact awaited child spawned below found parent watched running
  | paired first left right next onLeft onRight =>
      exact ⟨onLeft waits.1 grounded.1, onRight waits.2.1 grounded.2, waits.2.2⟩

theorem Grounded.onward (grounded : strand.Grounded schedule owner)
    (onward : schedule.Onward later) : strand.Grounded later owner := by
  refine grounded.mono (Nat.le_of_eq onward.now.symm) (fun _ _ set => onward.timers set) ?_
  intro child spawned found
  obtain ⟨watched, -, there⟩ := onward.tasks child spawned found
  exact ⟨_, there, rfl⟩

/-- A task that is put back in its place keeps its parent. -/
theorem Grounded.settle {number : Nat} {task : SpawnedTask} {watched : Bool}
    (grounded : strand.Grounded schedule owner)
    (there : schedule.tasks[number]? = some { task with watched }) (placed : Strand) :
    strand.Grounded (schedule.settle number task placed) owner := by
  refine grounded.mono (Nat.le_refl _) (fun _ _ set => set) fun child spawned found => ?_
  by_cases self : child = number
  · subst self
    obtain rfl := Option.some.inj (found.symm.trans there)
    exact ⟨_, List.getElem?_set_self (List.getElem?_eq_some_iff.mp there).1, rfl⟩
  · exact ⟨spawned, (List.getElem?_set_ne (Ne.symm self)).trans found, rfl⟩

theorem Waits.onward (waits : strand.Waits schedule owner)
    (grounded : strand.Grounded schedule owner) (onward : schedule.Onward later) :
    strand.Waits later owner := by
  refine waits.mono grounded (fun _ set => onward.timers set) ?_
  intro child spawned _ found _ seen running
  obtain ⟨watched, kept, there⟩ := onward.tasks child spawned found
  exact ⟨_, there, kept seen, running⟩

/-- When a task is put back in its place after its turn, those that wait go on to wait, except for
its parent if it has ended. -/
theorem Waits.settle {number : Nat} {task : SpawnedTask} {placed : Strand}
    (waits : strand.Waits schedule owner) (grounded : strand.Grounded schedule owner)
    (found : schedule.tasks[number]? = some task) (onward : schedule.Onward later)
    (still : ¬ (owner = task.parent ∧ task.watched = true ∧ placed.result?.isSome = true)) :
    strand.Waits (later.settle number task placed) owner := by
  refine waits.mono grounded (fun _ set => onward.timers set) ?_
  intro child spawned _ there parent watched unended
  obtain ⟨watched', kept, same⟩ := onward.tasks child spawned there
  by_cases self : child = number
  · subst self
    obtain rfl := Option.some.inj (found.symm.trans there)
    refine ⟨_, List.getElem?_set_self (List.getElem?_eq_some_iff.mp same).1, watched, ?_⟩
    cases ended : placed.result? with
    | none => rfl
    | some shown => exact absurd ⟨parent.symm, watched, by rw [ended]; rfl⟩ still
  · exact ⟨_, (List.getElem?_set_ne (Ne.symm self)).trans same, kept watched, unended⟩

/-- A strand has come as far as it could, or its owner has asked for another turn. -/
def Rests (schedule : Schedule) (owner : Option Nat) (strand : Strand) : Prop :=
  strand.Grounded schedule owner ∧ (owner ∈ schedule.deferred ∨ strand.Waits schedule owner)

theorem Rests.onward (rests : strand.Rests schedule owner) (onward : schedule.Onward later)
    (deferred : schedule.deferred ⊆ later.deferred) : strand.Rests later owner :=
  ⟨rests.1.onward onward, rests.2.imp (deferred ·) (·.onward rests.1 onward)⟩

theorem Rests.paired {left right : Strand} {first : Side}
    {next : List Transcript → List Transcript → Course} (onLeft : left.Rests schedule owner)
    (onRight : right.Rests schedule owner) (apart : left.result? = none ∨ right.result? = none) :
    (paired first left right next).Rests schedule owner := by
  refine ⟨⟨onLeft.1, onRight.1⟩, ?_⟩
  rcases onLeft.2 with asked | waits
  · exact .inl asked
  · exact onRight.2.imp_right fun waits' => ⟨waits, waits', apart⟩

/-- In its turn a strand comes as far as it can, or its owner asks for another turn. -/
theorem Goes.waits (goes : Goes owner strand schedule strand' later)
    (there : ∀ number, owner = some number → number < schedule.tasks.length)
    (grounded : strand.Grounded schedule owner) : strand'.Rests later owner := by
  induction goes with
  | ended | settled => exact ⟨trivial, .inr trivial⟩
  | act on ih => exact ih there trivial
  | sleep on ih => exact ih there nofun
  | @spawn body next schedule later strand on ih =>
      refine ih (fun number own => ?_) ⟨there, ?_⟩
      · rw [Schedule.spawn_tasks, List.length_append]
        exact Nat.lt_add_right _ (there number own)
      · refine ⟨{ strand := .fresh body, parent := owner }, ?_, rfl⟩
        rw [Schedule.spawn_tasks, List.getElem?_concat_length]
  | join on ih => exact ih there ⟨trivial, trivial⟩
  | woken allowed due on ih => exact ih there trivial
  | asleep early => exact ⟨grounded, .inr (grounded rfl early)⟩
  | timing early =>
      have set : ∀ {timers : List Timer} {timer : Timer}, timer ∈ timers ++ [timer] :=
        List.mem_append_right _ (List.mem_singleton_self _)
      exact ⟨fun _ _ => set, .inr set⟩
  | overslept spent => exact ⟨grounded, .inl (List.mem_cons_self ..)⟩
  | answered allowed found on ih => exact ih there trivial
  | @awaiting child next schedule pending =>
      obtain ⟨below, spawned, found, parent⟩ := grounded
      have running : spawned.strand.result? = none := by
        simpa [Schedule.result?, found] using pending
      have watched : (schedule.tasks.modify child fun spawned => { spawned with watched := true })[
          child]? = some { spawned with watched := true } := by
        rw [List.getElem?_modify_eq, found]
        rfl
      exact ⟨⟨below, _, watched, parent⟩, .inr ⟨_, watched, rfl, running⟩⟩
  | unanswered spent => exact ⟨grounded, .inl (List.mem_cons_self ..)⟩
  | met earlier second on onEarlier onSecond ih =>
      refine ih (fun number own => ?_) trivial
      exact Nat.lt_of_lt_of_le (there number own) (earlier.onward.trans second.onward).length_le
  | @paired first left right left' right' next schedule between later earlier second apart
      onEarlier onSecond =>
      have there' : ∀ number, owner = some number → number < between.tasks.length :=
        fun number own => Nat.lt_of_lt_of_le (there number own) earlier.onward.length_le
      cases first with
      | left =>
          have onLeft := onEarlier there grounded.1
          have onRight := onSecond there' (grounded.2.onward earlier.onward)
          exact .paired (onLeft.onward second.onward second.queues.deferred) onRight apart
      | right =>
          have onRight := onEarlier there grounded.2
          have onLeft := onSecond there' (grounded.1.onward earlier.onward)
          exact .paired onLeft (onRight.onward second.onward second.queues.deferred) apart

/-- A strand that has come as far as it could waits for a timer, or for a task that has not
ended. -/
theorem Waits.timer_or_child (waits : strand.Waits schedule owner)
    (grounded : strand.Grounded schedule owner) (unended : strand.result? = none) :
    schedule.timers ≠ [] ∨ ∃ child strand', (∀ number, owner = some number → number < child) ∧
      schedule.strand? (some child) = some strand' ∧ strand'.result? = none := by
  induction strand with
  | fresh course => exact waits.elim
  | ended shown => cases unended
  | asleep wake timed next => exact .inl (List.ne_nil_of_mem waits)
  | awaiting child next =>
      obtain ⟨spawned, found, -, running⟩ := waits
      refine .inr ⟨child, spawned.strand, grounded.1, ?_, running⟩
      exact congrArg (Option.map SpawnedTask.strand) found
  | paired first left right next onLeft onRight =>
      rcases waits.2.2 with runs | runs
      · exact onLeft waits.1 grounded.1 runs
      · exact onRight waits.2.1 grounded.2 runs

/-- The strand of another is an old one, or has been spawned and queues. -/
theorem Goes.strand?_or (goes : Goes owner strand schedule strand' later) {other : Option Nat}
    {strand'' : Strand} (there : later.strand? other = some strand'') :
    schedule.strand? other = some strand'' ∨
      (∃ body, strand'' = .fresh body) ∧ other ∈ later.queue := by
  cases other with
  | none => exact .inl ((congrArg some goes.onward.main).symm.trans there)
  | some number =>
      refine (goes.onward.strand?_or there).imp_right ?_
      rintro ⟨new, fresh⟩
      exact ⟨fresh, goes.queues.spawned number new (Schedule.strand?_lt there)⟩

end Strand

/-! ### Schedules -/

namespace Schedule

/-- Whoever has not ended queues, has asked for another turn, or waits; except for those that are
absent. -/
structure Lively (absent : Option Nat → Prop) (schedule : Schedule) : Prop where
  grounded : ∀ owner strand, schedule.strand? owner = some strand →
    strand.Grounded schedule owner
  busy : ∀ owner strand, ¬ absent owner → schedule.strand? owner = some strand →
    strand.result? = none →
      owner ∈ schedule.queue ∨ owner ∈ schedule.deferred ∨ strand.Waits schedule owner
  ahead : ∀ timer ∈ schedule.timers, schedule.now < timer.wake
  distinct : schedule.ready.Nodup
  running : ∀ task ∈ schedule.ready, schedule.result? task = none

/-- The clock moves to the instant of a timer, if there is one. -/
theorem exists_first {schedule : Schedule} (set : schedule.timers ≠ []) :
    ∃ timer ∈ schedule.timers, timer.wake = schedule.nextInstant := by
  rw [nextInstant]
  cases least : (schedule.timers.map Timer.wake).min? with
  | none => exact absurd (List.map_eq_nil_iff.mp (List.min?_eq_none_iff.mp least)) set
  | some wake => exact List.mem_map.mp (List.min?_mem least)

/-- The clock does not move back when no timer is overdue. -/
theorem now_le_nextInstant {schedule : Schedule}
    (ahead : ∀ timer ∈ schedule.timers, schedule.now < timer.wake) :
    schedule.now ≤ schedule.nextInstant := by
  by_cases set : schedule.timers = []
  · rw [nextInstant, set]
    exact Nat.le_refl _
  · obtain ⟨timer, mem, first⟩ := exists_first set
    exact first ▸ Nat.le_of_lt (ahead timer mem)

/-- In a turn no task ends before it is put back in its place. -/
theorem Onward.running {schedule later : Schedule} (onward : schedule.Onward later) {task : Nat}
    (running : schedule.result? task = none) : later.result? task = none := by
  rw [Schedule.result?_eq] at running ⊢
  cases found : later.strand? (some task) with
  | none => rfl
  | some strand =>
      rcases onward.strand?_or found with old | ⟨-, body, rfl⟩
      · rwa [old] at running
      · rfl

namespace Lively

variable {schedule later : Schedule} {absent absent' : Option Nat → Prop} {owner : Option Nat}
  {strand strand' : Strand}

/-- Where the same strands wait for the same, it is enough that those who had something to do
still have, and that those who were absent queue. -/
theorem congr (lively : schedule.Lively absent) (now : later.now = schedule.now)
    (main : later.main = schedule.main) (tasks : later.tasks = schedule.tasks)
    (timers : later.timers = schedule.timers)
    (back : ∀ owner, ¬ absent' owner → absent owner → owner ∈ later.queue ∨
      ∃ number, owner = some number ∧ (schedule.result? number).isSome = true)
    (kept : ∀ owner, ¬ absent' owner → owner ∈ schedule.queue ∨ owner ∈ schedule.deferred →
      owner ∈ later.queue ∨ owner ∈ later.deferred)
    (distinct : later.ready.Nodup) (running : ∀ task ∈ later.ready, later.result? task = none) :
    later.Lively absent' := by
  have same : ∀ owner, later.strand? owner = schedule.strand? owner := strand?_congr main tasks
  have grounds : ∀ owner (strand : Strand), schedule.strand? owner = some strand →
      strand.Grounded later owner := fun owner strand found =>
    (lively.grounded owner strand found).mono (Nat.le_of_eq now.symm)
      (fun _ _ set => timers ▸ set) fun child spawned there => ⟨spawned, tasks ▸ there, rfl⟩
  refine ⟨fun owner strand found => grounds owner strand (same owner ▸ found), ?_, ?_, distinct,
    running⟩
  · intro owner strand present found unended
    rw [same] at found
    by_cases gone : absent owner
    · rcases back owner present gone with queued | ⟨number, rfl, ended⟩
      · exact .inl queued
      · rw [result?_eq, found, Option.bind_some, unended] at ended
        cases ended
    · rw [← or_assoc]
      refine (or_assoc.mpr (lively.busy owner strand gone found unended)).imp (kept owner present)
        fun waits => waits.mono (lively.grounded owner strand found) (fun _ set => timers ▸ set) ?_
      exact fun child spawned _ there _ watched unended =>
        ⟨spawned, tasks ▸ there, watched, unended⟩
  · rw [timers, now]
    exact lively.ahead

/-- In the turn of one strand the others go on to wait. -/
theorem goes (lively : schedule.Lively (· = owner)) (found : schedule.strand? owner = some strand)
    (goes : Strand.Goes owner strand schedule strand' later) :
    later.Lively (· = owner) ∧ strand'.Rests later owner := by
  have onward := goes.onward
  have queues := goes.queues
  refine ⟨⟨fun other strand there => ?_, fun other strand different there unended => ?_,
      ?_, ?_, ?_⟩,
    goes.waits (fun number own => strand?_lt (own ▸ found)) (lively.grounded owner strand found)⟩
  · rcases goes.strand?_or there with old | ⟨⟨body, rfl⟩, -⟩
    · exact (lively.grounded other strand old).onward onward
    · trivial
  · rcases goes.strand?_or there with old | ⟨-, queued⟩
    · rcases lively.busy other strand different old unended with queued | asked | waits
      · exact .inl (queues.queue queued)
      · exact .inr (.inl (queues.deferred asked))
      · exact .inr (.inr (waits.onward (lively.grounded other strand old) onward))
    · exact .inl queued
  · intro timer mem
    rw [onward.now]
    exact (queues.timers timer mem).elim (lively.ahead timer) id
  · exact queues.nodup lively.distinct
  · intro task mem
    rcases queues.others _ (some_mem_queue.mpr mem) with old | ⟨number, same, new⟩
    · exact onward.running (lively.running task (some_mem_queue.mp old))
    · obtain rfl := Option.some.inj same
      rw [Schedule.result?_eq]
      cases there : later.strand? (some task) with
      | none => rfl
      | some strand =>
          rcases onward.strand?_or there with old | ⟨-, body, rfl⟩
          · exact absurd (strand?_lt old) (Nat.not_lt_of_le new)
          · rfl

/-- To rouse a task makes it busy. -/
theorem rouse (lively : schedule.Lively absent) (task : Option Nat) :
    (schedule.rouse task).Lively fun owner => absent owner ∧ owner ≠ task := by
  have kept := rouse_eq schedule task
  obtain ⟨mainReady, ready, same⟩ := kept
  have results : ∀ number, (schedule.rouse task).result? number = schedule.result? number :=
    fun number => by rw [same]; rfl
  refine lively.congr (by rw [same]) (by rw [same]) (by rw [same]) (by rw [same]) ?_ ?_
    (nodup_rouse schedule task lively.distinct) fun number mem => ?_
  · intro owner present gone
    obtain rfl : owner = task := by_contra fun different => present ⟨gone, different⟩
    exact mem_queue_rouse schedule owner
  · rintro owner - (queued | asked)
    · exact .inl (queue_subset_rouse schedule task queued)
    · exact .inr (by rwa [same])
  · rw [results]
    cases task with
    | none => exact lively.running number mem
    | some task =>
        rw [Schedule.rouse] at mem
        split at mem
        · exact lively.running number mem
        · next settled =>
            rcases List.mem_append.mp mem with old | new
            · exact lively.running number old
            · rw [List.mem_singleton.mp new]
              simpa using (not_or.mp settled).2

/-- Fewer are absent. -/
theorem present (lively : schedule.Lively absent) (fewer : ∀ owner, absent owner → absent' owner) :
    schedule.Lively absent' :=
  { lively with busy := fun owner strand here => lively.busy owner strand (mt (fewer owner) here) }

/-- To rouse tasks makes them busy. -/
theorem rouseAll (lively : schedule.Lively absent) (tasks : List (Option Nat)) :
    (tasks.foldl Schedule.rouse schedule).Lively fun owner => absent owner ∧ owner ∉ tasks := by
  induction tasks generalizing schedule absent with
  | nil => exact lively.present fun owner gone => ⟨gone, List.not_mem_nil⟩
  | cons task rest ih =>
      refine (ih (lively.rouse task)).present fun owner gone => ?_
      exact ⟨gone.1.1, fun mem => (List.mem_cons.mp mem).elim gone.1.2 gone.2⟩

/-- The main flow is put back in its place after its turn. -/
theorem settleMain (lively : later.Lively (· = none)) (rests : strand'.Rests later none) :
    ({ later with main := strand' } : Schedule).Lively fun _ => False := by
  have holds : ∀ {owner : Option Nat} {strand : Strand}, strand.Grounded later owner →
      strand.Grounded { later with main := strand' } owner := fun grounded =>
    grounded.mono (Nat.le_refl _) (fun _ _ set => set) fun child spawned there =>
      ⟨spawned, there, rfl⟩
  have waits : ∀ {owner : Option Nat} {strand : Strand}, strand.Grounded later owner →
      strand.Waits later owner → strand.Waits { later with main := strand' } owner :=
    fun grounded waits => waits.mono grounded (fun _ set => set)
      fun child spawned _ there _ watched unended => ⟨spawned, there, watched, unended⟩
  refine ⟨fun owner strand found => ?_, fun owner strand _ found unended => ?_, lively.ahead,
    lively.distinct, lively.running⟩
  · cases owner with
    | none => exact Option.some.inj found ▸ holds rests.1
    | some number => exact holds (lively.grounded (some number) strand found)
  · cases owner with
    | none =>
        obtain rfl := Option.some.inj found
        exact .inr (rests.2.imp_right (waits rests.1))
    | some number =>
        rcases lively.busy (some number) strand nofun found unended with queued | asked | still
        · exact .inl queued
        · exact .inr (.inl asked)
        · exact .inr (.inr (waits (lively.grounded (some number) strand found) still))

/-- A task is put back in its place after its turn. If it has ended, its parent may have waited
for that. -/
theorem settle {number : Nat} {task : SpawnedTask} (lively : schedule.Lively (· = some number))
    (found : schedule.tasks[number]? = some task) (idle : number ∉ schedule.ready)
    (goes : Strand.Goes (some number) task.strand schedule strand' later) :
    (later.settle number task strand').Lively fun owner =>
      owner = task.parent ∧ task.watched = true ∧ strand'.result?.isSome = true := by
  have own : schedule.strand? (some number) = some task.strand :=
    congrArg (Option.map SpawnedTask.strand) found
  obtain ⟨after, rests⟩ := lively.goes own goes
  have bound := Nat.lt_of_lt_of_le (strand?_lt own) goes.onward.length_le
  have grounds : ∀ {owner : Option Nat} {strand : Strand}, strand.Grounded later owner →
      strand.Grounded (later.settle number task strand') owner := by
    obtain ⟨watched, -, same⟩ := goes.onward.tasks number task found
    exact fun grounded => grounded.settle same strand'
  refine ⟨fun owner strand there => ?_, fun owner strand present there unended => ?_, after.ahead,
    after.distinct, fun task' mem => ?_⟩
  · by_cases self : owner = some number
    · subst self
      rw [strand?_settle bound] at there
      exact Option.some.inj there ▸ grounds rests.1
    · rw [strand?_settle_ne self] at there
      exact grounds (after.grounded owner strand there)
  · by_cases self : owner = some number
    · -- A task waits for tasks that it spawned, so not for itself.
      subst self
      rw [strand?_settle bound] at there
      obtain rfl := Option.some.inj there
      refine .inr (rests.2.imp_right fun waits => waits.mono rests.1 (fun _ set => set) ?_)
      intro child spawned below there _ watched unended'
      have different : child ≠ number := (Nat.ne_of_lt (below number rfl)).symm
      exact ⟨spawned, (List.getElem?_set_ne different.symm).trans there, watched, unended'⟩
    · rw [strand?_settle_ne self] at there
      rcases goes.strand?_or there with old | ⟨-, queued⟩
      · have grounded := lively.grounded owner strand old
        rcases lively.busy owner strand self old unended with queued | asked | waits
        · exact .inl (goes.queues.queue queued)
        · exact .inr (.inl (goes.queues.deferred asked))
        · exact .inr (.inr (waits.settle grounded found goes.onward present))
      · exact .inl queued
  · have different : task' ≠ number := by
      rintro rfl
      exact goes.queues.not_mem_ready idle (strand?_lt own) mem
    have running := after.running task' mem
    rwa [Schedule.result?_eq, strand?_settle_ne (by simpa using different), ← Schedule.result?_eq]

/-- The main flow has its turn. -/
theorem mainTurn (lively : schedule.Lively fun _ => False) :
    schedule.mainTurn.Lively fun _ => False := by
  obtain ⟨main, after, goes, same⟩ := schedule.mainTurn_eq
  have begins : ({ schedule with mainReady := false, allowance := Fairness.allowance } :
      Schedule).Lively (· = none) := by
    refine lively.congr rfl rfl rfl rfl (fun _ _ => False.elim) ?_ lively.distinct lively.running
    rintro (_ | number) present (queued | asked)
    · exact absurd rfl present
    · exact absurd rfl present
    · have there := some_mem_queue.mp queued
      exact .inl (some_mem_queue.mpr there)
    · exact .inr asked
  have found : ({ schedule with mainReady := false, allowance := Fairness.allowance } :
      Schedule).strand? none = some schedule.main := rfl
  obtain ⟨kept, rests⟩ := begins.goes found goes
  rw [same]
  exact kept.settleMain rests

/-- A task that does not queue has its turn. -/
theorem taskTurn {number : Nat} (lively : schedule.Lively (· = some number))
    (idle : number ∉ schedule.ready) : (schedule.taskTurn number).Lively fun _ => False := by
  cases there : schedule.tasks[number]? with
  | none =>
      rw [Schedule.taskTurn, there]
      refine { lively with busy := fun owner strand _ found unended => ?_ }
      refine lively.busy owner strand ?_ found unended
      rintro rfl
      rw [strand?, there] at found
      cases found
  | some task =>
      obtain ⟨strand, after, goes, same⟩ := taskTurn_eq there
      have begins : ({ schedule with allowance := Fairness.allowance } : Schedule).Lively
          (· = some number) :=
        lively.congr rfl rfl rfl rfl (fun _ present gone => absurd gone present)
          (fun _ _ had => had) lively.distinct lively.running
      have settled := begins.settle there idle goes
      rw [same]
      split
      · exact (settled.rouse task.parent).present fun owner gone => gone.2 gone.1.1
      · next quiet => exact settled.present fun owner gone => quiet ⟨gone.2.2, gone.2.1⟩

theorem attend (lively : schedule.Lively fun _ => False) :
    schedule.attend.Lively fun _ => False := by
  rw [Schedule.attend]
  split
  · exact lively.mainTurn
  · exact lively

/-- In a recess those that have asked for another turn begin to queue. -/
theorem recess (lively : schedule.Lively fun _ => False) :
    schedule.recess.Lively fun _ => False := by
  have begins : ({ schedule with turns := 0, deferred := [] } : Schedule).Lively
      (· ∈ schedule.deferred) := by
    refine lively.congr rfl rfl rfl rfl (fun _ _ => False.elim) ?_ lively.distinct lively.running
    rintro owner present (queued | asked)
    · exact .inl queued
    · exact absurd asked present
  exact ((begins.rouseAll schedule.deferred).present fun owner gone => gone.2 gone.1).attend

/-- When the clock moves those begin to queue whose timers run out. -/
theorem moveOn (lively : schedule.Lively fun _ => False) :
    schedule.moveOn.Lively fun _ => False := by
  let ran := (schedule.timers.filter (·.wake ≤ schedule.nextInstant)).map Timer.task
  let later : Schedule := { schedule with
    now := schedule.nextInstant
    timers := schedule.timers.filter (schedule.nextInstant < ·.wake)
    turns := 0 }
  have stays : ∀ timer ∈ schedule.timers, schedule.nextInstant < timer.wake →
      timer ∈ later.timers := fun timer set early =>
    List.mem_filter.mpr ⟨set, decide_eq_true early⟩
  have begins : later.Lively (· ∈ ran) := by
    refine ⟨fun owner strand found => ?_, fun owner strand present found unended => ?_, ?_,
      lively.distinct, lively.running⟩
    · exact (lively.grounded owner strand found).mono (now_le_nextInstant lively.ahead)
        (fun wake early set => stays _ set early) fun child spawned there => ⟨spawned, there, rfl⟩
    · rcases lively.busy owner strand id found unended with queued | asked | waits
      · exact .inl queued
      · exact .inr (.inl asked)
      · refine .inr (.inr (waits.mono (lively.grounded owner strand found) ?_ ?_))
        · refine fun wake set => stays _ set (Nat.lt_of_not_le fun due => present ?_)
          exact List.mem_map.mpr ⟨_, List.mem_filter.mpr ⟨set, decide_eq_true due⟩, rfl⟩
        · exact fun child spawned _ there _ watched unended => ⟨spawned, there, watched, unended⟩
    · exact fun timer mem => of_decide_eq_true (List.mem_filter.mp mem).2
  rw [moveOn_eq]
  exact ((begins.rouseAll ran).present fun owner gone => gone.2 gone.1).attend

/-- After every step whoever has not ended has something to do, or waits. -/
theorem step (lively : schedule.Lively fun _ => False) (steps : schedule.Steps later) :
    later.Lively fun _ => False := by
  cases steps with
  | @turn task others queue more =>
      have distinct := queue ▸ lively.distinct
      have begins : ({ schedule with ready := others, turns := schedule.turns + 1 } :
          Schedule).Lively (· = some task) := by
        refine lively.congr rfl rfl rfl rfl (fun _ _ => False.elim) ?_
          (List.nodup_cons.mp distinct).2 fun other mem => lively.running other ?_
        · rintro (_ | number) present (queued | asked)
          · have there := none_mem_queue.mp queued
            exact .inl (none_mem_queue.mpr there)
          · exact .inr asked
          · have there := queue ▸ some_mem_queue.mp queued
            refine .inl (some_mem_queue.mpr ((List.mem_cons.mp there).resolve_left ?_))
            exact fun same => present (congrArg some same)
          · exact .inr asked
        · exact queue ▸ List.mem_cons_of_mem _ mem
      exact begins.taskTurn (List.nodup_cons.mp distinct).1
  | batch full => exact lively.recess
  | pause asked => exact lively.recess
  | clock queue main deferred => exact lively.moveOn

/-! ### Somebody's timer -/

/-- When nobody queues or has asked for another turn, the tasks that have not ended wait in the
end for a timer. -/
theorem timed_task (lively : schedule.Lively fun _ => False) (ready : schedule.ready = [])
    (deferred : schedule.deferred = []) (gap : Nat) :
    ∀ number strand, schedule.tasks.length ≤ number + gap →
      schedule.strand? (some number) = some strand → strand.result? = none →
        schedule.timers ≠ [] := by
  -- Whom a task waits for has a higher number, so the induction is on how many there are.
  induction gap with
  | zero => exact fun number strand all found => absurd (strand?_lt found) (Nat.not_lt_of_le all)
  | succ gap ih =>
      intro number strand all found unended
      have grounded := lively.grounded _ strand found
      rcases lively.busy _ strand id found unended with queued | asked | waits
      · rw [some_mem_queue, ready] at queued
        cases queued
      · rw [deferred] at asked
        cases asked
      · rcases waits.timer_or_child grounded unended with set | ⟨child, strand', above, there, runs⟩
        · exact set
        · have higher := above number rfl
          exact ih child strand' (by omega) there runs

/-- When nobody has anything to do and the main flow has not ended, there is a timer. -/
theorem timed (lively : schedule.Lively fun _ => False) (ready : schedule.ready = [])
    (mainReady : schedule.mainReady = false) (deferred : schedule.deferred = [])
    (unended : schedule.main.result? = none) : schedule.timers ≠ [] := by
  have grounded := lively.grounded none schedule.main rfl
  rcases lively.busy none schedule.main id rfl unended with queued | asked | waits
  · rw [none_mem_queue, mainReady] at queued
    cases queued
  · rw [deferred] at asked
    cases asked
  · rcases waits.timer_or_child grounded unended with set | ⟨child, strand, -, there, runs⟩
    · exact set
    · exact lively.timed_task ready deferred _ child strand (Nat.le_add_left ..) there runs

end Lively

end Schedule

end ShardFleet
