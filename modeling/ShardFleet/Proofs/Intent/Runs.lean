import ShardFleet.Proofs.Intent.Enclosing

/-!
Whole runs show what is told of their bodies.

Between turns each strand has rights of its own, apart from those of all others, and is held to
what is promised of it (`Schedule.Sound`). A turn of one strand keeps what the others see, and a
task that it spawns begins with no rights at all; so every step keeps this
(`Schedule.Sound.step`), and a main flow that has ended has shown what was told of it.
-/

namespace ShardFleet

namespace Schedule

/-- What is promised of the main flow or of a task. -/
def promise (result : List Transcript) (promises : List (List Transcript)) :
    Option Nat → Option (List Transcript)
  | none => some result
  | some task => promises[task]?

/-- The strands have divided the stacks, and each is held to its promise. -/
structure Sound (schedule : Schedule) (result : List Transcript)
    (promises : List (List Transcript)) (rights : Option Nat → Rights) : Prop where
  length : promises.length = schedule.tasks.length
  held : ∀ task strand inner, schedule.strand? task = some strand →
    promise result promises task = some inner →
      strand.Held promises inner (rights task) schedule.contexts
  apart : ∀ one other, one ≠ other → (rights one).Apart (rights other)
  within : ∀ task, (rights task).Within schedule.contexts
  idle : ∀ task, schedule.tasks.length ≤ task → rights (some task) = .none

namespace Sound

variable {schedule later last : Schedule} {result : List Transcript}
  {promises : List (List Transcript)} {rights : Option Nat → Rights} {task : Option Nat}
  {strand strand' : Strand}

/-- Rights are about contexts, strands and promises alone. -/
theorem congr (sound : schedule.Sound result promises rights)
    (contexts : last.contexts = schedule.contexts) (main : last.main = schedule.main)
    (tasks : last.tasks = schedule.tasks) : last.Sound result promises rights where
  length := tasks ▸ sound.length
  held task strand inner found known :=
    contexts ▸ sound.held task strand inner (strand?_congr main tasks task ▸ found) known
  apart := sound.apart
  within task := contexts ▸ sound.within task
  idle task new := sound.idle task (tasks ▸ new)

theorem promised (sound : schedule.Sound result promises rights) :
    schedule.Promised promises where
  length := sound.length
  shown task shown found := by
    rw [result?_eq] at found
    obtain ⟨strand, there, ended⟩ := Option.bind_eq_some_iff.mp found
    have known : promises[task]? = some _ :=
      List.getElem?_eq_getElem (sound.length ▸ strand?_lt there)
    have held := (sound.held (some task) strand _ there known).sound
    cases strand with
    | ended shown' =>
        obtain rfl := Option.some.inj ended
        exact known.trans (congrArg some held.symm)
    | fresh | asleep | awaiting | paired => cases ended

/-- Something is promised of each strand. -/
theorem exists_promise (sound : schedule.Sound result promises rights)
    (found : schedule.strand? task = some strand) :
    ∃ inner, promise result promises task = some inner := by
  cases task with
  | none => exact ⟨result, rfl⟩
  | some task => exact ⟨_, List.getElem?_eq_getElem (sound.length ▸ strand?_lt found)⟩

/-- A promise stands when more is promised. -/
theorem promise_extend {promises' : List (List Transcript)} {inner : List Transcript}
    (more : promises <+: promises') (known : promise result promises task = some inner) :
    promise result promises' task = some inner := by
  cases task with
  | none => exact known
  | some task =>
      obtain ⟨rest, rfl⟩ := more
      have old : task < promises.length := (List.getElem?_eq_some_iff.mp known).1
      exact (List.getElem?_append_left old).trans known

/-- In the turn of one strand the others stay held to their promises. -/
theorem others (sound : schedule.Sound result promises rights)
    {promises' : List (List Transcript)} {rights' : Rights} {other : Option Nat}
    {inner : List Transcript} (extended : schedule.Extends promises later promises')
    (exerts : (rights task).Exerts schedule.contexts rights' later.contexts)
    (different : other ≠ task) (found : later.strand? other = some strand)
    (known : promise result promises' other = some inner) :
    strand.Held promises' inner (rights other) later.contexts := by
  have kept := exerts.kept (sound.apart task other different.symm).left (sound.within other)
  have stays : schedule.strand? other = some strand →
      strand.Held promises' inner (rights other) later.contexts := by
    intro there
    obtain ⟨inner', before⟩ := sound.exists_promise there
    obtain rfl := Option.some.inj ((promise_extend extended.old before).symm.trans known)
    exact ((sound.held other strand inner' there before).keep kept).extend extended.old
  cases other with
  | none => exact stays (congrArg some extended.onward.main |>.symm.trans found)
  | some number =>
      rcases extended.onward.strand?_or found with there | ⟨new, body, rfl⟩
      · exact stays there
      · rw [sound.idle number new]
        exact fun after _ => extended.fresh number body inner new found known after

/-- A turn of one strand, which is then put back in its place. -/
theorem turn (sound : schedule.Sound result promises rights)
    (found : schedule.strand? task = some strand) (keeps : strand.Keeps schedule strand' later)
    (contexts : last.contexts = later.contexts)
    (length : last.tasks.length = later.tasks.length) (own : last.strand? task = some strand')
    (same : ∀ other, other ≠ task → last.strand? other = later.strand? other) :
    ∃ promises rights, last.Sound result promises rights := by
  obtain ⟨inner, known⟩ := sound.exists_promise found
  obtain ⟨promises', rights', extended, exerts, held⟩ :=
    keeps promises inner (rights task) sound.promised (sound.within task)
      (sound.held task strand inner found known).sound
  have grown := extended.onward.length_le
  refine ⟨promises', Function.update rights task rights', ?_, ?_, ?_, ?_, ?_⟩
  · exact extended.length.trans length.symm
  · intro other strand'' inner' there known'
    rw [contexts]
    by_cases self : other = task
    · subst self
      obtain rfl := Option.some.inj (own.symm.trans there)
      obtain rfl := Option.some.inj ((promise_extend extended.old known).symm.trans known')
      rw [Function.update_self]
      exact held
    · rw [Function.update_of_ne self]
      exact sound.others extended exerts self (same other self ▸ there) known'
  · have fresh : ∀ other, other ≠ task → rights'.Apart (rights other) := fun other different =>
      exerts.apart (sound.apart task other different.symm) (sound.within other)
    intro one other different
    by_cases first : one = task
    · subst first
      rw [Function.update_self, Function.update_of_ne different.symm]
      exact fresh other different.symm
    · by_cases second : other = task
      · subst second
        rw [Function.update_self, Function.update_of_ne first]
        exact (fresh one first).symm
      · rw [Function.update_of_ne first, Function.update_of_ne second]
        exact sound.apart one other different
  · intro other
    rw [contexts]
    by_cases self : other = task
    · subst self
      rw [Function.update_self]
      exact exerts.within
    · rw [Function.update_of_ne self]
      exact (sound.within other).grown exerts.grown
  · intro number new
    have beyond : schedule.tasks.length ≤ number := Nat.le_trans grown (length ▸ new)
    have self : some number ≠ task := by
      rintro rfl
      exact Nat.not_lt_of_le beyond (strand?_lt found)
    rw [Function.update_of_ne self]
    exact sound.idle number beyond

/-- The main flow has its turn. -/
theorem mainTurn (sound : schedule.Sound result promises rights) :
    ∃ promises rights, schedule.mainTurn.Sound result promises rights := by
  obtain ⟨main, after, goes, same⟩ := schedule.mainTurn_eq
  have begins : ({ schedule with mainReady := false, allowance := Fairness.allowance } :
      Schedule).Sound result promises rights := sound.congr rfl rfl rfl
  have found : ({ schedule with mainReady := false, allowance := Fairness.allowance } :
      Schedule).strand? none = some schedule.main := rfl
  rw [same]
  refine begins.turn found goes.keeps rfl rfl rfl fun other different => ?_
  cases other with
  | none => exact absurd rfl different
  | some number => rfl

/-- To rouse tasks is nothing that they are held to. -/
theorem rouse (sound : schedule.Sound result promises rights) (tasks : List (Option Nat)) :
    (tasks.foldl Schedule.rouse schedule).Sound result promises rights := by
  obtain ⟨mainReady, ready, same⟩ := foldl_rouse_eq tasks schedule
  rw [same]
  exact sound.congr rfl rfl rfl

/-- A task has its turn. -/
theorem taskTurn (sound : schedule.Sound result promises rights) (number : Nat) :
    ∃ promises rights, (schedule.taskTurn number).Sound result promises rights := by
  cases there : schedule.tasks[number]? with
  | none =>
      rw [Schedule.taskTurn, there]
      exact ⟨promises, rights, sound⟩
  | some task =>
      obtain ⟨strand, after, goes, same⟩ := taskTurn_eq there
      have begins : ({ schedule with allowance := Fairness.allowance } : Schedule).Sound result
          promises rights := sound.congr rfl rfl rfl
      have found : ({ schedule with allowance := Fairness.allowance } : Schedule).strand?
          (some number) = some task.strand := congrArg (Option.map SpawnedTask.strand) there
      have old := Nat.lt_of_lt_of_le (strand?_lt found) goes.onward.length_le
      have contexts : (after.settle number task strand).contexts = after.contexts := rfl
      obtain ⟨promises', rights', kept⟩ := begins.turn found goes.keeps contexts List.length_set
        (strand?_settle old) fun other different => strand?_settle_ne different
      refine ⟨promises', rights', ?_⟩
      rw [same]
      split
      · exact kept.rouse [task.parent]
      · exact kept

/-- The main flow has its turn, if it can go on. -/
theorem attend (sound : schedule.Sound result promises rights) :
    ∃ promises rights, schedule.attend.Sound result promises rights := by
  rw [Schedule.attend]
  split
  · exact sound.mainTurn
  · exact ⟨promises, rights, sound⟩

theorem recess (sound : schedule.Sound result promises rights) :
    ∃ promises rights, schedule.recess.Sound result promises rights := by
  have begins : ({ schedule with turns := 0, deferred := [] } : Schedule).Sound result promises
      rights := sound.congr rfl rfl rfl
  exact (begins.rouse schedule.deferred).attend

theorem moveOn (sound : schedule.Sound result promises rights) :
    ∃ promises rights, schedule.moveOn.Sound result promises rights := by
  have begins : ({ schedule with
      now := schedule.nextInstant
      timers := schedule.timers.filter (schedule.nextInstant < ·.wake)
      turns := 0 } : Schedule).Sound result promises rights := sound.congr rfl rfl rfl
  rw [moveOn_eq]
  exact (begins.rouse _).attend

/-- Every step keeps strands to their promises. -/
theorem step (sound : schedule.Sound result promises rights) (steps : schedule.Steps later) :
    ∃ promises rights, later.Sound result promises rights := by
  cases steps with
  | @turn task others queue more =>
      have begins : ({ schedule with ready := others, turns := schedule.turns + 1 } :
          Schedule).Sound result promises rights := sound.congr rfl rfl rfl
      exact begins.taskTurn task
  | batch full => exact sound.recess
  | pause asked => exact sound.recess
  | clock queue main deferred => exact sound.moveOn

/-- So it is after any number of steps. -/
theorem advance (steps : Nat) (sound : schedule.Sound result promises rights) :
    ∃ promises rights, (schedule.advance steps).Sound result promises rights := by
  induction steps generalizing schedule promises rights with
  | zero => exact ⟨promises, rights, sound⟩
  | succ steps ih =>
      rw [Schedule.advance]
      cases running : schedule.main.result? with
      | some shown =>
          rw [Schedule.step, running]
          exact ⟨promises, rights, sound⟩
      | none =>
          obtain ⟨next, taken, steps⟩ := exists_step running
          obtain ⟨promises', rights', kept⟩ := sound.step steps
          rw [taken]
          exact ih kept

/-- A main flow that has ended has shown what was promised of it. -/
theorem shown_eq (sound : schedule.Sound result promises rights) {shown : List Transcript}
    (ended : schedule.main.result? = some shown) : shown = result := by
  have held := (sound.held none schedule.main result rfl rfl).sound
  cases found : schedule.main with
  | ended shown' =>
      rw [found] at ended held
      exact (Option.some.inj ended).symm.trans held
  | fresh | asleep | awaiting | paired => simp [found, Strand.result?] at ended

end Sound

end Schedule

/-- The schedule with which a body begins. -/
def Flow.begun (body : List Flow) : Schedule :=
  { main := .fresh (Flow.courses none body .ended), mainReady := true }

/-- At the beginning the main flow has no rights, and needs none. -/
theorem Flow.begun_sound {body : List Flow} (lexical : Flow.lexicals false body = true) :
    (Flow.begun body).Sound (Flow.tolds none body) [] fun _ => .none where
  length := rfl
  held task strand inner found known := by
    cases task with
    | none =>
        obtain rfl := Option.some.inj found
        obtain rfl := Option.some.inj known
        intro after _
        have nowhere : Stands false .none after none := trivial
        exact Flow.sound_courses body lexical
          (fun stack seen => absurd seen (Set.notMem_empty stack)) nowhere fun _ _ => rfl
    | some number => cases found
  apart one other _ :=
    ⟨fun _ _ => Set.notMem_empty _, fun _ _ => Set.notMem_empty _⟩
  within task stack seen := absurd seen (Set.notMem_empty stack)
  idle task _ := rfl

/-- Whenever a lexical body has ended it has shown what is told of it. -/
theorem Flow.shown_eq {body : List Flow} (lexical : Flow.lexicals false body = true)
    {steps : Nat} {shown : List Transcript}
    (ended : ((Flow.begun body).advance steps).main.result? = some shown) :
    shown = Flow.tolds none body := by
  obtain ⟨promises, rights, sound⟩ := (Flow.begun_sound lexical).advance steps
  exact sound.shown_eq ended

end ShardFleet
