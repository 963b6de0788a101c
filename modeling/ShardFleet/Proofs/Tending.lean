import ShardFleet.Activity.Run
import ShardFleet.Proofs.Invocation

/-!
Activities that tend a part of a world which they share with others.

A world holds a part for each of several owners. Of an activity that works for one of them three
things are asked (`Activity.Tends`): that it touches the part of its owner only, that this part is
idle whenever it waits, also after it has been given up there, and that it leaves the part as its
result says. In return the others leave the part as it is, and idle, while the activity waits. What
an activity does between two waits nobody else sees, so nothing is asked of it meanwhile.

Tending is kept from wait to wait (`Activity.Tends.proceed`), under a time limit
(`Operation.tends_within`), and by an activity on its own to its end (`Activity.Tends.run`).
-/

namespace ShardFleet

variable {ι σ π ρ τ : Type} {part : ι → σ → π} {owner : ι} {idle : σ → Prop}

/-- Whatever the world holds for anyone but the owner is as it was. -/
def TouchesOnly (part : ι → σ → π) (owner : ι) (before after : σ) : Prop :=
  ∀ other, other ≠ owner → part other after = part other before

theorem TouchesOnly.refl (part : ι → σ → π) (owner : ι) (world : σ) :
    TouchesOnly part owner world world :=
  fun _ _ => rfl

theorem TouchesOnly.trans {first second third : σ} (one : TouchesOnly part owner first second)
    (two : TouchesOnly part owner second third) : TouchesOnly part owner first third :=
  fun other stranger => (two other stranger).trans (one other stranger)

namespace Activity

/-- From this world on the activity touches the owner's part only. Whenever it waits the world is
`idle`, and from every idle world on in which the part is the same it may be given up, which leaves
the world idle, or goes on in the same way. When it ends with a result the world is as `ends`
says. -/
def Tends (part : ι → σ → π) (owner : ι) (idle : σ → Prop) (ends : ρ → σ → Prop) :
    Activity σ ρ → σ → Prop
  | .done result, world => ends result world
  | .act update next, world =>
      TouchesOnly part owner world (update world) ∧
        (next world).Tends part owner idle ends (update world)
  | .clock next, world => ∀ now, (next now).Tends part owner idle ends world
  | .pause _ abandon next, world =>
      idle world ∧ ∀ later, part owner later = part owner world → idle later →
        (TouchesOnly part owner later (abandon later) ∧ idle (abandon later)) ∧
          next.Tends part owner idle ends later

/-- What is said of the end may be weakened. -/
theorem Tends.mono {ends weaker : ρ → σ → Prop} {activity : Activity σ ρ} {world : σ}
    (tends : activity.Tends part owner idle ends world)
    (implies : ∀ result world, ends result world → weaker result world) :
    activity.Tends part owner idle weaker world := by
  induction activity generalizing world with
  | done result => exact implies result world tends
  | act update next ih => exact ⟨tends.1, ih world tends.2⟩
  | clock next ih => exact fun now => ih now (tends now)
  | pause ticks abandon next ih =>
      refine ⟨tends.1, fun later same still => ?_⟩
      obtain ⟨given, onward⟩ := tends.2 later same still
      exact ⟨given, ih onward⟩

/-- An activity that goes on with another one, as its result says. -/
theorem tends_bind {ends : τ → σ → Prop} {activity : Activity σ ρ} {next : ρ → Activity σ τ}
    {world : σ} : (activity.bind next).Tends part owner idle ends world ↔
      activity.Tends part owner idle
        (fun result => (next result).Tends part owner idle ends) world := by
  induction activity generalizing world with
  | done result => rfl
  | act update rest ih => exact and_congr_right fun _ => ih world
  | clock rest ih => exact forall_congr' fun now => ih now
  | pause ticks abandon rest ih =>
      exact and_congr_right fun _ => forall₃_congr fun _ _ _ => and_congr_right fun _ => ih

/-- What is released at the end and when the activity is given up. -/
theorem Tends.guarded {ends : ρ → σ → Prop} {release : σ → σ} {activity : Activity σ ρ}
    {world : σ} (touches : ∀ world, TouchesOnly part owner world (release world))
    (still : ∀ world, idle world → idle (release world))
    (tends : activity.Tends part owner idle (fun result world => ends result (release world))
      world) :
    (activity.guarded release).Tends part owner idle ends world := by
  induction activity generalizing world with
  | done result => exact ⟨touches world, tends⟩
  | act update next ih => exact ⟨tends.1, ih world tends.2⟩
  | clock next ih => exact fun now => ih now (tends now)
  | pause ticks abandon next ih =>
      refine ⟨tends.1, fun later same rests => ?_⟩
      obtain ⟨⟨own, left⟩, onward⟩ := tends.2 later same rests
      exact ⟨⟨own.trans (touches _), still _ left⟩, ih onward⟩

/-! ### Running -/

/-- How the world is left by an activity that can go no further at this instant. -/
def Halt.Tended (part : ι → σ → π) (owner : ι) (idle : σ → Prop) (ends : ρ → σ → Prop) :
    Halt σ ρ → σ → Prop
  | .ended result, world => ends result world
  | .asleep _ abandon rest, world =>
      idle world ∧ ∀ later, part owner later = part owner world → idle later →
        (TouchesOnly part owner later (abandon later) ∧ idle (abandon later)) ∧
          rest.Tends part owner idle ends later

/-- One instant of an activity touches the owner's part only, and leaves the world idle or as the
result says. -/
theorem Tends.proceed {ends : ρ → σ → Prop} {activity : Activity σ ρ} {world : σ}
    (tends : activity.Tends part owner idle ends world) (now : Nat) :
    TouchesOnly part owner world (activity.proceed now world).1 ∧
      (activity.proceed now world).2.Tended part owner idle ends
        (activity.proceed now world).1 := by
  induction activity generalizing world with
  | done result => exact ⟨.refl _ _ _, tends⟩
  | act update next ih =>
      obtain ⟨own, halted⟩ := ih world tends.2
      exact ⟨tends.1.trans own, halted⟩
  | clock next ih => exact ih now (tends now)
  | pause ticks abandon next ih =>
      cases ticks with
      | zero => exact ih (tends.2 world rfl tends.1).2
      | succ ticks => exact ⟨.refl _ _ _, tends⟩

/-- On its own an activity leaves the world as its result says, or idle if it is given up. -/
theorem Tends.run {ends : ρ → σ → Prop} {activity : Activity σ ρ} {moment : Moment σ}
    (tends : activity.Tends part owner idle ends moment.world) :
    TouchesOnly part owner moment.world (activity.run moment).2.world ∧
      ((activity.run moment).1.elim idle ends) (activity.run moment).2.world := by
  induction activity generalizing moment with
  | done result => exact ⟨.refl _ _ _, tends⟩
  | act update next ih =>
      obtain ⟨own, left⟩ := @ih moment.world
        { moment with world := update moment.world } tends.2
      exact ⟨tends.1.trans own, left⟩
  | clock next ih => exact ih moment.now (tends moment.now)
  | pause ticks abandon next ih =>
      obtain ⟨given, onward⟩ := tends.2 moment.world rfl tends.1
      cases ticks with
      | zero => exact ih onward
      | succ ticks =>
          rw [Activity.run]
          split
          · exact given
          · exact @ih (moment.moveTo _) onward

/-- The worlds that others get to see of an activity on its own: where it waits, and where it
ends or has been given up. -/
def course : Activity σ ρ → Moment σ → List σ
  | .done _, moment => [moment.world]
  | .act update next, moment =>
      (next moment.world).course { moment with world := update moment.world }
  | .clock next, moment => (next moment.now).course moment
  | .pause 0 _ next, moment => next.course moment
  | .pause (ticks + 1) abandon next, moment =>
      moment.world ::
        if moment.cancellation.precedes (moment.now + (ticks + 1)) then
          [(moment.cancel abandon).world]
        else next.course (moment.moveTo (moment.now + (ticks + 1)))

/-- The last that is seen of an activity is the world in which it leaves off. -/
theorem getLast?_course (activity : Activity σ ρ) (moment : Moment σ) :
    (activity.course moment).getLast? = some (activity.run moment).2.world := by
  induction activity generalizing moment with
  | done result => rfl
  | act update next ih => exact ih moment.world _
  | clock next ih => exact ih moment.now moment
  | pause ticks abandon next ih =>
      cases ticks with
      | zero => exact ih moment
      | succ ticks =>
          rw [course, run]
          split
          · rfl
          · rw [List.getLast?_cons, ih, Option.getD_some]

/-- What others get to see touches the owner's part only, and is idle or as a result says. -/
theorem Tends.course {ends : ρ → σ → Prop} {activity : Activity σ ρ} {moment : Moment σ}
    (tends : activity.Tends part owner idle ends moment.world) :
    ∀ seen ∈ activity.course moment, TouchesOnly part owner moment.world seen ∧
      (idle seen ∨ ∃ result, ends result seen) := by
  intro seen mem
  induction activity generalizing moment with
  | done result =>
      obtain rfl := List.mem_singleton.mp mem
      exact ⟨.refl _ _ _, .inr ⟨result, tends⟩⟩
  | act update next ih =>
      obtain ⟨own, left⟩ := @ih moment.world
        { moment with world := update moment.world } tends.2 mem
      exact ⟨tends.1.trans own, left⟩
  | clock next ih => exact ih moment.now (tends moment.now) mem
  | pause ticks abandon next ih =>
      obtain ⟨still, onward⟩ := tends
      obtain ⟨⟨own, given⟩, onward⟩ := onward moment.world rfl still
      cases ticks with
      | zero => exact ih onward mem
      | succ ticks =>
          rw [Activity.course] at mem
          rcases List.mem_cons.mp mem with rfl | later
          · exact ⟨.refl _ _ _, .inl still⟩
          · split at later
            · obtain rfl := List.mem_singleton.mp later
              exact ⟨own, .inl given⟩
            · exact @ih (moment.moveTo _) onward later

end Activity

/-! ### Jobs -/

namespace Job

variable {α β : Type} {ends : Except Error α → σ → Prop} {world : σ}

/-- A job whose value another job needs. -/
theorem tends_bind {ends : Except Error β → σ → Prop} {job : Job σ α} {next : α → Job σ β} :
    Activity.Tends part owner idle ends (job >>= next : Job σ β) world ↔
      Activity.Tends part owner idle
        (fun result => Activity.Tends part owner idle ends (ExceptT.bindCont next result))
        job world :=
  Activity.tends_bind

theorem tends_pure {value : α} :
    Activity.Tends part owner idle ends (pure value : Job σ α) world ↔ ends (.ok value) world :=
  .rfl

theorem tends_throw {error : Error} :
    Activity.Tends part owner idle ends (throw error : Job σ α) world ↔
      ends (.error error) world :=
  .rfl

theorem tends_look {view : σ → Except Error α} :
    Activity.Tends part owner idle ends (look view) world ↔ ends (view world) world :=
  and_iff_right (.refl _ _ _)

theorem tends_change {ends : Except Error Unit → σ → Prop} {update : σ → σ} :
    Activity.Tends part owner idle ends (change update) world ↔
      TouchesOnly part owner world (update world) ∧ ends (.ok ()) (update world) :=
  .rfl

theorem tends_transact_ok {f : σ → Except Error (σ × α)} (after : σ) (value : α)
    (changes : f world = .ok (after, value)) :
    Activity.Tends part owner idle ends (transact f) world ↔
      TouchesOnly part owner world after ∧ ends (.ok value) after := by
  simp only [transact, Activity.Tends, changes, Except.map, Except.toOption, Option.getD_some]

theorem tends_transact_error {f : σ → Except Error (σ × α)} {error : Error}
    (fails : f world = .error error) :
    Activity.Tends part owner idle ends (transact f) world ↔ ends (.error error) world := by
  simp only [transact, Activity.Tends, fails, Except.map, Except.toOption, Option.getD_none]
  exact and_iff_right (.refl _ _ _)

theorem tends_time {ends : Except Error Nat → σ → Prop} :
    Activity.Tends part owner idle ends time world ↔ ∀ now, ends (.ok now) world :=
  .rfl

theorem tends_sleep {ends : Except Error Unit → σ → Prop} {span : Duration} :
    Activity.Tends part owner idle ends (sleep span) world ↔
      idle world ∧ ∀ later, part owner later = part owner world → idle later →
        ends (.ok ()) later := by
  refine and_congr_right fun _ => forall₃_congr fun later same still => ?_
  exact and_iff_right ⟨.refl _ _ _, still⟩

theorem tends_adapt {f : Error → Error} {job : Job σ α} :
    Activity.Tends part owner idle ends (ExceptT.adapt f job : Job σ α) world ↔
      Activity.Tends part owner idle (fun result => ends (result.mapError f)) job world :=
  Activity.tends_bind

/-- A job on its own leaves the world as its result says, if being given up leaves it as a
cancellation says. -/
theorem tends_perform {job : Job σ α} {moment : Moment σ}
    (calledOff : ∀ world, idle world → ends (.error .cancelled) world)
    (tends : Activity.Tends part owner idle ends job moment.world) :
    TouchesOnly part owner moment.world (job.perform moment).2.world ∧
      ends (job.perform moment).1 (job.perform moment).2.world := by
  obtain ⟨own, left⟩ := Activity.Tends.run tends
  refine ⟨own, ?_⟩
  have performs : job.perform moment =
      ((Activity.run job moment).1.getD (.error .cancelled), (Activity.run job moment).2) := rfl
  rw [performs]
  cases result : (Activity.run job moment).1 with
  | none => exact calledOff _ (by simpa [result] using left)
  | some value => simpa [result] using left

end Job

/-! ### Operations -/

/-- How an operation leaves the world with its ending. One that hangs leaves it idle, and so does
whoever gives it up. -/
def Ending.Left {α : Type} (part : ι → σ → π) (owner : ι) (idle : σ → Prop)
    (ends : Except Error α → σ → Prop) : Ending σ α → σ → Prop
  | .returned result, world => ends result world
  | .crashed, world => ends (.error .breakdown) world
  | .hung abandon, world =>
      idle world ∧ ∀ later, part owner later = part owner world → idle later →
        TouchesOnly part owner later (abandon later) ∧ idle (abandon later)

namespace Operation

variable {α : Type} {ends : Except Error α → σ → Prop} {overdue : Error} {world : σ}

theorem tends_ofJob {job : Job σ α} :
    (ofJob job).Tends part owner idle (Ending.Left part owner idle ends) world ↔
      Activity.Tends part owner idle ends job world :=
  Activity.tends_bind

theorem tends_expire {abandon : σ → σ}
    (late : ∀ world, idle world → ends (.error overdue) world)
    (hung : Ending.Left part owner idle ends (.hung abandon) world) (left : Nat) :
    Activity.Tends part owner idle ends (expire overdue abandon left) world := by
  refine ⟨hung.1, fun later same still => ?_⟩
  obtain ⟨own, given⟩ := hung.2 later same still
  exact ⟨⟨own, given⟩, own, late _ given⟩

/-- Under a time limit an operation tends the part too: where it waits it may be given up. -/
theorem tends_within {operation : Operation σ α}
    (late : ∀ world, idle world → ends (.error overdue) world)
    (tends : operation.Tends part owner idle (Ending.Left part owner idle ends) world)
    (left : Nat) : Activity.Tends part owner idle ends (operation.within overdue left) world := by
  induction operation generalizing world left with
  | done ending =>
      cases ending with
      | returned result => exact tends
      | crashed => exact tends
      | hung abandon => exact tends_expire late tends left
  | act update next ih => exact ⟨tends.1, ih world tends.2 left⟩
  | clock next ih => exact fun now => ih now (tends now) left
  | pause ticks abandon next ih =>
      obtain ⟨still, onward⟩ := tends
      cases ticks with
      | zero => exact ih (onward world rfl still).2 left
      | succ ticks =>
          rw [within]
          split
          · refine ⟨still, fun later same rests => ?_⟩
            obtain ⟨given, onward⟩ := onward later same rests
            exact ⟨given, ih onward _⟩
          · refine tends_expire late ⟨still, fun later same rests => ?_⟩ left
            exact (onward later same rests).1

end Operation

end ShardFleet
