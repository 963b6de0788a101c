import ShardFleet.Proofs.Tending

/-!
Activities that have a number of ticks to spend.

What an activity comes to under a time limit depends on how long it waits, and this may depend on
what it finds of its owner's part. If nobody else touches this part, an activity can be followed
with the ticks that are left to it (`Activity.Spends`), and what it is seen to come to in this way
it comes to under a time limit of so many ticks, wherever and whenever it is started, as long as
it is not given up (`Operation.assures_within`).
-/

namespace ShardFleet

variable {ι σ π ρ τ : Type} {part : ι → σ → π} {owner : ι} {late : Prop} {left : Nat} {world : σ}

namespace Activity

/-- The activity touches the part of its owner only, also if it is given up, and so long as nobody
else touches it the activity either ends as `ends` says, with so many of its ticks left, or has to
wait for longer than it has ticks, which is the case only if `late` holds. -/
def Spends (part : ι → σ → π) (owner : ι) (late : Prop) (ends : ρ → Nat → σ → Prop) :
    Activity σ ρ → Nat → σ → Prop
  | .done result, left, world => ends result left world
  | .act update next, left, world =>
      TouchesOnly part owner world (update world) ∧
        (next world).Spends part owner late ends left (update world)
  | .clock next, left, world => ∀ now, (next now).Spends part owner late ends left world
  | .pause ticks abandon next, left, world => ∀ later, part owner later = part owner world →
      TouchesOnly part owner later (abandon later) ∧
        if ticks ≤ left then next.Spends part owner late ends (left - ticks) later else late

theorem Spends.mono {ends weaker : ρ → Nat → σ → Prop} {later : Prop} {activity : Activity σ ρ}
    (spends : activity.Spends part owner late ends left world) (implied : late → later)
    (implies : ∀ result left world, ends result left world → weaker result left world) :
    activity.Spends part owner later weaker left world := by
  induction activity generalizing left world with
  | done result => exact implies result left world spends
  | act update next ih => exact ⟨spends.1, ih world spends.2⟩
  | clock next ih => exact fun now => ih now (spends now)
  | pause ticks abandon next ih =>
      intro other same
      obtain ⟨own, onward⟩ := spends other same
      refine ⟨own, ?_⟩
      split
      · next enough => exact ih (by simpa only [if_pos enough] using onward)
      · next short => exact implied (by simpa only [if_neg short] using onward)

/-- An activity that goes on with another one, as its result says. -/
theorem spends_bind {ends : τ → Nat → σ → Prop} {activity : Activity σ ρ}
    {next : ρ → Activity σ τ} :
    (activity.bind next).Spends part owner late ends left world ↔
      activity.Spends part owner late
        (fun result left world => (next result).Spends part owner late ends left world)
        left world := by
  induction activity generalizing left world with
  | done result => rfl
  | act update rest ih => exact and_congr_right fun _ => ih world
  | clock rest ih => exact forall_congr' fun now => ih now
  | pause ticks abandon rest ih =>
      refine forall₂_congr fun later same => and_congr_right fun _ => ?_
      split
      · exact ih
      · exact .rfl

/-- What is released at the end and when the activity is given up. -/
theorem Spends.guarded {ends : ρ → Nat → σ → Prop} {release : σ → σ} {activity : Activity σ ρ}
    (touches : ∀ world, TouchesOnly part owner world (release world))
    (spends : activity.Spends part owner late
      (fun result left world => ends result left (release world)) left world) :
    (activity.guarded release).Spends part owner late ends left world := by
  induction activity generalizing left world with
  | done result => exact ⟨touches world, spends⟩
  | act update next ih => exact ⟨spends.1, ih world spends.2⟩
  | clock next ih => exact fun now => ih now (spends now)
  | pause ticks abandon next ih =>
      intro later same
      obtain ⟨own, onward⟩ := spends later same
      refine ⟨own.trans (touches _), ?_⟩
      split
      · next enough => exact ih (by simpa only [if_pos enough] using onward)
      · next short => simpa only [if_neg short] using onward

/-- On its own an activity whose caller waits comes to a result, and the caller goes on waiting. -/
theorem run_of_never (activity : Activity σ ρ) {moment : Moment σ}
    (patient : moment.cancellation = .never) :
    (∃ result, (activity.run moment).1 = some result) ∧
      (activity.run moment).2.cancellation = .never := by
  induction activity generalizing moment with
  | done result => exact ⟨⟨result, rfl⟩, patient⟩
  | act update next ih => exact ih moment.world patient
  | clock next ih => exact ih moment.now patient
  | pause ticks abandon next ih =>
      cases ticks with
      | zero => exact ih patient
      | succ ticks =>
          have passes : moment.cancellation.precedes (moment.now + (ticks + 1)) = false := by
            rw [patient]
            rfl
          rw [Activity.run, passes]
          exact ih patient

end Activity

/-! ### Jobs -/

namespace Job

variable {α β : Type} {ends : Except Error α → Nat → σ → Prop}

/-- Wherever the part of the owner is as it was met, the job touches nothing else and comes to one
of the results, if it is not given up and nobody else touches the part. -/
def Assures (part : ι → σ → π) (owner : ι) (met : π) (results : Except Error α → Prop)
    (job : Job σ α) : Prop :=
  ∀ world, part owner world = met →
    Activity.Tends part owner (fun _ => True) (fun result _ => results result) job world

theorem Assures.mono {met : π} {results weaker : Except Error α → Prop} {job : Job σ α}
    (assures : job.Assures part owner met results)
    (implies : ∀ result, results result → weaker result) : job.Assures part owner met weaker :=
  fun world same => (assures world same).mono fun result _ => implies result

/-- On its own a job whose caller waits comes to a result that was assured. It touches the part of
its owner only, and the caller goes on waiting. -/
theorem Assures.perform {results : Except Error α → Prop} {job : Job σ α} {moment : Moment σ}
    (assures : job.Assures part owner (part owner moment.world) results)
    (patient : moment.cancellation = .never) :
    results (job.perform moment).1 ∧
      TouchesOnly part owner moment.world (job.perform moment).2.world ∧
      (job.perform moment).2.cancellation = .never := by
  obtain ⟨own, left⟩ := Activity.Tends.run (assures moment.world rfl)
  obtain ⟨⟨result, runs⟩, waits⟩ := Activity.run_of_never job patient
  rw [runs] at left
  have comes : (job.perform moment).1 = result := congrArg (Option.getD · _) runs
  exact ⟨comes ▸ left, own, waits⟩

/-- A job whose value another job needs. -/
theorem spends_bind {ends : Except Error β → Nat → σ → Prop} {job : Job σ α}
    {next : α → Job σ β} :
    Activity.Spends part owner late ends (job >>= next : Job σ β) left world ↔
      Activity.Spends part owner late
        (fun result left world =>
          Activity.Spends part owner late ends (ExceptT.bindCont next result) left world)
        job left world :=
  Activity.spends_bind

theorem spends_pure {value : α} :
    Activity.Spends part owner late ends (pure value : Job σ α) left world ↔
      ends (.ok value) left world :=
  .rfl

theorem spends_throw {error : Error} :
    Activity.Spends part owner late ends (throw error : Job σ α) left world ↔
      ends (.error error) left world :=
  .rfl

theorem spends_look {view : σ → Except Error α} :
    Activity.Spends part owner late ends (look view) left world ↔ ends (view world) left world :=
  and_iff_right (.refl _ _ _)

theorem spends_change {ends : Except Error Unit → Nat → σ → Prop} {update : σ → σ} :
    Activity.Spends part owner late ends (change update) left world ↔
      TouchesOnly part owner world (update world) ∧ ends (.ok ()) left (update world) :=
  .rfl

theorem spends_transact_ok {f : σ → Except Error (σ × α)} (after : σ) (value : α)
    (changes : f world = .ok (after, value)) :
    Activity.Spends part owner late ends (transact f) left world ↔
      TouchesOnly part owner world after ∧ ends (.ok value) left after := by
  simp only [transact, Activity.Spends, changes, Except.map, Except.toOption, Option.getD_some]

theorem spends_transact_error {f : σ → Except Error (σ × α)} {error : Error}
    (fails : f world = .error error) :
    Activity.Spends part owner late ends (transact f) left world ↔
      ends (.error error) left world := by
  simp only [transact, Activity.Spends, fails, Except.map, Except.toOption, Option.getD_none]
  exact and_iff_right (.refl _ _ _)

theorem spends_time {ends : Except Error Nat → Nat → σ → Prop} :
    Activity.Spends part owner late ends time left world ↔ ∀ now, ends (.ok now) left world :=
  .rfl

theorem spends_sleep {ends : Except Error Unit → Nat → σ → Prop} {span : Duration} :
    Activity.Spends part owner late ends (sleep span) left world ↔
      ∀ later, part owner later = part owner world →
        if span.sleepTicks ≤ left then ends (.ok ()) (left - span.sleepTicks) later else late := by
  exact forall₂_congr fun later same => and_iff_right (.refl _ _ _)

theorem spends_adapt {f : Error → Error} {job : Job σ α} :
    Activity.Spends part owner late ends (ExceptT.adapt f job : Job σ α) left world ↔
      Activity.Spends part owner late (fun result => ends (result.mapError f)) job left world :=
  Activity.spends_bind

end Job

/-! ### Operations -/

/-- What a job comes to with so many ticks to spend it comes to under a time limit of so many
ticks. -/
theorem Operation.assures_within {α : Type} {job : Job σ α} {overdue : Error} {met : π}
    {results : Except Error α → Prop}
    (spends : ∀ world, part owner world = met →
      Activity.Spends part owner (results (.error overdue)) (fun result _ _ => results result)
        job left world) :
    ((ofJob job).within overdue left).Assures part owner met results := by
  suffices follows : ∀ world, Activity.Spends part owner (results (.error overdue))
      (fun result _ _ => results result) job left world →
      Activity.Tends part owner (fun _ => True) (fun result _ => results result)
        ((ofJob job).within overdue left) world from
    fun world same => follows world (spends world same)
  clear spends
  intro world spends
  induction job generalizing left world with
  | done result => exact spends
  | act update next ih => exact ⟨spends.1, ih world _ spends.2⟩
  | clock next ih => exact fun now => ih now _ (spends now)
  | pause ticks abandon next ih =>
      cases ticks with
      | zero => exact ih world (by simpa using (spends world rfl).2)
      | succ ticks =>
          have unfolds : (ofJob (.pause (ticks + 1) abandon next)).within overdue left =
              if ticks + 1 ≤ left then
                .pause (ticks + 1) abandon ((ofJob next).within overdue (left - (ticks + 1)))
              else expire overdue abandon left := rfl
          rw [unfolds]
          split
          · next enough =>
              refine ⟨trivial, fun later same _ => ?_⟩
              obtain ⟨own, onward⟩ := spends later same
              exact ⟨⟨own, trivial⟩, ih later (by simpa only [if_pos enough] using onward)⟩
          · next short =>
              refine ⟨trivial, fun later same _ => ?_⟩
              obtain ⟨own, onward⟩ := spends later same
              have overran : results (.error overdue) := by simpa only [if_neg short] using onward
              exact ⟨⟨own, trivial⟩, own, overran⟩

end ShardFleet
