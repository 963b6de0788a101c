import ShardFleet.Activity.Invocation

/-!
What holds of an activity whatever world it meets.

Three things can be said of an activity without running it: which results it may come to
(`Activity.Yields`), how long it waits at most (`Activity.Fits`), and at which instant it ends
(`Activity.EndsAt`). Each of them survives one instant of the activity
(`Activity.proceed_keeps`), so it can be carried from turn to turn while others change the world.

A job may be known never to claim that it was called off (`Job.Sincere`); so is one that is made of
such jobs (`Job.Sincere.bind`), and so is its operation (`Operation.sincere_ofJob`).

An invocation under a time limit waits no longer than the limit (`Operation.within_fits`). If an
operation does the same on every occasion, counted from its own start, then so does its
invocation (`Operation.Behaves.within`, `Behaviour.verdict`).
-/

namespace ShardFleet

namespace Activity

variable {σ ρ : Type}

/-- Every result is one of `results`, whatever the world and the clock show. -/
def Yields (results : ρ → Prop) : Activity σ ρ → Prop
  | .done result => results result
  | .act _ next => ∀ world, (next world).Yields results
  | .clock next => ∀ now, (next now).Yields results
  | .pause _ _ next => next.Yields results

/-- Waits for at most `left` ticks in all. -/
def Fits : Activity σ ρ → Nat → Prop
  | .done _, _ => True
  | .act _ next, left => ∀ world, (next world).Fits left
  | .clock next, left => ∀ now, (next now).Fits left
  | .pause ticks _ next, left => ticks ≤ left ∧ next.Fits (left - ticks)

/-- Going on at an instant, ends at the instant `finish` with one of `results`, whatever the
world shows. -/
def EndsAt (results : ρ → Prop) (finish : Nat) : Activity σ ρ → Nat → Prop
  | .done result, now => now = finish ∧ results result
  | .act _ next, now => ∀ world, (next world).EndsAt results finish now
  | .clock next, now => (next now).EndsAt results finish now
  | .pause ticks _ next, now => next.EndsAt results finish (now + ticks)

/-- What is left of an activity that can go no further at this instant. -/
def Halt.left : Halt σ ρ → Activity σ ρ
  | .ended result => .done result
  | .asleep ticks abandon rest => .pause ticks abandon rest

/-- What holds of an activity at an instant, and of what follows each of its steps that take no
time, holds of what is left of it. -/
theorem proceed_keeps (holds : Activity σ ρ → Prop) {now : Nat}
    (act : ∀ update next, holds (.act update next) → ∀ world, holds (next world))
    (clock : ∀ next, holds (.clock next) → holds (next now))
    (pause : ∀ abandon next, holds (.pause 0 abandon next) → holds next) :
    ∀ (activity : Activity σ ρ) (world : σ), holds activity →
      holds (activity.proceed now world).2.left := by
  intro activity
  induction activity with
  | done result => exact fun world held => held
  | act update next ih => exact fun world held => ih world _ (act update next held world)
  | clock next ih => exact fun world held => ih now world (clock next held)
  | pause ticks abandon next ih =>
      intro world held
      cases ticks with
      | zero => exact ih world (pause abandon next held)
      | succ ticks => exact held

theorem Yields.mono {results others : ρ → Prop} {activity : Activity σ ρ}
    (yields : activity.Yields results) (weaker : ∀ result, results result → others result) :
    activity.Yields others := by
  induction activity with
  | done result => exact weaker result yields
  | act update next ih => exact fun world => ih world (yields world)
  | clock next ih => exact fun now => ih now (yields now)
  | pause ticks abandon next ih => exact ih yields

theorem Yields.proceed {results : ρ → Prop} {activity : Activity σ ρ}
    (yields : activity.Yields results) (now : Nat) (world : σ) :
    (activity.proceed now world).2.left.Yields results :=
  proceed_keeps (Yields results) (fun _ _ held => held) (fun _ held => held now)
    (fun _ _ held => held) activity world yields

/-- An activity that goes on with another one, as its result says. -/
theorem yields_bind {τ : Type} {results : τ → Prop} {activity : Activity σ ρ}
    {next : ρ → Activity σ τ} : (activity.bind next).Yields results ↔
      activity.Yields fun result => (next result).Yields results := by
  induction activity with
  | done result => rfl
  | act update rest ih => exact forall_congr' fun world => ih world
  | clock rest ih => exact forall_congr' fun now => ih now
  | pause ticks abandon rest ih => exact ih

/-- What is released at the end does not change the result. -/
theorem Yields.guarded {results : ρ → Prop} {activity : Activity σ ρ}
    (yields : activity.Yields results) (release : σ → σ) :
    (activity.guarded release).Yields results := by
  induction activity with
  | done result => exact fun _ => yields
  | act update next ih => exact fun world => ih world (yields world)
  | clock next ih => exact fun now => ih now (yields now)
  | pause ticks abandon next ih => exact ih yields

theorem Fits.proceed {left : Nat} {activity : Activity σ ρ} (fits : activity.Fits left)
    (now : Nat) (world : σ) : (activity.proceed now world).2.left.Fits left :=
  proceed_keeps (Fits · left) (fun _ _ held => held) (fun _ held => held now)
    (fun _ _ held => held.2) activity world fits

theorem EndsAt.proceed {results : ρ → Prop} {finish now : Nat} {activity : Activity σ ρ}
    (ends : activity.EndsAt results finish now) (world : σ) :
    (activity.proceed now world).2.left.EndsAt results finish now :=
  proceed_keeps (EndsAt results finish · now) (fun _ _ held => held) (fun _ held => held)
    (fun _ _ held => held) activity world ends

/-- Whoever falls asleep wakes at a later instant. -/
theorem proceed_asleep_pos {activity : Activity σ ρ} {now ticks : Nat} {world after : σ}
    {abandon : σ → σ} {rest : Activity σ ρ}
    (asleep : activity.proceed now world = (after, .asleep ticks abandon rest)) : 0 < ticks := by
  induction activity generalizing world with
  | done result => simp [proceed] at asleep
  | act update next ih => exact ih world asleep
  | clock next ih => exact ih now asleep
  | pause span abandon next ih =>
      cases span with
      | zero => exact ih asleep
      | succ span =>
          simp only [proceed, Prod.mk.injEq, Halt.asleep.injEq] at asleep
          omega

/-- Nothing ends before it goes on. -/
theorem EndsAt.le {results : ρ → Prop} {finish now : Nat} {activity : Activity σ ρ} (world : σ)
    (ends : activity.EndsAt results finish now) : now ≤ finish := by
  induction activity generalizing now with
  | done result => exact Nat.le_of_eq ends.1
  | act update next ih => exact ih world (ends world)
  | clock next ih => exact ih now ends
  | pause ticks abandon next ih => exact Nat.le_trans (Nat.le_add_right _ _) (ih ends)

/-- On its own, and not cancelled, an activity comes to one of the results it can come to. -/
theorem EndsAt.run {results : ρ → Prop} {finish : Nat} {activity : Activity σ ρ}
    {moment : Moment σ} (ends : activity.EndsAt results finish moment.now)
    (uncancelled : moment.cancellation = .never) :
    ∃ result, (activity.run moment).1 = some result ∧ results result := by
  induction activity generalizing moment with
  | done result => exact ⟨result, rfl, ends.2⟩
  | act update next ih =>
      exact ih moment.world (ends moment.world) uncancelled
  | clock next ih => exact ih moment.now ends uncancelled
  | pause ticks abandon next ih =>
      cases ticks with
      | zero => exact ih ends uncancelled
      | succ ticks =>
          have passes : moment.cancellation.precedes (moment.now + (ticks + 1)) = false := by
            rw [uncancelled]
            rfl
          rw [Activity.run, passes]
          exact ih ends uncancelled

end Activity

/-! ### Jobs -/

namespace Job

variable {σ α β : Type}

/-- The job never claims to have been called off. -/
def Sincere (job : Job σ α) : Prop :=
  Activity.Yields (fun result : Except Error α => result ≠ .error .cancelled) job

theorem Sincere.bind {job : Job σ α} {next : α → Job σ β} (sincere : job.Sincere)
    (onward : ∀ value, (next value).Sincere) : (job >>= next).Sincere := by
  refine Activity.yields_bind.mpr (Activity.Yields.mono sincere fun result honest => ?_)
  cases result with
  | ok value => exact onward value
  | error error => exact fun off => honest (congrArg _ (Except.error.inj off))

theorem sincere_pure (value : α) : (pure value : Job σ α).Sincere := nofun

theorem sincere_throw {error : Error} (other : error ≠ .cancelled) :
    (throw error : Job σ α).Sincere :=
  fun off => other (Except.error.inj off)

theorem sincere_look {view : σ → Except Error α}
    (honest : ∀ world, view world ≠ .error .cancelled) : (look view).Sincere :=
  honest

/-- Looking at what is always there. -/
theorem sincere_read (view : σ → α) : (look fun world => .ok (view world)).Sincere :=
  fun _ => nofun

theorem sincere_change (update : σ → σ) : (change update).Sincere := fun _ => nofun

theorem sincere_transact {f : σ → Except Error (σ × α)}
    (honest : ∀ world, f world ≠ .error .cancelled) : (transact f).Sincere := by
  intro world off
  cases brought : f world with
  | ok value =>
      rw [brought] at off
      cases off
  | error error =>
      rw [brought] at off
      exact honest world (brought.trans (congrArg _ (Except.error.inj off)))

theorem sincere_time : (time : Job σ Nat).Sincere := fun _ => nofun

theorem sincere_sleep (span : Duration) : (sleep span : Job σ Unit).Sincere := nofun

theorem Sincere.guarded {job : Job σ α} (sincere : job.Sincere) (release : σ → σ) :
    Job.Sincere (Activity.guarded release job) :=
  Activity.Yields.guarded sincere release

/-- Errors may be told otherwise, as long as none of them is told as a cancellation. -/
theorem Sincere.adapt {job : Job σ α} (sincere : job.Sincere) {f : Error → Error}
    (honest : ∀ error, error ≠ .cancelled → f error ≠ .cancelled) :
    Job.Sincere (ExceptT.adapt f job : Job σ α) := by
  refine Activity.yields_bind.mpr (Activity.Yields.mono sincere fun result sincere => ?_)
  cases result with
  | ok value => exact nofun
  | error error =>
      have kept := honest error fun off => sincere (congrArg _ off)
      exact fun off => kept (Except.error.inj off)

end Job

/-! ### Operations -/

/-- What an operation comes to, left to itself, apart from what giving it up does. -/
inductive Fate (α : Type) where
  | returned (result : Except Error α)
  | crashed
  | hung

/-- What an operation does, counted from its own start: after a time it comes to its fate. -/
structure Behaviour (α : Type) where
  ticks : Nat
  fate : Fate α

variable {σ α : Type}

/-- What an ending comes to. -/
def Ending.fate : Ending σ α → Fate α
  | .returned result => .returned result
  | .crashed => .crashed
  | .hung _ => .hung

/-- What a fate is reported as by whoever waits to the end of the time limit. -/
def Fate.verdict (overdue : Error) : Fate α → Except Error α
  | .returned result => result
  | .crashed => .error .breakdown
  | .hung => .error overdue

/-- The instant at which whoever waits to the end of the time limit has done waiting, if the fate
comes at the instant `finish`. -/
def Fate.endAt (finish deadline : Nat) : Fate α → Nat
  | .returned _ | .crashed => min finish deadline
  | .hung => deadline

/-- What a behaviour is reported as under a time limit. -/
def Behaviour.verdict (behaviour : Behaviour α) (overdue : Error) (limit : Nat) :
    Except Error α :=
  if behaviour.ticks ≤ limit then behaviour.fate.verdict overdue else .error overdue

namespace Operation

/-- The operation behaves in this way whenever it starts and whatever the world shows. -/
def Behaves (operation : Operation σ α) (behaviour : Behaviour α) : Prop :=
  ∀ start, operation.EndsAt (fun ending => ending.fate = behaviour.fate)
    (start + behaviour.ticks) start

/-- The operation never claims to have been called off. -/
def Sincere (operation : Operation σ α) : Prop :=
  operation.Yields fun ending => ending.fate ≠ .returned (.error .cancelled)

/-- The operation of a sincere job. -/
theorem sincere_ofJob {job : Job σ α} (sincere : job.Sincere) : (ofJob job).Sincere := by
  refine Activity.yields_bind.mpr (Activity.Yields.mono sincere fun result honest => ?_)
  exact fun off => honest (Fate.returned.inj off)

/-- What is done when an operation ends does not change what it comes to. -/
theorem guarded_yields (fates : Fate α → Prop) (release : σ → σ) {operation : Operation σ α}
    (yields : operation.Yields fun ending => fates ending.fate) :
    (guarded release operation).Yields fun ending => fates ending.fate := by
  induction operation with
  | done ending =>
      cases ending with
      | returned result => exact fun _ => yields
      | crashed => exact fun _ => yields
      | hung abandon => exact yields
  | act update next ih => exact fun world => ih world (yields world)
  | clock next ih => exact fun now => ih now (yields now)
  | pause ticks abandon next ih => exact ih yields

/-- What is done when an operation ends changes neither when it ends nor what it comes to. -/
theorem guarded_endsAt {fate : Fate α} {finish now : Nat} (release : σ → σ)
    {operation : Operation σ α}
    (ends : operation.EndsAt (fun ending => ending.fate = fate) finish now) :
    (guarded release operation).EndsAt (fun ending => ending.fate = fate) finish now := by
  induction operation generalizing now with
  | done ending =>
      cases ending with
      | returned result => exact fun _ => ends
      | crashed => exact fun _ => ends
      | hung abandon => exact ends
  | act update next ih => exact fun world => ih world (ends world)
  | clock next ih => exact ih now ends
  | pause ticks abandon next ih => exact ih ends

theorem expire_fits (overdue : Error) (abandon : σ → σ) (left : Nat) :
    (expire overdue abandon left : Job σ α).Fits left :=
  ⟨Nat.le_refl left, fun _ => trivial⟩

/-- An invocation waits no longer than its limit. -/
theorem within_fits (overdue : Error) (operation : Operation σ α) (left : Nat) :
    (operation.within overdue left).Fits left := by
  induction operation generalizing left with
  | done ending =>
      cases ending with
      | returned result => trivial
      | crashed => trivial
      | hung abandon => exact expire_fits overdue abandon left
  | act update next ih => exact fun world => ih world left
  | clock next ih => exact fun now => ih now left
  | pause ticks abandon next ih =>
      cases ticks with
      | zero => exact ih left
      | succ ticks =>
          rw [within]
          split
          · next enough => exact ⟨enough, ih _⟩
          · exact expire_fits overdue abandon left

/-- An invocation comes to what its operation comes to, or is overdue. -/
theorem within_yields {results : Except Error α → Prop} {overdue : Error}
    {operation : Operation σ α} (late : results (.error overdue))
    (yields : operation.Yields fun ending => results (ending.fate.verdict overdue))
    (left : Nat) : (operation.within overdue left).Yields results := by
  induction operation generalizing left with
  | done ending =>
      cases ending with
      | returned result => exact yields
      | crashed => exact yields
      | hung abandon => exact fun _ => late
  | act update next ih => exact fun world => ih world (yields world) left
  | clock next ih => exact fun now => ih now (yields now) left
  | pause ticks abandon next ih =>
      cases ticks with
      | zero => exact ih yields left
      | succ ticks =>
          rw [within]
          split
          · exact ih yields _
          · exact fun _ => late

/-- The invocation of a sincere operation does not claim to have been called off either. -/
theorem Sincere.within {operation : Operation σ α} (sincere : operation.Sincere)
    {overdue : Error} (other : overdue ≠ .cancelled) (left : Nat) :
    (operation.within overdue left).Yields fun result => result ≠ .error .cancelled := by
  refine within_yields (by simpa using other) (sincere.mono fun ending honest => ?_) left
  cases ending with
  | returned result => simpa [Ending.fate, Fate.verdict] using honest
  | crashed => simp [Ending.fate, Fate.verdict, Error.breakdown]
  | hung abandon => simpa [Ending.fate, Fate.verdict] using other

/-- The invocation of an operation that ends at a known instant. -/
theorem within_endsAt {fate : Fate α} {finish : Nat} (overdue : Error)
    {operation : Operation σ α} {now : Nat}
    (ends : operation.EndsAt (fun ending => ending.fate = fate) finish now) (left : Nat) :
    (operation.within overdue left).EndsAt
      (fun result => result =
        if finish ≤ now + left then fate.verdict overdue else .error overdue)
      (fate.endAt finish (now + left)) now := by
  induction operation generalizing now left with
  | done ending =>
      obtain ⟨rfl, rfl⟩ := ends
      cases ending with
      | returned result =>
          exact ⟨by simp [Ending.fate, Fate.endAt], by simp [Ending.fate, Fate.verdict]⟩
      | crashed =>
          exact ⟨by simp [Ending.fate, Fate.endAt], by simp [Ending.fate, Fate.verdict]⟩
      | hung abandon => exact fun _ => ⟨rfl, by simp [Ending.fate, Fate.verdict]⟩
  | act update next ih => exact fun world => ih world (ends world) left
  | clock next ih => exact ih now ends left
  | pause ticks abandon next ih =>
      cases ticks with
      | zero => exact ih ends left
      | succ ticks =>
          by_cases enough : ticks + 1 ≤ left
          · have total : now + (ticks + 1) + (left - (ticks + 1)) = now + left := by omega
            have later := ih ends (left - (ticks + 1))
            rw [total] at later
            rw [within, if_pos enough]
            exact later
          · rw [within, if_neg enough]
            intro world
            have late : now + (ticks + 1) ≤ finish := Activity.EndsAt.le world ends
            refine ⟨?_, ?_⟩
            · cases fate <;> simp only [Fate.endAt] <;> omega
            · rw [if_neg (by omega)]

/-- An operation that behaves in one way is reported in one way under a time limit, counted from
its own start. -/
theorem Behaves.within {operation : Operation σ α} {behaviour : Behaviour α}
    (behaves : operation.Behaves behaviour) (overdue : Error) (limit start : Nat) :
    ∃ finish, (operation.within overdue limit).EndsAt
      (fun result => result = behaviour.verdict overdue limit) finish start := by
  have ends := within_endsAt overdue (behaves start) limit
  simp only [Nat.add_le_add_iff_left] at ends
  exact ⟨_, ends⟩

end Operation

end ShardFleet
