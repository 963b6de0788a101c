import ShardFleet.Activity.Run

/-!
Activities that end at once.

From some worlds an activity comes to its end without a wait (`Activity.Brings`). Nothing that
others do can come between, nor can it be given up, so it is known what it leaves and what it
results in whenever it is run (`Activity.Brings.run`, `Job.perform_of_brings`).
-/

namespace ShardFleet

namespace Activity

variable {σ ρ τ : Type} {activity : Activity σ ρ} {next : ρ → Activity σ τ}
  {world between after : σ} {result : ρ}

/-- Begun in a world, ends at the same instant with the result and leaves the world as `after`. -/
def Brings (result : ρ) (after : σ) : Activity σ ρ → σ → Prop
  | .done other, world => other = result ∧ world = after
  | .act update next, world => (next world).Brings result after (update world)
  | .clock next, world => ∀ now, (next now).Brings result after world
  | .pause ticks _ next, world => ticks = 0 ∧ next.Brings result after world

theorem Brings.bind {other : τ} (first : activity.Brings result between world)
    (second : (next result).Brings other after between) :
    (activity.bind next).Brings other after world := by
  induction activity generalizing world with
  | done =>
      obtain ⟨rfl, rfl⟩ := first
      exact second
  | act update rest ih => exact ih world first
  | clock rest ih => exact fun now => ih now (first now)
  | pause ticks abandon rest ih => exact ⟨first.1, ih first.2⟩

/-- What is released at the end is released at once. -/
theorem Brings.guarded (brings : activity.Brings result after world) (release : σ → σ) :
    (activity.guarded release).Brings result (release after) world := by
  induction activity generalizing world with
  | done =>
      obtain ⟨rfl, rfl⟩ := brings
      exact ⟨rfl, rfl⟩
  | act update rest ih => exact ih world brings
  | clock rest ih => exact fun now => ih now (brings now)
  | pause ticks abandon rest ih => exact ⟨brings.1, ih brings.2⟩

theorem Brings.run {moment : Moment σ} (brings : activity.Brings result after moment.world) :
    activity.run moment = (some result, { moment with world := after }) := by
  induction activity generalizing moment with
  | done =>
      obtain ⟨rfl, rfl⟩ := brings
      rfl
  | act update rest ih => exact @ih moment.world { moment with world := update moment.world } brings
  | clock rest ih => exact ih moment.now (brings moment.now)
  | pause ticks abandon rest ih =>
      obtain ⟨rfl, onward⟩ := brings
      exact ih onward

end Activity

namespace Job

open Activity (Brings)

variable {σ α β : Type} {job : Job σ α} {next : α → Job σ β} {world between after : σ}
  {result : Except Error α} {value : α} {error : Error}

theorem brings_bind {other : Except Error β} (first : Brings (.ok value) between job world)
    (second : Brings other after (next value) between) :
    Brings other after (job >>= next : Job σ β) world :=
  Brings.bind first second

theorem brings_bind_error (first : Brings (.error error) after job world) :
    Brings (.error error) after (job >>= next : Job σ β) world :=
  Brings.bind first ⟨rfl, rfl⟩

theorem brings_look {view : σ → Except Error α} (seen : view world = result) :
    Brings result world (look view) world :=
  ⟨seen, rfl⟩

theorem brings_change {update : σ → σ} : Brings (.ok ()) (update world) (change update) world :=
  ⟨rfl, rfl⟩

theorem brings_transact {f : σ → Except Error (σ × α)} (changes : f world = .ok (after, value)) :
    Brings (.ok value) after (transact f) world := by
  simp [transact, Activity.Brings, changes, Except.map, Except.toOption]

/-- Where it fails nothing is changed. -/
theorem brings_transact_error {f : σ → Except Error (σ × α)} (fails : f world = .error error) :
    Brings (.error error) world (transact f) world := by
  simp [transact, Activity.Brings, fails, Except.map, Except.toOption]

theorem brings_sleep {span : Duration} (none : span.sleepTicks = 0) :
    Brings (.ok ()) world (sleep span) world :=
  ⟨none, rfl, rfl⟩

theorem perform_of_brings {moment : Moment σ} (brings : Brings result after job moment.world) :
    job.perform moment = (result, { moment with world := after }) := by
  unfold Job.perform
  rw [Timed.bind_apply, Brings.run brings]
  rfl

end Job

end ShardFleet
