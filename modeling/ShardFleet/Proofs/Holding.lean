import ShardFleet.Activity.Pair
import ShardFleet.Proofs.Invocation

/-!
Activities that take units of something and give them back.

A world shows how many units are held in it by all together (`held`). An activity holds some of
them itself (`Activity.Holds`): whatever others hold, its acts change the total by as much as they
change what it holds; given up where it waits, it gives back what it holds; and it ends with as
many as its result says. One that ends with none gives everything back (`Activity.Returns`),
however it ends: by itself (`Activity.Returns.run`), under a time limit
(`Operation.returns_within`), or beside another one (`Activity.returns_beside`).
-/

namespace ShardFleet

variable {σ α β ρ τ γ : Type} {held : Nat → σ → Prop} {left : ρ → Nat} {own other : Nat}

/-- Whatever others hold, `release` gives so many units back. -/
def GivesBack (held : Nat → σ → Prop) (own : Nat) (release : σ → σ) : Prop :=
  ∀ world others, held (own + others) world → held others (release world)

theorem givesBack_id : GivesBack held 0 id := fun _ others total => (Nat.zero_add others) ▸ total

namespace Activity

/-- The activity holds `own` units. Whatever others hold, each of its acts changes how many are
held in all by as much as it changes how many it holds itself. If it is given up where it waits it
gives its units back. It ends with as many as `left` says of its result. -/
def Holds (held : Nat → σ → Prop) (left : ρ → Nat) : Activity σ ρ → Nat → Prop
  | .done result, own => own = left result
  | .act update next, own => ∀ world others, held (own + others) world →
      ∃ after, held (after + others) (update world) ∧ (next world).Holds held left after
  | .clock next, own => ∀ now, (next now).Holds held left own
  | .pause _ abandon next, own => GivesBack held own abandon ∧ next.Holds held left own

/-- The activity holds `own` units and gives back all it has when it ends. -/
abbrev Returns (held : Nat → σ → Prop) (activity : Activity σ ρ) (own : Nat) : Prop :=
  activity.Holds held (fun _ => 0) own

variable {activity : Activity σ ρ}

theorem Holds.bind {between : ρ → Nat} {ends : τ → Nat} {next : ρ → Activity σ τ}
    (holds : activity.Holds held between own)
    (onward : ∀ result, (next result).Holds held ends (between result)) :
    (activity.bind next).Holds held ends own := by
  induction activity generalizing own with
  | done result => exact holds ▸ onward result
  | act update rest ih =>
      intro world others total
      obtain ⟨after, total, holds⟩ := holds world others total
      exact ⟨after, total, ih world holds⟩
  | clock rest ih => exact fun now => ih now (holds now)
  | pause ticks abandon rest ih => exact ⟨holds.1, ih holds.2⟩

/-- What a guard releases counts as held until then. -/
theorem Returns.guarded {release : σ → σ} (back : GivesBack held other release)
    (returns : activity.Returns held own) :
    (activity.guarded release).Returns held (own + other) := by
  induction activity generalizing own with
  | done result =>
      intro world others total
      obtain rfl : own = 0 := returns
      rw [Nat.zero_add] at total
      exact ⟨0, (Nat.zero_add others).symm ▸ back world others total, rfl⟩
  | act update next ih =>
      intro world others total
      rw [Nat.add_assoc] at total
      obtain ⟨after, total, holds⟩ := returns world (other + others) total
      exact ⟨after + other, (Nat.add_assoc _ _ _).symm ▸ total, ih world holds⟩
  | clock next ih => exact fun now => ih now (returns now)
  | pause ticks abandon next ih =>
      refine ⟨fun world others total => ?_, ih returns.2⟩
      rw [Nat.add_assoc] at total
      exact back _ others (returns.1 world (other + others) total)

/-! ### Running -/

/-- One instant of an activity changes the total by what it changes of its own. -/
theorem Holds.proceed {others : Nat} {world : σ} (holds : activity.Holds held left own)
    (total : held (own + others) world) (now : Nat) :
    ∃ after, held (after + others) (activity.proceed now world).1 ∧
      (activity.proceed now world).2.left.Holds held left after := by
  induction activity generalizing own world with
  | done result => exact ⟨own, total, holds⟩
  | act update next ih =>
      obtain ⟨after, total, holds⟩ := holds world others total
      exact ih world holds total
  | clock next ih => exact ih now (holds now) total
  | pause ticks abandon next ih =>
      cases ticks with
      | zero => exact ih holds.2 total
      | succ ticks => exact ⟨own, total, holds⟩

/-- Run on its own, to its end or until it is given up, an activity leaves what others hold. -/
theorem Returns.run {others : Nat} {moment : Moment σ} (returns : activity.Returns held own)
    (total : held (own + others) moment.world) : held others (activity.run moment).2.world := by
  induction activity generalizing own moment with
  | done result =>
      obtain rfl : own = 0 := returns
      exact Nat.zero_add others ▸ total
  | act update next ih =>
      obtain ⟨after, total, holds⟩ := returns moment.world others total
      exact @ih moment.world after { moment with world := update moment.world } holds total
  | clock next ih => exact ih moment.now (returns moment.now) total
  | pause ticks abandon next ih =>
      cases ticks with
      | zero => exact ih returns.2 total
      | succ ticks =>
          rw [Activity.run]
          split
          · exact returns.1 moment.world others total
          · exact @ih own (moment.moveTo _) returns.2 total

/-! ### Side by side -/

/-- The activity waits, has ended, or holds nothing: it may be given up as it stands. -/
structure Rests (held : Nat → σ → Prop) (activity : Activity σ ρ) (own : Nat) : Prop where
  returns : activity.Returns held own
  givenUp : GivesBack held own activity.abandonment

theorem Returns.rests (returns : activity.Returns held 0) : activity.Rests held 0 := by
  refine ⟨returns, ?_⟩
  cases activity with
  | pause ticks abandon next => exact returns.1
  | _ => exact givesBack_id

theorem rests_pause {ticks : Nat} {abandon : σ → σ} {next : Activity σ ρ}
    (back : GivesBack held own abandon) (returns : next.Returns held own) :
    (Activity.pause ticks abandon next).Rests held own :=
  ⟨⟨back, returns⟩, back⟩

/-- What is given up for good. -/
theorem returns_abandon {abandon : σ → σ} (back : GivesBack held own abandon) (result : ρ) :
    (Activity.act abandon fun _ => .done result).Returns held own :=
  fun world others total => ⟨0, (Nat.zero_add others).symm ▸ back world others total, rfl⟩

section Beside

variable {abandon : σ → σ} {stopRight : τ → Option γ} {right : Activity σ τ}

theorem givesBack_both {abandonRight : σ → σ} (back : GivesBack held own abandon)
    (also : GivesBack held other abandonRight) :
    GivesBack held (own + other) (abandonRight ∘ abandon) :=
  fun world others total =>
    also _ others (back world (other + others) (Nat.add_assoc _ _ _ ▸ total))

/-- An act of the right activity, while the left one holds its units. -/
theorem holds_beside_act {update : σ → σ} {next : σ → Activity σ τ} {pair : σ → Activity σ γ}
    (returns : (Activity.act update next).Returns held other)
    (onward : ∀ world other, (next world).Returns held other →
      (pair world).Returns held (own + other)) :
    (Activity.act update pair).Returns held (own + other) := by
  intro world others total
  rw [Nat.add_comm own, Nat.add_assoc] at total
  obtain ⟨after, total, holds⟩ := returns world (own + others) total
  refine ⟨own + after, ?_, onward world after holds⟩
  rwa [Nat.add_comm own, Nat.add_assoc]

theorem returns_aheadOfLeft {left : Activity σ τ → Activity σ γ}
    (back : GivesBack held own abandon)
    (onward : ∀ right other, Rests held right other → (left right).Returns held (own + other))
    (returns : right.Returns held other) :
    (aheadOfLeft stopRight abandon left right).Returns held (own + other) := by
  induction right generalizing other with
  | done result =>
      rw [aheadOfLeft]
      obtain rfl : other = 0 := returns
      cases stopRight result with
      | some verdict => exact returns_abandon back verdict
      | none => exact onward _ 0 (Returns.rests rfl)
  | act update next ih => exact holds_beside_act returns fun world _ => ih world
  | clock next ih => exact fun now => ih now (returns now)
  | pause ticks abandonRight next ih =>
      cases ticks with
      | zero => exact ih returns.2
      | succ ticks => exact onward _ other (rests_pause returns.1 returns.2)

theorem returns_besideWaiting {left : Side → Activity σ τ → Activity σ γ}
    (back : GivesBack held own abandon)
    (onward : ∀ side right other, Rests held right other →
      (left side right).Returns held (own + other))
    (returns : right.Returns held other) (first : Side) (ticks : Nat) :
    (besideWaiting stopRight abandon left first right ticks).Returns held (own + other) := by
  -- Both wait or have ended at every pause of the pair, so to give up the pair is to give up both.
  induction right generalizing other first ticks with
  | done result =>
      rw [besideWaiting]
      obtain rfl : other = 0 := returns
      cases stopRight result with
      | some verdict => exact returns_abandon back verdict
      | none => exact ⟨back, onward _ _ 0 (Returns.rests rfl)⟩
  | act update next ih => exact holds_beside_act returns fun world _ now => ih world now first ticks
  | clock next ih => exact fun now => ih now (returns now) first ticks
  | pause wait abandonRight next ih =>
      cases wait with
      | zero => exact ih returns.2 first ticks
      | succ wait =>
          have both := givesBack_both back returns.1
          have rest (wait : Nat) : Rests held (.pause wait abandonRight next) other :=
            rests_pause returns.1 returns.2
          unfold besideWaiting
          split
          · exact ⟨both, onward _ _ other (rest _)⟩
          · split
            · exact ⟨both, ih returns.2 _ _⟩
            · -- Both are due: the one whose turn it is goes on, and the other rests meanwhile.
              refine ⟨both, ?_⟩
              cases first with
              | left => exact onward _ _ other (rest _)
              | right => exact returns_aheadOfLeft back (onward _) returns.2

/-- Side by side, two activities give back what the two of them hold. -/
theorem returns_beside {stopLeft : ρ → Option γ} {both : ρ → τ → γ}
    (returns : activity.Returns held own) (rests : Rests held right other) (first : Side) :
    (beside stopLeft stopRight both activity first right).Returns held (own + other) := by
  induction activity generalizing own other right first with
  | done result =>
      rw [beside]
      obtain rfl : own = 0 := returns
      rw [Nat.zero_add]
      cases stopLeft result with
      | some verdict => exact returns_abandon rests.givenUp verdict
      | none => exact rests.returns.bind fun _ => rfl
  | act update next ih =>
      rw [Nat.add_comm]
      refine holds_beside_act returns fun world own returns => ?_
      rw [Nat.add_comm]
      exact ih world returns rests first
  | clock next ih => exact fun now => ih now (returns now) rests first
  | pause ticks abandon next ih =>
      cases ticks with
      | zero => exact ih returns.2 rests first
      | succ ticks =>
          exact returns_besideWaiting returns.1
            (fun side right other rests => ih returns.2 rests side) rests.returns first _

end Beside

end Activity

/-! ### Jobs -/

namespace Job

open Activity (Returns)

/-- What needs the value of a job takes over nothing from it. -/
theorem returns_bind {job : Job σ α} {next : α → Job σ β} (returns : Returns held job own)
    (onward : ∀ value, Returns held (next value) 0) :
    Returns held (job >>= next : Job σ β) own := by
  refine Activity.Holds.bind returns fun result => ?_
  cases result with
  | error error => exact rfl
  | ok value => exact onward value

theorem returns_look {view : σ → Except Error α} : Returns held (look view) 0 :=
  fun _ _ total => ⟨0, total, rfl⟩

theorem returns_change {update : σ → σ} (keeps : ∀ count world, held count world →
    held count (update world)) : Returns held (change update) 0 :=
  fun world _ total => ⟨0, keeps _ world total, rfl⟩

theorem returns_transact {f : σ → Except Error (σ × α)}
    (keeps : ∀ count world after value, f world = .ok (after, value) → held count world →
      held count after) : Returns held (transact f) 0 := by
  intro world others total
  refine ⟨0, ?_, rfl⟩
  dsimp only
  cases changes : f world with
  | error error => exact total
  | ok changed => exact keeps _ world changed.1 changed.2 changes total

theorem returns_sleep {span : Duration} : Returns held (sleep span : Job σ Unit) 0 :=
  ⟨givesBack_id, rfl⟩

theorem returns_adapt {f : Error → Error} {job : Job σ α} (returns : Returns held job own) :
    Returns held (ExceptT.adapt f job : Job σ α) own :=
  Activity.Holds.bind returns fun _ => rfl

/-- Two jobs side by side that hold nothing yet. -/
theorem returns_both {job : Job σ α} {another : Job σ β} (returns : Returns held job 0)
    (also : Returns held another 0) : Returns held (job.both another) 0 :=
  Activity.returns_beside returns (Activity.Returns.rests also) .right

/-- Performed on its own a job leaves what others hold. -/
theorem returns_perform {job : Job σ α} {others : Nat} {moment : Moment σ}
    (returns : Returns held job 0) (total : held others moment.world) :
    held others (job.perform moment).2.world :=
  Returns.run returns ((Nat.zero_add others).symm ▸ total)

end Job

/-! ### Under a time limit -/

namespace Operation

open Activity (Returns)

theorem returns_expire {abandon : σ → σ} (back : GivesBack held own abandon) (overdue : Error)
    (limit : Nat) : Returns held (expire overdue abandon limit : Job σ α) own :=
  ⟨back, Activity.returns_abandon back _⟩

/-- Also under a time limit a job gives back what it holds. -/
theorem returns_within {job : Job σ α} (returns : Returns held job own) (overdue : Error)
    (limit : Nat) : Returns held ((ofJob job).within overdue limit) own := by
  induction job generalizing own limit with
  | done result => exact returns
  | act update next ih =>
      intro world others total
      obtain ⟨after, total, returns⟩ := returns world others total
      exact ⟨after, total, ih world returns limit⟩
  | clock next ih => exact fun now => ih now (returns now) limit
  | pause ticks abandon next ih =>
      cases ticks with
      | zero => exact ih returns.2 limit
      | succ ticks =>
          change Returns held (if ticks + 1 ≤ limit then _ else _) own
          split
          · exact ⟨returns.1, ih returns.2 _⟩
          · exact returns_expire returns.1 overdue limit

end Operation

end ShardFleet
