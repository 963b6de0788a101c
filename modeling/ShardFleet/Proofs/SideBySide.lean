import ShardFleet.Activity.Pair
import ShardFleet.Proofs.Spending

/-!
Side by side in a world that looks the same throughout.

What a world shows to everyone can be taken for a part of it that nobody owns, so whoever tends it
leaves it as it is (`touchesOnly_shown_iff`). Two activities that leave it as it is do not disturb
each other: whichever goes first, and whichever waits longer, side by side they come to what they
come to alone (`Activity.Reads.beside`). So it is known of two jobs side by side which values they
come to, or else that one of them fails (`Job.both_assures`).
-/

namespace ShardFleet

variable {σ ν ρ τ γ α β : Type} {view : σ → ν} {met : ν} {owner : ShardId} {world : σ}

/-- What a world shows to everyone, as its part for each shard. -/
def shown (view : σ → ν) : ShardId → σ → ν := fun _ => view

/-- Nobody changes what is shown. -/
theorem touchesOnly_shown_iff {before after : σ} :
    TouchesOnly (shown view) owner before after ↔ view after = view before := by
  refine ⟨fun own => own ⟨owner.name ++ "'"⟩ fun same => ?_, fun same _ _ => same⟩
  have lengths := congrArg (fun id : ShardId => id.name.length) same
  simp at lengths

namespace Activity

/-- From this world on, what is shown is left as it is and the activity comes to one of the
results, if it is not given up. -/
abbrev Comes (view : σ → ν) (owner : ShardId) (results : ρ → Prop) (activity : Activity σ ρ)
    (world : σ) : Prop :=
  activity.Tends (shown view) owner (fun _ => True) (fun result _ => results result) world

/-- The activity does so from every world that shows what was met. -/
def Reads (view : σ → ν) (owner : ShardId) (met : ν) (results : ρ → Prop)
    (activity : Activity σ ρ) : Prop :=
  ∀ world, view world = met → activity.Comes view owner results world

section Beside

variable {stopRight : τ → Option γ} {abandon : σ → σ} {right : Activity σ τ}
  {rightResults : τ → Prop} {results : γ → Prop}

/-- An activity that waits goes on in the same way from every world that looks the same. -/
theorem Comes.reads {ticks : Nat} {next : Activity σ ρ} {found : ρ → Prop}
    (comes : (Activity.pause ticks abandon next).Comes view owner found world)
    (same : view world = met) (span : Nat) :
    (Activity.pause span abandon next).Reads view owner met found := by
  refine fun later alike => ⟨trivial, fun other still _ => comes.2 other ?_ trivial⟩
  exact (still.trans alike).trans same.symm

theorem Comes.givenUp {ticks : Nat} {next : Activity σ ρ} {found : ρ → Prop}
    (comes : (Activity.pause ticks abandon next).Comes view owner found world)
    (same : view world = met) (later : σ) (alike : view later = met) :
    view (abandon later) = view later :=
  touchesOnly_shown_iff.mp (comes.2 later (alike.trans same.symm) trivial).1.1

/-- Giving the other up leaves what is shown as it is. -/
theorem comes_abandoned {verdict : γ} (back : ∀ later, view later = met →
      view (abandon later) = view later) (same : view world = met) (fits : results verdict) :
    (Activity.act abandon fun _ => .done verdict).Comes view owner results world :=
  ⟨touchesOnly_shown_iff.mpr (back world same), fits⟩

theorem comes_aheadOfLeft {left : Activity σ τ → Activity σ γ}
    (stops : ∀ result verdict, rightResults result → stopRight result = some verdict →
      results verdict)
    (back : ∀ later, view later = met → view (abandon later) = view later)
    (onward : ∀ right : Activity σ τ, right.Reads view owner met rightResults →
      (left right).Reads view owner met results)
    (comes : right.Comes view owner rightResults world) (same : view world = met) :
    (aheadOfLeft stopRight abandon left right).Comes view owner results world := by
  induction right generalizing world with
  | done result =>
      rw [aheadOfLeft]
      cases stop : stopRight result with
      | some verdict => exact comes_abandoned back same (stops result verdict comes stop)
      | none => exact onward _ (fun _ _ => comes) world same
  | act update next ih =>
      have kept := touchesOnly_shown_iff.mp comes.1
      exact ⟨comes.1, ih world comes.2 (kept.trans same)⟩
  | clock next ih => exact fun now => ih now (comes now) same
  | pause ticks abandonRight next ih =>
      cases ticks with
      | zero => exact ih (comes.2 world rfl trivial).2 same
      | succ ticks => exact onward _ (comes.reads same _) world same

/-- The right activity while the left one waits, which goes on in the same way when it wakes. -/
theorem comes_besideWaiting {left : Side → Activity σ τ → Activity σ γ}
    (stops : ∀ result verdict, rightResults result → stopRight result = some verdict →
      results verdict)
    (back : ∀ later, view later = met → view (abandon later) = view later)
    (onward : ∀ (side : Side) (right : Activity σ τ), right.Reads view owner met rightResults →
      (left side right).Reads view owner met results)
    (comes : right.Comes view owner rightResults world) (same : view world = met) (first : Side)
    (ticks : Nat) :
    (besideWaiting stopRight abandon left first right ticks).Comes view owner results world := by
  -- A wait of both after which something goes on that reads what is shown.
  have waits {giveUp : σ → σ} {span : Nat} {next : Activity σ γ}
      (givenUp : ∀ later, view later = met → view (giveUp later) = view later)
      (goesOn : ∀ later, view later = met → next.Comes view owner results later)
      {world : σ} (same : view world = met) :
      (Activity.pause span giveUp next).Comes view owner results world := by
    refine ⟨trivial, fun later still _ => ?_⟩
    have alike : view later = met := Eq.trans still same
    exact ⟨⟨touchesOnly_shown_iff.mpr (givenUp later alike), trivial⟩, goesOn later alike⟩
  induction right generalizing world first ticks with
  | done result =>
      rw [besideWaiting]
      cases stop : stopRight result with
      | some verdict => exact comes_abandoned back same (stops result verdict comes stop)
      | none => exact waits back (onward _ _ fun _ _ => comes) same
  | act update next ih =>
      have kept := touchesOnly_shown_iff.mp comes.1
      exact ⟨comes.1, ih world comes.2 (kept.trans same) first ticks⟩
  | clock next ih => exact fun now => ih now (comes now) same first ticks
  | pause wait abandonRight next ih =>
      cases wait with
      | zero => exact ih (comes.2 world rfl trivial).2 same first ticks
      | succ wait =>
          have both : ∀ later, view later = met →
              view ((abandonRight ∘ abandon) later) = view later := by
            intro later alike
            have first := back later alike
            exact (comes.givenUp same _ (first.trans alike)).trans first
          have next_comes (later : σ) (alike : view later = met) :
              next.Comes view owner rightResults later :=
            (comes.2 later (alike.trans same.symm) trivial).2
          unfold besideWaiting
          split
          · exact waits both (onward _ _ (comes.reads same _)) same
          · split
            · exact waits both (fun later alike => ih (next_comes later alike) alike _ _) same
            · -- Both are due: the one whose turn it is goes on, and the other rests meanwhile.
              refine waits both ?_ same
              cases first with
              | left => exact onward _ _ (comes.reads same _)
              | right =>
                  exact fun later alike => comes_aheadOfLeft stops back (onward _)
                    (next_comes later alike) alike

/-- Side by side, two activities come to what they come to alone, or to what the first of them
stops the other with. -/
theorem Reads.beside {activity : Activity σ ρ} {stopLeft : ρ → Option γ} {both : ρ → τ → γ}
    {leftResults : ρ → Prop}
    (stopsLeft : ∀ result verdict, leftResults result → stopLeft result = some verdict →
      results verdict)
    (stopsRight : ∀ result verdict, rightResults result → stopRight result = some verdict →
      results verdict)
    (ends : ∀ result other, leftResults result → rightResults other → stopLeft result = none →
      stopRight other = none → results (both result other))
    (leftReads : activity.Reads view owner met leftResults)
    (rightReads : right.Reads view owner met rightResults) (first : Side) :
    (beside stopLeft stopRight both activity first right).Reads view owner met results := by
  intro world same
  have comes := leftReads world same
  clear leftReads
  induction activity generalizing world right first with
  | done result =>
      rw [Activity.beside]
      cases stop : stopLeft result with
      | some verdict =>
          refine comes_abandoned (fun later alike => ?_) same (stopsLeft result verdict comes stop)
          cases right with
          | pause ticks abandon next =>
              exact (rightReads later alike).givenUp alike later alike
          | _ => rfl
      | none =>
          refine tends_bind.mpr ((rightReads world same).mono fun other _ known => ?_)
          cases late : stopRight other with
          | some verdict => exact stopsRight other verdict known late
          | none => exact ends result other comes known stop late
  | act update next ih =>
      have kept := touchesOnly_shown_iff.mp comes.1
      exact ⟨comes.1, ih world rightReads first (update world) (kept.trans same) comes.2⟩
  | clock next ih => exact fun now => ih now rightReads first world same (comes now)
  | pause ticks abandon next ih =>
      cases ticks with
      | zero => exact ih rightReads first world same (comes.2 world rfl trivial).2
      | succ ticks =>
          refine comes_besideWaiting stopsRight (comes.givenUp same) (fun side other reads => ?_)
            (rightReads world same) same first _
          exact fun later alike => ih reads side later alike
            (comes.2 later (alike.trans same.symm) trivial).2

end Beside

end Activity

/-! ### Jobs -/

/-- The result is the value that is known to come, or else a failure that is no cancellation. -/
structure Fulfils (known : Option α) (result : Except Error α) : Prop where
  value : result.toOption = known
  sincere : result ≠ .error .cancelled

theorem Fulfils.ok (value : α) : Fulfils (some value) (.ok value) := ⟨rfl, nofun⟩

theorem Fulfils.error {error : Error} (sincere : error ≠ .cancelled) :
    Fulfils none (.error error : Except Error α) :=
  ⟨rfl, fun same => sincere (Except.error.inj same)⟩

theorem Fulfils.eq_ok_iff {known : Option α} {result : Except Error α} {value : α}
    (fulfils : Fulfils known result) : result = .ok value ↔ known = some value := by
  obtain ⟨rfl, -⟩ := fulfils
  cases result <;> simp [Except.toOption]

theorem Fulfils.exists_error_iff {known : Option α} {result : Except Error α}
    (fulfils : Fulfils known result) : (∃ error, result = .error error) ↔ known = none := by
  obtain ⟨rfl, -⟩ := fulfils
  cases result <;> simp [Except.toOption]

theorem Fulfils.mapError {known : Option α} {result : Except Error α} {f : Error → Error}
    (fulfils : Fulfils known result) (keeps : ∀ error, error ≠ .cancelled → f error ≠ .cancelled) :
    Fulfils known (result.mapError f) := by
  obtain ⟨rfl, sincere⟩ := fulfils
  cases result with
  | ok value => exact .ok value
  | error error => exact .error (keeps error fun same => sincere (congrArg _ same))

theorem Fulfils.map {known : Option α} {result : Except Error α} {f : α → β}
    (fulfils : Fulfils known result) : Fulfils (known.map f) (result.map f) := by
  obtain ⟨rfl, sincere⟩ := fulfils
  cases result with
  | ok value => exact .ok (f value)
  | error error => exact .error fun same => sincere (congrArg _ same)

theorem Job.Assures.map {known : Option α} {job : Job σ α}
    (assures : job.Assures (shown view) owner met (Fulfils known)) (f : α → β) :
    Job.Assures (shown view) owner met (Fulfils (known.map f)) (do return f (← job)) := by
  refine fun world same => Job.tends_bind.mpr ((assures world same).mono fun result _ fulfils => ?_)
  cases result with
  | ok value => exact fulfils.map
  | error error => exact fulfils.map

/-- Side by side two jobs come to both values, if both are known to come. -/
theorem Job.both_assures {left : Job σ α} {right : Job σ β} {known : Option α} {also : Option β}
    (first : left.Assures (shown view) owner met (Fulfils known))
    (second : right.Assures (shown view) owner met (Fulfils also)) :
    (left.both right).Assures (shown view) owner met
      (Fulfils (known.bind fun a => also.map fun b => (a, b))) := by
  refine Activity.Reads.beside ?_ ?_ ?_ first second .right
  · rintro (error | value) verdict ⟨rfl, sincere⟩ stops
    · cases stops
      exact .error fun same => sincere (congrArg _ same)
    · cases stops
  · rintro (error | value) verdict ⟨rfl, sincere⟩ stops
    · cases stops
      refine ⟨?_, fun same => sincere (congrArg _ (Except.error.inj same))⟩
      cases known <;> rfl
    · cases stops
  · rintro (error | a) (other | b) ⟨rfl, -⟩ ⟨rfl, -⟩ goesOn alsoGoesOn
    · cases goesOn
    · cases goesOn
    · cases alsoGoesOn
    · exact .ok (a, b)

end ShardFleet
