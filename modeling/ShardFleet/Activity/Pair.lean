import ShardFleet.Activity.Basic
import ShardFleet.Side

/-!
Two activities side by side as one activity.

At every instant at which the pair goes on, each of the two goes as far as it comes; then both
wait for the earlier of their wake-ups. The two take turns at going first: the left one at the
first instant, the right one at the next, and so on. Either may end the pair early with a result
that makes the other pointless: the other is given up where it waits, and if both were due it
does not go on any more.
-/

namespace ShardFleet

namespace Activity

variable {σ ρ τ γ : Type}

/-- The right activity at an instant at which both are due and it goes first. The left one has
`abandon` to do to the world if it is given up; `left` is how the pair goes on when its turn
comes, given what is then left of the right one. -/
def aheadOfLeft (stopRight : τ → Option γ) (abandon : σ → σ)
    (left : Activity σ τ → Activity σ γ) : Activity σ τ → Activity σ γ
  | .done result =>
      match stopRight result with
      | some verdict => .act abandon fun _ => .done verdict
      | none => left (.done result)
  | .act update next => .act update fun world => aheadOfLeft stopRight abandon left (next world)
  | .clock next => .clock fun now => aheadOfLeft stopRight abandon left (next now)
  | .pause 0 _ next => aheadOfLeft stopRight abandon left next
  | .pause (ticks + 1) abandonRight next => left (.pause (ticks + 1) abandonRight next)

/-- The right activity while the left one waits for `ticks` more; `first` goes first at the next
instant, and `left` is how the pair goes on once the left one wakes, given who goes first at the
instant after that and what is then left of the right one. -/
def besideWaiting (stopRight : τ → Option γ) (abandon : σ → σ)
    (left : Side → Activity σ τ → Activity σ γ) :
    Side → Activity σ τ → Nat → Activity σ γ
  | first, .done result, ticks =>
      match stopRight result with
      | some verdict => .act abandon fun _ => .done verdict
      | none => .pause ticks abandon (left first.other (.done result))
  | first, .act update next, ticks =>
      .act update fun world => besideWaiting stopRight abandon left first (next world) ticks
  | first, .clock next, ticks =>
      .clock fun now => besideWaiting stopRight abandon left first (next now) ticks
  | first, .pause 0 _ next, ticks => besideWaiting stopRight abandon left first next ticks
  | first, .pause (n + 1) abandonRight next, ticks =>
      if ticks < n + 1 then
        .pause ticks (abandonRight ∘ abandon)
          (left first.other (.pause (n + 1 - ticks) abandonRight next))
      else if n + 1 < ticks then
        .pause (n + 1) (abandonRight ∘ abandon)
          (besideWaiting stopRight abandon left first.other next (ticks - (n + 1)))
      else
        .pause ticks (abandonRight ∘ abandon)
          (match first with
          | .left => left first.other (.pause 0 abandonRight next)
          | .right => aheadOfLeft stopRight abandon (left first.other) next)

/-- The left activity at an instant at which its turn has come, before the right one's; `first`
goes first at the next instant. -/
def beside (stopLeft : ρ → Option γ) (stopRight : τ → Option γ) (both : ρ → τ → γ) :
    Activity σ ρ → Side → Activity σ τ → Activity σ γ
  | .done result, _, right =>
      match stopLeft result with
      | some verdict => .act right.abandonment fun _ => .done verdict
      | none => right.bind fun other => .done ((stopRight other).getD (both result other))
  | .act update next, first, right =>
      .act update fun world => beside stopLeft stopRight both (next world) first right
  | .clock next, first, right =>
      .clock fun now => beside stopLeft stopRight both (next now) first right
  | .pause 0 _ next, first, right => beside stopLeft stopRight both next first right
  | .pause (ticks + 1) abandon next, first, right =>
      besideWaiting stopRight abandon (beside stopLeft stopRight both next) first right (ticks + 1)

end Activity

namespace Job

variable {σ α β : Type}

/-- Both values of two jobs side by side, or the error of the first to fail. -/
def both (left : Job σ α) (right : Job σ β) : Job σ (α × β) :=
  Activity.beside
    (fun | .error error => some (.error error) | .ok _ => none)
    (fun | .error error => some (.error error) | .ok _ => none)
    (fun
      | .ok a, .ok b => .ok (a, b)
      | .error error, _ => .error error
      | _, .error error => .error error)
    left .right right

end Job

end ShardFleet
