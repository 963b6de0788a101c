import ShardFleet.Activity.Run

/-!
Operations on a shard, and their invocation under a time limit.

Left to itself an operation returns, breaks down, or hangs until it is given up. Under a limit
it always ends: what is still waiting when the limit is reached is given up and reported as
overdue, and a breakdown is reported as an internal error. An operation that ends at the very
instant of its limit ends as it ends.
-/

namespace ShardFleet

/-- What an operation comes to, left to itself. -/
inductive Ending (σ α : Type) where
  | returned (result : Except Error α)
  /-- It broke down without a result. -/
  | crashed
  /-- It waits to be given up, which does `abandon` to the world. -/
  | hung (abandon : σ → σ)

/-- An operation on a shard. -/
abbrev Operation (σ α : Type) := Activity σ (Ending σ α)

namespace Operation

variable {σ α : Type}

/-- A job as an operation. -/
def ofJob (job : Job σ α) : Operation σ α := Activity.bind job fun result =>
  .done (.returned result)

/-- Does `release` to the world when the operation ends, and when it is given up. -/
def guarded (release : σ → σ) : Operation σ α → Operation σ α
  | .done (.hung abandon) => .done (.hung (release ∘ abandon))
  | .done ending => .act release fun _ => .done ending
  | .act update next => .act update fun world => guarded release (next world)
  | .clock next => .clock fun now => guarded release (next now)
  | .pause ticks abandon next => .pause ticks (release ∘ abandon) (guarded release next)

/-- Waits for what is left of the limit, then gives up. -/
def expire (overdue : Error) (abandon : σ → σ) (left : Nat) : Job σ α :=
  (Activity.pause left abandon (.act abandon fun _ => .done (.error overdue)) :
    Activity σ (Except Error α))

/-- An operation with `left` ticks to its limit. -/
def within (overdue : Error) (operation : Operation σ α) (left : Nat) : Job σ α :=
  match operation with
  | .done (.returned result) => (.done result : Activity σ (Except Error α))
  | .done .crashed => (.done (.error .breakdown) : Activity σ (Except Error α))
  | .done (.hung abandon) => expire overdue abandon left
  | .act update next =>
      (.act update fun world => within overdue (next world) left : Activity σ (Except Error α))
  | .clock next => (.clock fun now => within overdue (next now) left : Activity σ (Except Error α))
  | .pause 0 _ next => within overdue next left
  | .pause (ticks + 1) abandon next =>
      if ticks + 1 ≤ left then
        (.pause (ticks + 1) abandon (within overdue next (left - (ticks + 1))) :
          Activity σ (Except Error α))
      else expire overdue abandon left

end Operation

end ShardFleet
