import ShardFleet.Error

/-!
Activities on a shared world, in virtual time.

An activity is a tree: it ends with a result, changes the world in one indivisible act, reads the
clock, or pauses. Everything between two pauses happens at one instant. A pause says what
becomes of the world if the activity is given up there, so whoever stops an activity midway leaves
the world as its owner wants it (`Activity.guarded`). An activity is not told that it is to be given
up, and whoever makes one does nothing to the world by that. Activities are finite, hence every
function on them is a structural recursion.
-/

namespace ShardFleet

/-- An activity on a world `σ` that ends with a `ρ`. -/
inductive Activity (σ ρ : Type) where
  | done (result : ρ)
  /-- Changes the world; what follows depends on the world as it was before. -/
  | act (update : σ → σ) (next : σ → Activity σ ρ)
  /-- Reads the clock. -/
  | clock (next : Nat → Activity σ ρ)
  /-- Waits; `abandon` is done to the world if the activity is given up meanwhile. -/
  | pause (ticks : Nat) (abandon : σ → σ) (next : Activity σ ρ)

namespace Activity

variable {σ ρ τ : Type}

/-- Continues with an activity that depends on the result. -/
def bind (activity : Activity σ ρ) (next : ρ → Activity σ τ) : Activity σ τ :=
  match activity with
  | .done result => next result
  | .act update rest => .act update fun world => (rest world).bind next
  | .clock rest => .clock fun now => (rest now).bind next
  | .pause ticks abandon rest => .pause ticks abandon (rest.bind next)

instance : Monad (Activity σ) where
  pure := .done
  bind := bind

/-- What giving up an activity does to the world. Only an activity that waits has anything to
leave in order. -/
def abandonment : Activity σ ρ → σ → σ
  | .pause _ abandon _ => abandon
  | _ => id

/-- Does `release` to the world when the activity ends, and when it is given up. -/
def guarded (release : σ → σ) : Activity σ ρ → Activity σ ρ
  | .done result => .act release fun _ => .done result
  | .act update next => .act update fun world => (next world).guarded release
  | .clock next => .clock fun now => (next now).guarded release
  | .pause ticks abandon next => .pause ticks (release ∘ abandon) (next.guarded release)

/-! ### One instant -/

/-- Where an activity stands when it can go no further at this instant. -/
inductive Halt (σ ρ : Type) where
  | ended (result : ρ)
  | asleep (ticks : Nat) (abandon : σ → σ) (rest : Activity σ ρ)

/-- Runs an activity as far as it comes at the instant `now`. -/
def proceed (now : Nat) : Activity σ ρ → σ → σ × Halt σ ρ
  | .done result, world => (world, .ended result)
  | .act update next, world => (next world).proceed now (update world)
  | .clock next, world => (next now).proceed now world
  | .pause 0 _ next, world => next.proceed now world
  | .pause (ticks + 1) abandon next, world => (world, .asleep (ticks + 1) abandon next)

end Activity

/-- An activity that may fail. -/
abbrev Job (σ α : Type) := ExceptT Error (Activity σ) α

namespace Job

variable {σ α : Type}

/-- Looks at the world for a value or an error. -/
def look (view : σ → Except Error α) : Job σ α := .act id fun world => .done (view world)

/-- Changes the world. -/
def change (update : σ → σ) : Job σ Unit := .act update fun _ => .done (.ok ())

/-- Changes the world and brings a value, or fails and leaves the world as it is. -/
def transact (f : σ → Except Error (σ × α)) : Job σ α :=
  .act (fun world => ((f world).map Prod.fst).toOption.getD world) fun world =>
    .done ((f world).map Prod.snd)

/-- Tells the time. -/
def time : Job σ Nat := .clock fun now => .done (.ok now)

/-- Waits. -/
def sleep (span : Duration) : Job σ Unit := .pause span.sleepTicks id (.done (.ok ()))

end Job

end ShardFleet
