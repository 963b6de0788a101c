import Mathlib.Data.List.Induction
import ShardFleet.Proofs.OrderedMap
import ShardFleet.Replica.Health

/-!
What a health record says after a history of reports.

A record is kept through a history of failures, successes, resets and passing time. It remembers
of an address the instant of its last failure, if nothing that concerns the address came later
(`lastFailure?_keep`); so an address is in good health exactly when the reports leave it in use
(`isHealthy_keep_iff`).
-/

namespace ShardFleet

/-- What happens to a health record: reports of its users, and the passing of time. -/
inductive HealthEvent where
  | failure (address : String)
  | success (address : String)
  | reset
  | advance (nanos : Nat)
  deriving DecidableEq, Repr, Inhabited

namespace HealthEvent

/-- The time that passes. -/
def span : HealthEvent → Nat
  | .advance nanos => nanos
  | _ => 0

/-- Whether an event has a say about an address: a report of it, or a reset. -/
def Concerns (address : String) : HealthEvent → Prop
  | .failure other | .success other => other = address
  | .reset => True
  | .advance _ => False

/-- The time that passes during a history. -/
def elapsed : List HealthEvent → Nat
  | [] => 0
  | event :: rest => event.span + elapsed rest

@[simp] theorem elapsed_nil : elapsed [] = 0 := rfl

@[simp] theorem elapsed_cons (event : HealthEvent) (rest : List HealthEvent) :
    elapsed (event :: rest) = event.span + elapsed rest := rfl

@[simp] theorem elapsed_append (before after : List HealthEvent) :
    elapsed (before ++ after) = elapsed before + elapsed after := by
  induction before with
  | nil => simp
  | cons event rest ih => simp [ih, Nat.add_assoc]

/-- The instant of a failure of an address that is the last event to concern it, in a history
that begins at the instant zero. -/
def LastFailed (history : List HealthEvent) (address : String) (failed : Nat) : Prop :=
  ∃ before after, history = before ++ .failure address :: after ∧
    (∀ event ∈ after, ¬ event.Concerns address) ∧ failed = elapsed before

/-- A history leaves an address in use if it has not failed since its last success or the last
reset, or if its latest failure is at least the delay ago. -/
def LeavesInUse (delay : Duration) (history : List HealthEvent) (address : String) : Prop :=
  ∀ before after, history = before ++ .failure address :: after →
    (∀ event ∈ after, ¬ event.Concerns address) → delay.nanos ≤ elapsed after

variable {address : String} {failed : Nat} {history : List HealthEvent}

theorem not_lastFailed_nil : ¬ LastFailed [] address failed := by
  rintro ⟨before, after, split, -⟩
  simp at split

/-- An event at the end of a history is the last failure of an address, or it leaves the last
failure as it was, or there is none any more. -/
theorem lastFailed_concat {event : HealthEvent} :
    LastFailed (history ++ [event]) address failed ↔
      event = .failure address ∧ failed = elapsed history ∨
        ¬ event.Concerns address ∧ LastFailed history address failed := by
  constructor
  · rintro ⟨before, after, split, quiet, rfl⟩
    rcases List.eq_nil_or_concat after with rfl | ⟨rest, last, rfl⟩
    · obtain ⟨rfl, same⟩ := List.append_inj' split rfl
      exact .inl ⟨by simpa using same, rfl⟩
    · have same : history ++ [event] = (before ++ .failure address :: rest) ++ [last] := by
        simpa using split
      obtain ⟨rfl, atEnd⟩ := List.append_inj' same rfl
      obtain rfl : event = last := by simpa using atEnd
      refine .inr ⟨quiet event (by simp), before, rest, rfl, fun other mem => ?_, rfl⟩
      exact quiet other (by simp [mem])
  · rintro (⟨rfl, rfl⟩ | ⟨apart, before, after, rfl, quiet, rfl⟩)
    · exact ⟨history, [], rfl, by simp, rfl⟩
    · refine ⟨before, after ++ [event], by simp, fun other mem => ?_, rfl⟩
      rcases List.mem_append.mp mem with earlier | last
      · exact quiet other earlier
      · rw [List.mem_singleton.mp last]
        exact apart

/-- The latest failure that stands is at least the delay ago, or there is none. -/
theorem leavesInUse_iff {delay : Duration} :
    LeavesInUse delay history address ↔
      ∀ failed, LastFailed history address failed → delay.nanos ≤ elapsed history - failed := by
  constructor
  · rintro inUse failed ⟨before, after, rfl, quiet, rfl⟩
    have since := inUse before after rfl quiet
    simp only [elapsed_append, elapsed_cons, span]
    omega
  · rintro old before after rfl quiet
    have since := old _ ⟨before, after, rfl, quiet, rfl⟩
    simp only [elapsed_append, elapsed_cons, span] at since
    omega

end HealthEvent

open HealthEvent

/-- A health record at an instant. -/
structure HealthWatch where
  health : Health
  now : Nat := 0

theorem Health.isHealthy_iff {health : Health} {now : Nat} {address : String} :
    health.isHealthy now address = true ↔
      ∀ failed, health.lastFailure? address = some failed →
        health.recoveryDelay.nanos ≤ now - failed := by
  simp only [isHealthy, Option.all_eq_true, hasRecovered, decide_eq_true_eq]

namespace HealthWatch

/-- The record after one event. -/
def step (watch : HealthWatch) : HealthEvent → HealthWatch
  | .failure address => { watch with health := watch.health.reportFailure address watch.now }
  | .success address => { watch with health := watch.health.reportSuccess address }
  | .reset => { watch with health := watch.health.reset }
  | .advance nanos => { watch with now := watch.now + nanos }

/-- The record of a history that begins at the instant zero with nothing failed. -/
def keep (delay : Duration) (history : List HealthEvent) : HealthWatch :=
  history.foldl step { health := .new delay }

theorem keep_concat (delay : Duration) (history : List HealthEvent) (event : HealthEvent) :
    keep delay (history ++ [event]) = (keep delay history).step event := by
  simp [keep]

@[simp] theorem now_step (watch : HealthWatch) (event : HealthEvent) :
    (watch.step event).now = watch.now + event.span := by
  cases event <;> rfl

@[simp] theorem recoveryDelay_step (watch : HealthWatch) (event : HealthEvent) :
    (watch.step event).health.recoveryDelay = watch.health.recoveryDelay := by
  cases event <;> rfl

variable {delay : Duration} {history : List HealthEvent} {address : String} {failed : Nat}

@[simp] theorem now_keep (delay : Duration) (history : List HealthEvent) :
    (keep delay history).now = elapsed history := by
  induction history using List.reverseRecOn with
  | nil => rfl
  | append_singleton history event ih => simp [keep_concat, ih]

@[simp] theorem recoveryDelay_keep (delay : Duration) (history : List HealthEvent) :
    (keep delay history).health.recoveryDelay = delay := by
  induction history using List.reverseRecOn with
  | nil => rfl
  | append_singleton history event ih => simp [keep_concat, ih]

/-- What one event does to what is remembered of an address. -/
theorem lastFailure?_step {watch : HealthWatch} {event : HealthEvent} :
    (watch.step event).health.lastFailure? address = some failed ↔
      event = .failure address ∧ failed = watch.now ∨
        ¬ event.Concerns address ∧ watch.health.lastFailure? address = some failed := by
  cases event with
  | failure other =>
      simp only [step, Health.reportFailure, Health.lastFailure?, OrderedMap.get?_insert,
        Concerns, HealthEvent.failure.injEq]
      by_cases same : address = other
      · simp [same, eq_comm]
      · simp [same, Ne.symm same]
  | success other =>
      have erased : (watch.health.failures.erase other).get? address = some failed ↔
          watch.health.failures.get? address = some failed ∧ address ≠ other := by
        simp [OrderedMap.erase, OrderedMap.get?_filter_eq_some]
      simp only [step, Health.reportSuccess, Health.lastFailure?, erased, Concerns]
      simp [eq_comm, and_comm]
  | reset =>
      have nothing : (OrderedMap.empty : OrderedMap String Nat).get? address = none := rfl
      simp [step, Health.reset, Health.lastFailure?, nothing, Concerns]
  | advance nanos => simp [step, Concerns]

/-- What is remembered of an address is the last event to concern it, if that is a failure. -/
theorem lastFailure?_keep :
    (keep delay history).health.lastFailure? address = some failed ↔
      LastFailed history address failed := by
  induction history using List.reverseRecOn with
  | nil =>
      have nothing : (keep delay []).health.lastFailure? address = none := rfl
      simp [nothing, not_lastFailed_nil]
  | append_singleton history event ih =>
      rw [keep_concat, lastFailure?_step, lastFailed_concat, now_keep, ih]

theorem isHealthy_keep_iff :
    (keep delay history).health.isHealthy (elapsed history) address = true ↔
      LeavesInUse delay history address := by
  simp only [Health.isHealthy_iff, recoveryDelay_keep, lastFailure?_keep, leavesInUse_iff]

end HealthWatch

end ShardFleet
