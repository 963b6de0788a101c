import ShardFleet.Proofs.Replica.Reports

/-!
What a health record shows of an address, at any instant after its reports.

All views are read off one instant: that of the failure which is the last event to concern the
address, if there is one. The address is out of use until the recovery delay has passed since then
(`isHealthy_eq_false_iff`), and stays in use from there until it fails again
(`isHealthy_until_failure`).
-/

namespace ShardFleet

open HealthEvent

namespace Health

variable {health : Health} {now : Nat} {address : String}

/-- An address is out of use if what is remembered of it is a failure less than the delay ago. -/
theorem isHealthy_eq_false_iff :
    health.isHealthy now address = false ↔
      ∃ failed, health.lastFailure? address = some failed ∧
        now - failed < health.recoveryDelay.nanos := by
  rw [← Bool.not_eq_true, isHealthy_iff]
  simp only [not_forall, Nat.not_le, exists_prop]

theorem state_eq_unhealthy_iff :
    health.state now address = .unhealthy ↔ health.isHealthy now address = false := by
  unfold state
  cases health.isHealthy now address <;> simp

/-- The addresses that are listed as out of use are those that are. -/
theorem mem_unhealthy :
    address ∈ health.unhealthy now ↔ health.isHealthy now address = false := by
  rw [isHealthy_eq_false_iff, unhealthy, OrderedMap.mem_keys]
  simp [OrderedMap.get?_filter_eq_some, lastFailure?, hasRecovered]

end Health

namespace HealthWatch

variable {watch : HealthWatch} {event : HealthEvent} {later : List HealthEvent} {address : String}

/-- Nothing but a failure of an address takes it out of use. -/
theorem isHealthy_step (other : event ≠ .failure address)
    (inUse : watch.health.isHealthy watch.now address = true) :
    (watch.step event).health.isHealthy (watch.step event).now address = true := by
  rw [Health.isHealthy_iff] at inUse ⊢
  intro failed remembered
  rcases lastFailure?_step.mp remembered with ⟨same, -⟩ | ⟨-, before⟩
  · exact absurd same other
  · rw [recoveryDelay_step, now_step]
    have passed := inUse failed before
    omega

/-- An address in use stays in use until it fails. -/
theorem isHealthy_until_failure (unfailed : .failure address ∉ later)
    (inUse : watch.health.isHealthy watch.now address = true) :
    (later.foldl step watch).health.isHealthy (later.foldl step watch).now address = true := by
  induction later generalizing watch with
  | nil => exact inUse
  | cons event rest ih =>
      rw [List.mem_cons, not_or] at unfailed
      obtain ⟨other, onward⟩ := unfailed
      apply ih onward
      exact isHealthy_step (Ne.symm other) inUse

/-- The last event to concern an address is a failure, at an instant less than the delay ago. -/
def FailedLately (delay : Duration) (history : List HealthEvent) (now : Nat) (address : String) :
    Prop :=
  ∃ failed, LastFailed history address failed ∧ now - failed < delay.nanos

/-- What a record shows of an address at an instant: it is out of use exactly if it failed lately,
its state and the list of addresses say the same, and the failure is remembered however long ago it
is. -/
structure Shows (delay : Duration) (history : List HealthEvent) (health : Health) (now : Nat)
    (address : String) : Prop where
  outOfUse : health.isHealthy now address = false ↔ FailedLately delay history now address
  state : health.state now address = .unhealthy ↔ FailedLately delay history now address
  listed : address ∈ health.unhealthy now ↔ FailedLately delay history now address
  lastFailure : ∀ failed, health.lastFailure? address = some failed ↔
    LastFailed history address failed

theorem shows_keep (delay : Duration) (history : List HealthEvent) (now : Nat) (address : String) :
    Shows delay history (keep delay history).health now address := by
  have outOfUse : (keep delay history).health.isHealthy now address = false ↔
      FailedLately delay history now address := by
    simp only [Health.isHealthy_eq_false_iff, lastFailure?_keep, recoveryDelay_keep, FailedLately]
  exact { outOfUse
          state := Health.state_eq_unhealthy_iff.trans outOfUse
          listed := Health.mem_unhealthy.trans outOfUse
          lastFailure := fun _ => lastFailure?_keep }

/-- After any history of reports, and any time that passes since, all views of an address agree
with the last event to concern it, and the list of the addresses out of use has each of them once,
in ascending order. An address that is in use then stays in use until it fails. -/
theorem views_follow_reports (delay : Duration) (history : List HealthEvent) (wait : Nat) :
    let health := (keep delay history).health
    let now := elapsed history + wait
    (∀ address, Shows delay history health now address) ∧
    (health.unhealthy now).Pairwise (fun a b => compare a b = .lt) ∧
    ∀ address later, health.isHealthy now address = true → .failure address ∉ later →
      let whole := history ++ .advance wait :: later
      (keep delay whole).health.isHealthy (elapsed whole) address = true := by
  intro health now
  refine ⟨shows_keep delay history now, OrderedMap.keys_ascending _, ?_⟩
  intro address later inUse unfailed whole
  -- What comes later starts at the instant of the views, so the wait is one more event before it.
  let waited := (keep delay history).step (.advance wait)
  have instant : waited.now = now := by rw [now_step, now_keep]; rfl
  have onward : keep delay whole = later.foldl step waited := by
    rw [keep, List.foldl_append, List.foldl_cons]
    rfl
  rw [← now_keep delay whole, onward]
  exact isHealthy_until_failure unfailed (instant ▸ inUse)

end HealthWatch

end ShardFleet
