import Mathlib.Algebra.Order.Ring.Nat
import Mathlib.Data.Finset.Card
import ShardFleet.Proofs.Intent.Queues

/-!
What courses may still cost.

Steps are paid for in advance. A step that gives a turn takes a place in the queue away, which is
worth 62: one more than the turns of a batch, since each of these saves a unit for the recess after
it. A timer, and a task that has asked for another turn, are worth 123, a place in the queue and a
step that leads to it. A wait costs 183 at first, and when it ends there is a unit left of that;
so the waits that end in one turn pay for the other turn that is asked for after so many of them.

`Flow.adds_courses` says what a body costs at first, and `Strand.Goes.pays` that a strand pays for
what it does in a turn.
-/

namespace ShardFleet

/-! ### Courses -/

/-- A course costs no more than this, whatever it finds. -/
def Course.Costs : Course → Nat → Prop
  | .ended _, _ => True
  | .act _ next, cost => ∀ contexts, (next contexts).Costs cost
  | .sleep _ next, cost => ∃ rest, next.Costs rest ∧ rest + 183 ≤ cost
  | .spawn body next, cost =>
      ∃ inner rest, body.Costs inner ∧ (∀ shown, (next shown).Costs rest) ∧
        inner + rest + 183 ≤ cost
  | .join left right next, cost =>
      ∃ one other rest, left.Costs one ∧ right.Costs other ∧
        (∀ shown shown', (next shown shown').Costs rest) ∧ one + other + rest ≤ cost

namespace Course

variable {course : Course} {cost more : Nat}

theorem Costs.mono (costs : course.Costs cost) (le : cost ≤ more) : course.Costs more := by
  induction course with
  | ended shown => trivial
  | act update next ih => exact fun contexts => ih contexts (costs contexts)
  | sleep ticks next =>
      obtain ⟨rest, after, fits⟩ := costs
      exact ⟨rest, after, Nat.le_trans fits le⟩
  | spawn body next =>
      obtain ⟨inner, rest, inside, after, fits⟩ := costs
      exact ⟨inner, rest, inside, after, Nat.le_trans fits le⟩
  | join left right next =>
      obtain ⟨one, other, rest, onLeft, onRight, after, fits⟩ := costs
      exact ⟨one, other, rest, onLeft, onRight, after, Nat.le_trans fits le⟩

/-- A body costs no more than this on top of what follows it. -/
def Adds (body : (List Transcript → Course) → Course) (price : Nat) : Prop :=
  ∀ next rest, (∀ shown, (next shown).Costs rest) → (body next).Costs (price + rest)

variable {body : (List Transcript → Course) → Course} {price : Nat}

/-- A scope costs nothing. -/
theorem Adds.underScope (adds : Adds body price) (number : Nat) (intent : Intent) :
    Adds (underScope number intent body) price :=
  fun _ rest after _ => adds _ rest fun shown _ => after shown

theorem Adds.underScopes (adds : Adds body price) (number : Nat) (intents : List Intent) :
    Adds (underScopes number body intents) price := by
  induction intents with
  | nil => exact adds
  | cons intent others ih => exact ih.underScope number intent

end Course

namespace Flow

mutual

/-- An action costs a wait at most. -/
theorem costs_course (flow : Flow) (ambient : Option Nat) (next : Transcript → Course) (rest : Nat)
    (after : ∀ shown, (next shown).Costs rest) :
    (flow.course ambient next).Costs (183 * flow.size + rest) := by
  have fits : ∀ body, 183 * sizes body + rest ≤ 183 * (sizes body + 1) + rest := fun body => by
    omega
  have nothing : ∀ shown, (Course.ended shown).Costs 0 := fun _ => trivial
  match flow with
  | .observe => exact fun contexts => (after _).mono (Nat.le_add_left ..)
  | .withIntent intent body =>
      intro before
      have inside := (adds_courses body (some before.byNumber.length)).underScope
        before.byNumber.length intent
      exact (inside _ rest fun shown => after (.body shown)).mono (fits body)
  | .scoped intents body =>
      intro before
      have inside := (adds_courses body (some before.byNumber.length)).underScopes
        before.byNumber.length intents
      refine (inside _ rest fun shown => ?_).mono (fits body)
      exact fun contexts => after _
  | .push intent body =>
      match ambient with
      | none => exact (after .noContext).mono (Nat.le_add_left ..)
      | some number =>
          have inside := (adds_courses body (some number)).underScope number intent
          exact (inside _ rest fun shown => after (.body shown)).mono (fits body)
  | .sleep span => exact ⟨rest, after .slept, Nat.le_of_eq (Nat.add_comm ..)⟩
  | .join left right =>
      refine ⟨_, _, rest, adds_courses left _ _ 0 nothing, adds_courses right _ _ 0 nothing,
        fun _ _ => after _, ?_⟩
      rw [size]
      omega
  | .spawn body =>
      refine ⟨_, rest, adds_courses body _ _ 0 nothing, fun _ => after _, ?_⟩
      rw [size]
      omega
  termination_by structural flow

/-- A body costs a wait for each of its actions at most. -/
theorem adds_courses (flows : List Flow) (ambient : Option Nat) :
    Course.Adds (courses ambient flows) (183 * sizes flows) := by
  intro next rest after
  match flows with
  | [] => exact (after []).mono (Nat.le_add_left ..)
  | flow :: others =>
      refine (costs_course flow ambient _ _ fun shown =>
        adds_courses others ambient _ rest fun shown' => after (shown :: shown')).mono ?_
      rw [sizes]
      omega
  termination_by structural flows

end

end Flow

/-! ### Strands -/

/-- What the queue and the timers are worth. -/
def Schedule.load (schedule : Schedule) : Nat :=
  62 * schedule.queue.card + 123 * schedule.timers.length

/-- A strand costs no more than this, whatever it finds. -/
def Strand.Costs : Strand → Nat → Prop
  | .fresh course, cost => course.Costs cost
  | .ended _, _ => True
  | .asleep _ timed next, cost => ∃ rest, next.Costs rest ∧ rest + (if timed then 1 else 124) ≤ cost
  | .awaiting _ next, cost => ∃ rest, (∀ shown, (next shown).Costs rest) ∧ rest + 1 ≤ cost
  | .paired _ left right next, cost =>
      ∃ one other rest, left.Costs one ∧ right.Costs other ∧
        (∀ shown shown', (next shown shown').Costs rest) ∧ one + other + rest ≤ cost

/-- What the strand of a task costs, with a place in the queue for its parent. -/
def Strand.Bills (strand : Strand) (cost : Nat) : Prop :=
  ∃ rest, strand.Costs rest ∧ rest + (if strand.result?.isSome then 0 else 62) ≤ cost

/-- Each task costs no more than is on the bill. -/
structure Schedule.Billed (schedule : Schedule) (bill : List Nat) : Prop where
  length : bill.length = schedule.tasks.length
  tasks : ∀ task strand cost, schedule.strand? (some task) = some strand →
    bill[task]? = some cost → strand.Bills cost

namespace Schedule.Billed

variable {schedule later : Schedule} {bill : List Nat}

/-- Where no task is spawned. -/
theorem keep (billed : schedule.Billed bill) (onward : schedule.Onward later)
    (same : later.tasks.length = schedule.tasks.length) : later.Billed bill where
  length := billed.length.trans same.symm
  tasks task strand cost found known := by
    rcases onward.strand?_or found with old | ⟨new, -⟩
    · exact billed.tasks task strand cost old known
    · exact absurd (same ▸ strand?_lt found) (Nat.not_lt_of_le new)

/-- A task is spawned, and put on the bill. -/
theorem spawn (billed : schedule.Billed bill) (parent : Option Nat) {body : Course} {cost : Nat}
    (costs : body.Costs cost) :
    (Schedule.spawn parent body schedule).2.Billed (bill ++ [cost + 62]) where
  length := by simp [billed.length]
  tasks task strand cost' found known := by
    rcases strand?_spawn_or found with old | ⟨rfl, rfl⟩
    · rw [List.getElem?_append_left (billed.length ▸ strand?_lt old)] at known
      exact billed.tasks task strand cost' old known
    · rw [← billed.length, List.getElem?_concat_length] at known
      obtain rfl := Option.some.inj known
      exact ⟨cost, costs, Nat.le_refl _⟩

end Schedule.Billed

theorem Schedule.load_spawn_le (parent : Option Nat) (body : Course) (schedule : Schedule) :
    (Schedule.spawn parent body schedule).2.load ≤ schedule.load + 62 := by
  have queued : (Schedule.spawn parent body schedule).2.queue.card ≤ schedule.queue.card + 1 :=
    (Finset.card_le_card (queue_rouse_subset _ _)).trans (Finset.card_insert_le ..)
  rw [load, load, spawn_timers]
  omega

namespace Strand

variable {strand strand' left right left' right' : Strand} {schedule between later : Schedule}

/-- A strand pays for what it does in its turn. -/
def Pays (strand : Strand) (schedule : Schedule) (strand' : Strand) (later : Schedule) : Prop :=
  ∀ cost bill, strand.Costs cost → schedule.Billed bill →
    ∃ cost' more, strand'.Costs cost' ∧ later.Billed (bill ++ more) ∧
      cost' + more.sum + later.load + schedule.allowance ≤ cost + schedule.load + later.allowance

/-- A strand that goes on only as far as it has come. -/
theorem Pays.stay (onward : schedule.Onward later)
    (tasks : later.tasks.length = schedule.tasks.length)
    (pays : ∀ cost, strand.Costs cost → ∃ cost', strand'.Costs cost' ∧
      cost' + later.load + schedule.allowance ≤ cost + schedule.load + later.allowance) :
    Pays strand schedule strand' later := by
  intro cost bill costs billed
  obtain ⟨cost', costs', paid⟩ := pays cost costs
  refine ⟨cost', [], costs', ?_, by simpa using paid⟩
  rw [List.append_nil]
  exact billed.keep onward tasks

/-- A strand that goes on after something for which it pays. -/
theorem Pays.after {next : Strand} (goes : Pays next between strand' later)
    (onward : schedule.Onward between) (tasks : between.tasks.length = schedule.tasks.length)
    (load : between.load = schedule.load)
    (pays : ∀ cost, strand.Costs cost → ∃ cost', next.Costs cost' ∧
      cost' + schedule.allowance ≤ cost + between.allowance) :
    Pays strand schedule strand' later := by
  intro cost bill costs billed
  obtain ⟨cost', costs', paid⟩ := pays cost costs
  obtain ⟨last, more, costs'', billed', paid'⟩ :=
    goes cost' bill costs' (billed.keep onward tasks)
  exact ⟨last, more, costs'', billed', by omega⟩

/-- Two strands side by side pay for what they do one after the other. -/
theorem Pays.both {first : Side}
    (earlier : Pays (first.pick left right) schedule (first.pick left' right') between)
    (second : Pays (first.other.pick left right) between (first.other.pick left' right') later)
    {one other : Nat} {bill : List Nat} (onLeft : left.Costs one) (onRight : right.Costs other)
    (billed : schedule.Billed bill) :
    ∃ one' other' more, left'.Costs one' ∧ right'.Costs other' ∧ later.Billed (bill ++ more) ∧
      one' + other' + more.sum + later.load + schedule.allowance ≤
        one + other + schedule.load + later.allowance := by
  cases first with
  | left =>
      obtain ⟨one', more, onLeft', billed', paid⟩ := earlier one bill onLeft billed
      obtain ⟨other', more', onRight', billed'', paid'⟩ := second other _ onRight billed'
      refine ⟨one', other', more ++ more', onLeft', onRight', ?_, ?_⟩
      · rwa [← List.append_assoc]
      · rw [List.sum_append]
        omega
  | right =>
      obtain ⟨other', more, onRight', billed', paid⟩ := earlier other bill onRight billed
      obtain ⟨one', more', onLeft', billed'', paid'⟩ := second one _ onLeft billed'
      refine ⟨one', other', more ++ more', onLeft', onRight', ?_, ?_⟩
      · rwa [← List.append_assoc]
      · rw [List.sum_append]
        omega

/-- In its turn a strand pays for what it does. -/
theorem Goes.pays {task : Option Nat} (goes : Goes task strand schedule strand' later) :
    Pays strand schedule strand' later := by
  have same : ∀ schedule : Schedule, schedule.timers ⊆ schedule.timers := fun schedule =>
    List.Subset.refl schedule.timers
  induction goes with
  | ended | settled => exact .stay (.refl _) rfl fun cost _ => ⟨cost, trivial, Nat.le_refl _⟩
  | act on ih =>
      exact ih.after (.of_eq rfl rfl rfl rfl rfl (same _)) rfl rfl fun cost costs =>
        ⟨cost, costs _, Nat.le_refl _⟩
  | sleep on ih =>
      refine ih.after (.refl _) rfl rfl ?_
      rintro cost ⟨rest, after, fits⟩
      exact ⟨rest + 124, ⟨rest, after, Nat.le_refl _⟩, by omega⟩
  | @spawn body next schedule later strand on ih =>
      rintro cost bill ⟨inner, rest, inside, after, fits⟩ billed
      obtain ⟨cost', more, costs, billed', paid⟩ :=
        ih (rest + 1) _ ⟨rest, after, Nat.le_refl _⟩ (billed.spawn task inside)
      have load := Schedule.load_spawn_le task body schedule
      have allowance := Schedule.spawn_allowance task body schedule
      refine ⟨cost', (inner + 62) :: more, costs, ?_, ?_⟩
      · rwa [List.append_assoc, List.singleton_append] at billed'
      · rw [List.sum_cons]
        omega
  | join on ih => exact ih.after (.refl _) rfl rfl fun cost costs => ⟨cost, costs, Nat.le_refl _⟩
  | woken allowed due on ih =>
      refine ih.after (.of_eq rfl rfl rfl rfl rfl (same _)) rfl rfl ?_
      rintro cost ⟨rest, after, fits⟩
      refine ⟨rest, after, ?_⟩
      rw [allowed]
      split at fits <;> dsimp only <;> omega
  | asleep early => exact .stay (.refl _) rfl fun cost costs => ⟨cost, costs, Nat.le_refl _⟩
  | @timing wake next schedule early =>
      refine .stay (.of_eq rfl rfl rfl rfl rfl (List.subset_append_left ..)) rfl ?_
      rintro cost ⟨rest, after, fits⟩
      have load : ({ schedule with timers := schedule.timers ++ [⟨wake, task⟩] } : Schedule).load =
          schedule.load + 123 := by
        rw [Schedule.load, Schedule.load, List.length_append, Nat.mul_add, ← Nat.add_assoc]
        rfl
      have untimed : rest + 124 ≤ cost := fits
      refine ⟨rest + 1, ⟨rest, after, Nat.le_refl _⟩, ?_⟩
      rw [load]
      dsimp only
      omega
  | overslept spent | unanswered spent =>
      exact .stay (.of_eq rfl rfl rfl rfl rfl (same _)) rfl fun cost costs =>
        ⟨cost, costs, Nat.le_refl _⟩
  | answered allowed found on ih =>
      refine ih.after (.of_eq rfl rfl rfl rfl rfl (same _)) rfl rfl ?_
      rintro cost ⟨rest, after, fits⟩
      refine ⟨rest, after _, ?_⟩
      rw [allowed]
      dsimp only
      omega
  | awaiting pending =>
      exact .stay (.watch ..) (List.length_modify ..) fun cost costs =>
        ⟨cost, costs, Nat.le_refl _⟩
  | met earlier second on onEarlier onSecond ih =>
      rintro cost bill ⟨one, other, rest, onLeft, onRight, after, fits⟩ billed
      obtain ⟨one', other', more, -, -, billed', paid⟩ :=
        onEarlier.both onSecond onLeft onRight billed
      obtain ⟨cost', more', costs, billed'', paid'⟩ := ih rest _ (after _ _) billed'
      refine ⟨cost', more ++ more', costs, ?_, ?_⟩
      · rwa [← List.append_assoc]
      · rw [List.sum_append]
        omega
  | paired earlier second apart onEarlier onSecond =>
      rintro cost bill ⟨one, other, rest, onLeft, onRight, after, fits⟩ billed
      obtain ⟨one', other', more, onLeft', onRight', billed', paid⟩ :=
        onEarlier.both onSecond onLeft onRight billed
      refine ⟨one' + other' + rest, more, ?_, billed', by omega⟩
      exact ⟨one', other', rest, onLeft', onRight', after, Nat.le_refl _⟩

end Strand

end ShardFleet
