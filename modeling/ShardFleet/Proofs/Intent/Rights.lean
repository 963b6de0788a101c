import Mathlib.Data.Set.Insert
import ShardFleet.Proofs.Intent.Turns

/-!
What the strands of call flows may see and change of the contexts.

A strand may look at some stacks, and of these it owns some: no other strand looks at them
(`Rights`). It changes stacks that it owns, and adds new ones (`Rights.Exerts`); what others see is
kept (`Contexts.Kept`). A course is sound when it shows what is predicted of it as long as what it
sees is kept whenever it has to wait (`Course.Sound`). This is so of each strand when its turn
comes, and it still is after the turn (`Strand.Goes.keeps`).
-/

namespace ShardFleet

/-! ### Rights -/

/-- The stacks that a strand may look at, and those that only it looks at and changes. -/
structure Rights where
  sees : Set Nat
  owns : Set Nat
  seen : owns ⊆ sees

namespace Rights

/-- No stacks at all. -/
def none : Rights := ⟨∅, ∅, Set.Subset.rfl⟩

/-- To look at the same stacks, and to own none. -/
def reading (rights : Rights) : Rights := ⟨rights.sees, ∅, Set.empty_subset _⟩

/-- To own one more stack. -/
def adding (rights : Rights) (stack : Nat) : Rights :=
  ⟨insert stack rights.sees, insert stack rights.owns, Set.insert_subset_insert rights.seen⟩

/-- The rights of two strands together. -/
def both (one other : Rights) : Rights :=
  ⟨one.sees ∪ other.sees, one.owns ∪ other.owns, Set.union_subset_union one.seen other.seen⟩

/-- Some of the rights. -/
structure Part (part whole : Rights) : Prop where
  sees : part.sees ⊆ whole.sees
  owns : part.owns ⊆ whole.owns

/-- To own nothing that another looks at. -/
def Spares (rights other : Rights) : Prop := ∀ stack ∈ other.sees, stack ∉ rights.owns

/-- Neither owns what the other looks at. -/
structure Apart (one other : Rights) : Prop where
  left : one.Spares other
  right : other.Spares one

theorem Apart.symm {one other : Rights} (apart : Apart one other) : Apart other one :=
  ⟨apart.right, apart.left⟩

/-- Stacks that are there. -/
def Within (rights : Rights) (contexts : Contexts) : Prop :=
  ∀ stack ∈ rights.sees, stack < contexts.byNumber.length

end Rights

/-- Some stacks have the same scopes as before. -/
structure Contexts.Kept (sees : Set Nat) (before after : Contexts) : Prop where
  grown : before.byNumber.length ≤ after.byNumber.length
  scopes : ∀ stack ∈ sees, (after.stack stack).scopes = (before.stack stack).scopes
  next : ∀ stack ∈ sees, (before.stack stack).next ≤ (after.stack stack).next

namespace Contexts.Kept

variable {sees some : Set Nat} {before after last : Contexts}

theorem refl (sees : Set Nat) (contexts : Contexts) : Kept sees contexts contexts :=
  ⟨Nat.le_refl _, fun _ _ => rfl, fun _ _ => Nat.le_refl _⟩

theorem trans (first : Kept sees before after) (second : Kept sees after last) :
    Kept sees before last where
  grown := Nat.le_trans first.grown second.grown
  scopes stack seen := (second.scopes stack seen).trans (first.scopes stack seen)
  next stack seen := Nat.le_trans (first.next stack seen) (second.next stack seen)

theorem mono (kept : Kept sees before after) (sub : some ⊆ sees) : Kept some before after :=
  ⟨kept.grown, fun stack mem => kept.scopes stack (sub mem),
    fun stack mem => kept.next stack (sub mem)⟩

end Contexts.Kept

/-- Stacks are changed by right of owning them, others are added, and then the rights are others,
for old stacks not more. -/
structure Rights.Exerts (rights : Rights) (before : Contexts) (later : Rights) (after : Contexts) :
    Prop where
  grown : before.byNumber.length ≤ after.byNumber.length
  others : ∀ stack < before.byNumber.length, stack ∉ rights.owns →
    after.stack stack = before.stack stack
  sees : ∀ stack ∈ later.sees, stack ∈ rights.sees ∨ before.byNumber.length ≤ stack
  owns : ∀ stack ∈ later.owns, stack ∈ rights.owns ∨ before.byNumber.length ≤ stack
  within : later.Within after

namespace Rights

variable {rights later last other part whole base left right : Rights}
  {before between after : Contexts}

theorem Exerts.refl (within : rights.Within before) : rights.Exerts before rights before :=
  ⟨Nat.le_refl _, fun _ _ _ => rfl, fun _ => .inl, fun _ => .inl, within⟩

theorem Exerts.trans (first : rights.Exerts before later between)
    (second : later.Exerts between last after) : rights.Exerts before last after where
  grown := Nat.le_trans first.grown second.grown
  others stack old unowned := by
    have unowned' : stack ∉ later.owns := fun owned =>
      (first.owns stack owned).elim unowned (Nat.not_le_of_lt old)
    exact (second.others stack (Nat.lt_of_lt_of_le old first.grown) unowned').trans
      (first.others stack old unowned)
  sees stack seen := (second.sees stack seen).elim (first.sees stack)
    fun new => .inr (Nat.le_trans first.grown new)
  owns stack owned := (second.owns stack owned).elim (first.owns stack)
    fun new => .inr (Nat.le_trans first.grown new)
  within := second.within

/-- What is done with some of the rights is done with all of them. -/
theorem Exerts.mono (exerts : part.Exerts before later after) (sub : part.Part whole) :
    whole.Exerts before later after where
  grown := exerts.grown
  others stack old unowned := exerts.others stack old fun owned => unowned (sub.owns owned)
  sees stack seen := (exerts.sees stack seen).imp_left (sub.sees ·)
  owns stack owned := (exerts.owns stack owned).imp_left (sub.owns ·)
  within := exerts.within

/-- What another sees is kept. -/
theorem Exerts.kept (exerts : rights.Exerts before later after)
    (spares : rights.Spares other) (within : other.Within before) :
    before.Kept other.sees after := by
  have same : ∀ stack ∈ other.sees, after.stack stack = before.stack stack := fun stack seen =>
    exerts.others stack (within stack seen) (spares stack seen)
  exact ⟨exerts.grown, fun stack seen => by rw [same stack seen],
    fun stack seen => by rw [same stack seen]⟩

theorem Within.grown (within : rights.Within before)
    (grown : before.byNumber.length ≤ after.byNumber.length) : rights.Within after :=
  fun stack seen => Nat.lt_of_lt_of_le (within stack seen) grown

/-- No stack that is new is one that another saw before. -/
theorem Exerts.unseen (exerts : rights.Exerts before later after)
    (spares : rights.Spares other) (within : other.Within before) : later.Spares other := by
  intro stack seen owned
  rcases exerts.owns stack owned with old | new
  · exact spares stack seen old
  · exact Nat.not_lt_of_le new (within stack seen)

theorem Exerts.apart (exerts : rights.Exerts before later after) (apart : rights.Apart other)
    (within : other.Within before) : later.Apart other := by
  refine ⟨exerts.unseen apart.left within, fun stack seen owned => ?_⟩
  rcases exerts.sees stack seen with old | new
  · exact apart.right stack old owned
  · exact Nat.not_lt_of_le new (within stack (other.seen owned))

theorem Part.both (sub : part.Part whole) (more : Rights) : part.Part (whole.both more) :=
  ⟨sub.sees.trans Set.subset_union_left, sub.owns.trans Set.subset_union_left⟩

/-- Rights are divided between two strands side by side and what follows them. -/
structure Split (whole base left right : Rights) : Prop where
  basePart : base.Part whole
  leftPart : left.Part whole
  rightPart : right.Part whole
  apart : left.Apart right
  leftBase : left.Spares base
  rightBase : right.Spares base

theorem Split.swap (split : Split whole base left right) : Split whole base right left :=
  ⟨split.basePart, split.rightPart, split.leftPart, split.apart.symm, split.rightBase,
    split.leftBase⟩

/-- Two strands that only look leave the rights to what follows them. -/
theorem Split.reading (rights : Rights) :
    Split rights rights rights.reading rights.reading :=
  have part : rights.reading.Part rights := ⟨Set.Subset.rfl, Set.empty_subset _⟩
  have spares : ∀ other : Rights, rights.reading.Spares other := fun _ _ _ => Set.notMem_empty _
  ⟨⟨Set.Subset.rfl, Set.Subset.rfl⟩, part, part, ⟨spares _, spares _⟩, spares _, spares _⟩

/-- One of two strands makes use of its rights. -/
theorem Split.exerts (split : Split whole base left right) (within : whole.Within before)
    (exerts : left.Exerts before later after) :
    Split (whole.both later) base later right ∧
      whole.Exerts before (whole.both later) after := by
  have old : ∀ {part : Rights}, part.Part whole → part.Within before := fun sub stack seen =>
    within stack (sub.sees seen)
  have all := exerts.mono split.leftPart
  constructor
  · exact ⟨split.basePart.both later, ⟨Set.subset_union_right, Set.subset_union_right⟩,
      split.rightPart.both later, exerts.apart split.apart (old split.rightPart),
      exerts.unseen split.leftBase (old split.basePart), split.rightBase⟩
  · exact ⟨exerts.grown, all.others, fun stack seen => seen.elim .inl (all.sees stack),
      fun stack owned => owned.elim .inl (all.owns stack),
      fun stack seen => seen.elim (within.grown exerts.grown stack) (exerts.within stack)⟩

end Rights

/-! ### Sound courses -/

/-- A course shows what is predicted, with rights to what it sees and changes. Whenever it waits,
what it sees has to be kept. -/
def Course.Sound : Course → List Transcript → Rights → Contexts → Prop
  | .ended shown, result, _, _ => shown = result
  | .act update next, result, rights, contexts =>
      ∃ later, rights.Exerts contexts later (update contexts) ∧
        (next contexts).Sound result later (update contexts)
  | .sleep _ next, result, rights, contexts =>
      ∀ after, contexts.Kept rights.sees after → next.Sound result rights after
  | .spawn body next, result, rights, contexts =>
      ∃ inner, (∀ after, body.Sound inner .none after) ∧
        ∀ after, contexts.Kept rights.sees after → (next inner).Sound result rights after
  | .join left right next, result, rights, contexts =>
      ∃ one other, (∀ after, contexts.Kept rights.sees after →
          left.Sound one rights.reading after ∧ right.Sound other rights.reading after ∧
            (next one other).Sound result rights after)

/-- A strand does so, provided that spawned tasks show what is promised of them. -/
def Strand.Sound (promises : List (List Transcript)) :
    Strand → List Transcript → Rights → Contexts → Prop
  | .fresh course, result, rights, contexts => course.Sound result rights contexts
  | .ended shown, result, _, _ => shown = result
  | .asleep _ _ next, result, rights, contexts =>
      ∀ after, contexts.Kept rights.sees after → next.Sound result rights after
  | .awaiting child next, result, rights, contexts =>
      ∃ inner, promises[child]? = some inner ∧
        ∀ after, contexts.Kept rights.sees after → (next inner).Sound result rights after
  | .paired _ left right next, result, whole, contexts =>
      ∃ one other base lefts rights, whole.Split base lefts rights ∧
        (∀ after, contexts.Kept lefts.sees after → left.Sound promises one lefts after) ∧
        (∀ after, contexts.Kept rights.sees after → right.Sound promises other rights after) ∧
        ∀ after, contexts.Kept base.sees after → (next one other).Sound result base after

/-- A strand stays sound as long as what it sees is kept. -/
def Strand.Held (promises : List (List Transcript)) (strand : Strand) (result : List Transcript)
    (rights : Rights) (contexts : Contexts) : Prop :=
  ∀ after, contexts.Kept rights.sees after → strand.Sound promises result rights after

namespace Strand

variable {promises promises' : List (List Transcript)} {strand : Strand}
  {result : List Transcript} {rights : Rights} {contexts before after : Contexts}

theorem Held.sound (held : strand.Held promises result rights contexts) :
    strand.Sound promises result rights contexts :=
  held contexts (.refl ..)

theorem Held.keep (held : strand.Held promises result rights before)
    (kept : before.Kept rights.sees after) : strand.Held promises result rights after :=
  fun last more => held last (kept.trans more)

/-- More promises take nothing from a strand. -/
theorem Sound.extend (sound : strand.Sound promises result rights contexts)
    (more : promises <+: promises') : strand.Sound promises' result rights contexts := by
  induction strand generalizing result rights contexts with
  | fresh course | ended shown | asleep wake timed next => exact sound
  | awaiting child next =>
      obtain ⟨inner, promised, on⟩ := sound
      obtain ⟨rest, rfl⟩ := more
      have old : child < promises.length := (List.getElem?_eq_some_iff.mp promised).1
      exact ⟨inner, (List.getElem?_append_left old).trans promised, on⟩
  | paired first left right next onLeft onRight =>
      obtain ⟨one, other, base, lefts, rights', split, soundLeft, soundRight, on⟩ := sound
      exact ⟨one, other, base, lefts, rights', split,
        fun after kept => onLeft (soundLeft after kept),
        fun after kept => onRight (soundRight after kept), on⟩

theorem Held.extend (held : strand.Held promises result rights contexts)
    (more : promises <+: promises') : strand.Held promises' result rights contexts :=
  fun after kept => (held after kept).extend more

end Strand

/-! ### Promises -/

namespace Schedule

/-- Each spawned task that has ended has shown what was promised of it. -/
structure Promised (schedule : Schedule) (promises : List (List Transcript)) : Prop where
  length : promises.length = schedule.tasks.length
  shown : ∀ task shown, schedule.result? task = some shown → promises[task]? = some shown

/-- More is promised, of tasks that have been spawned since. -/
structure Extends (schedule : Schedule) (promises : List (List Transcript)) (later : Schedule)
    (promises' : List (List Transcript)) : Prop where
  onward : schedule.Onward later
  old : promises <+: promises'
  length : promises'.length = later.tasks.length
  fresh : ∀ task body inner, schedule.tasks.length ≤ task →
    later.strand? (some task) = some (.fresh body) → promises'[task]? = some inner →
      ∀ contexts, body.Sound inner .none contexts

variable {schedule between later : Schedule}
  {promises promises' promises'' : List (List Transcript)}

namespace Extends

/-- Where no task is spawned. -/
theorem of_length_eq (promised : schedule.Promised promises) (onward : schedule.Onward later)
    (same : later.tasks.length = schedule.tasks.length) :
    schedule.Extends promises later promises where
  onward := onward
  old := List.prefix_refl _
  length := promised.length.trans same.symm
  fresh task body inner new found := by
    have there := strand?_lt found
    exact absurd (same ▸ there) (Nat.not_lt_of_le new)

theorem promised (extended : schedule.Extends promises later promises')
    (promised : schedule.Promised promises) : later.Promised promises' where
  length := extended.length
  shown task shown found := by
    rw [result?_eq] at found
    obtain ⟨strand, there, ended⟩ := Option.bind_eq_some_iff.mp found
    rcases extended.onward.strand?_or there with old | ⟨-, body, rfl⟩
    · have known := promised.shown task shown (by rw [result?_eq, old]; exact ended)
      obtain ⟨rest, rfl⟩ := extended.old
      have bound : task < promises.length := (List.getElem?_eq_some_iff.mp known).1
      exact (List.getElem?_append_left bound).trans known
    · cases ended

theorem trans (first : schedule.Extends promises between promises')
    (second : between.Extends promises' later promises'') :
    schedule.Extends promises later promises'' where
  onward := first.onward.trans second.onward
  old := first.old.trans second.old
  length := second.length
  fresh task body inner new found known := by
    rcases second.onward.strand?_or found with earlier | ⟨since, -⟩
    · have bound : task < promises'.length := first.length ▸ strand?_lt earlier
      refine first.fresh task body inner new earlier ?_
      obtain ⟨rest, rfl⟩ := second.old
      exact (List.getElem?_append_left bound).symm.trans known
    · exact second.fresh task body inner since found known

/-- A task is spawned, and something is promised of it. -/
theorem spawn (promised : schedule.Promised promises) (parent : Option Nat) {body : Course}
    {inner : List Transcript} (sound : ∀ contexts, body.Sound inner .none contexts) :
    schedule.Extends promises (Schedule.spawn parent body schedule).2 (promises ++ [inner]) where
  onward := .spawn parent body schedule
  old := List.prefix_append ..
  length := by simp [promised.length]
  fresh task body' inner' new found known := by
    rcases strand?_spawn_or found with old | ⟨rfl, same⟩
    · exact absurd (strand?_lt old) (Nat.not_lt_of_le new)
    · cases same
      rw [← promised.length, List.getElem?_concat_length] at known
      exact Option.some.inj known ▸ sound

end Extends

end Schedule

/-! ### Turns -/

namespace Strand

/-- A strand that is sound when its turn begins is held to be so when it ends. -/
def Keeps (strand : Strand) (schedule : Schedule) (strand' : Strand) (later : Schedule) : Prop :=
  ∀ promises result rights, schedule.Promised promises → rights.Within schedule.contexts →
    strand.Sound promises result rights schedule.contexts →
      ∃ promises' rights', schedule.Extends promises later promises' ∧
        rights.Exerts schedule.contexts rights' later.contexts ∧
        strand'.Held promises' result rights' later.contexts

/-- Two strands side by side have divided the rights with what follows them. -/
def Beside (promises : List (List Transcript)) (one other : List Transcript) (whole base : Rights)
    (left right : Strand) (contexts : Contexts) : Prop :=
  ∃ lefts rights, whole.Split base lefts rights ∧ left.Held promises one lefts contexts ∧
    right.Held promises other rights contexts

variable {promises : List (List Transcript)} {one other : List Transcript} {whole base : Rights}
  {left right left' right' : Strand} {schedule between later : Schedule}

theorem Beside.swap {contexts : Contexts}
    (beside : Beside promises one other whole base left right contexts) :
    Beside promises other one whole base right left contexts := by
  obtain ⟨lefts, rights, split, onLeft, onRight⟩ := beside
  exact ⟨rights, lefts, split.swap, onRight, onLeft⟩

/-- One of the two goes on. -/
theorem Beside.turn (beside : Beside promises one other whole base left right schedule.contexts)
    (promised : schedule.Promised promises) (within : whole.Within schedule.contexts)
    (keeps : Keeps left schedule left' later) :
    ∃ promises' whole', schedule.Extends promises later promises' ∧
      whole.Exerts schedule.contexts whole' later.contexts ∧
      schedule.contexts.Kept base.sees later.contexts ∧
      Beside promises' one other whole' base left' right later.contexts := by
  obtain ⟨lefts, rights, split, onLeft, onRight⟩ := beside
  have old : ∀ {part : Rights}, part.Part whole → part.Within schedule.contexts :=
    fun sub stack seen => within stack (sub.sees seen)
  obtain ⟨promises', lefts', extended, exerts, held⟩ :=
    keeps promises one lefts promised (old split.leftPart) onLeft.sound
  obtain ⟨split', exerts'⟩ := split.exerts within exerts
  refine ⟨promises', _, extended, exerts', exerts.kept split.leftBase (old split.basePart),
    lefts', rights, split', held, ?_⟩
  exact (onRight.keep (exerts.kept split.apart.left (old split.rightPart))).extend extended.old

/-- Both go on, one after the other. -/
theorem Beside.turns {first : Side}
    (beside : Beside promises one other whole base left right schedule.contexts)
    (promised : schedule.Promised promises) (within : whole.Within schedule.contexts)
    (earlier : Keeps (first.pick left right) schedule (first.pick left' right') between)
    (second : Keeps (first.other.pick left right) between (first.other.pick left' right') later) :
    ∃ promises' whole', schedule.Extends promises later promises' ∧
      whole.Exerts schedule.contexts whole' later.contexts ∧
      schedule.contexts.Kept base.sees later.contexts ∧
      Beside promises' one other whole' base left' right' later.contexts := by
  cases first with
  | left =>
      obtain ⟨_, _, extended, exerts, kept, beside⟩ := beside.turn promised within earlier
      obtain ⟨_, _, extended', exerts', kept', beside⟩ :=
        beside.swap.turn (extended.promised promised) exerts.within second
      exact ⟨_, _, extended.trans extended', exerts.trans exerts', kept.trans kept', beside.swap⟩
  | right =>
      obtain ⟨_, _, extended, exerts, kept, beside⟩ := beside.swap.turn promised within earlier
      obtain ⟨_, _, extended', exerts', kept', beside⟩ :=
        beside.swap.turn (extended.promised promised) exerts.within second
      exact ⟨_, _, extended.trans extended', exerts.trans exerts', kept.trans kept', beside⟩

/-- A strand that goes on only as far as it has come. -/
theorem Keeps.stay {strand strand' : Strand} (onward : schedule.Onward later)
    (tasks : later.tasks.length = schedule.tasks.length)
    (contexts : later.contexts = schedule.contexts)
    (held : ∀ promises result rights, strand.Sound promises result rights schedule.contexts →
      strand'.Held promises result rights schedule.contexts) :
    Keeps strand schedule strand' later := by
  intro promises result rights promised within sound
  refine ⟨promises, rights, .of_length_eq promised onward tasks, ?_, ?_⟩
  · rw [contexts]
    exact .refl within
  · rw [contexts]
    exact held promises result rights sound

/-- A strand that goes on after something that changes no contexts. -/
theorem Keeps.after {strand next strand' : Strand} (keeps : Keeps next between strand' later)
    (onward : schedule.Onward between) (tasks : between.tasks.length = schedule.tasks.length)
    (contexts : between.contexts = schedule.contexts)
    (sound : ∀ promises result rights, schedule.Promised promises →
      strand.Sound promises result rights schedule.contexts →
      next.Sound promises result rights schedule.contexts) :
    Keeps strand schedule strand' later := by
  intro promises result rights promised within before
  have extended := Schedule.Extends.of_length_eq promised onward tasks
  obtain ⟨promises', rights', extended', exerts, held⟩ :=
    keeps promises result rights (extended.promised promised) (contexts ▸ within)
      (contexts ▸ sound promises result rights promised before)
  exact ⟨promises', rights', extended.trans extended', contexts ▸ exerts, held⟩

/-- A strand that waits is as sound as it was when what it sees is kept. -/
theorem Sound.waits {promises : List (List Transcript)} {strand : Strand}
    {result : List Transcript} {rights : Rights} {contexts : Contexts}
    (sound : strand.Sound promises result rights contexts)
    (waits : ∀ course, strand ≠ .fresh course) :
    strand.Held promises result rights contexts := by
  intro after kept
  cases strand with
  | fresh course => exact absurd rfl (waits course)
  | ended shown => exact sound
  | asleep wake timed next => exact fun last more => sound last (kept.trans more)
  | awaiting child next =>
      obtain ⟨inner, promised, on⟩ := sound
      exact ⟨inner, promised, fun last more => on last (kept.trans more)⟩
  | paired first left right next =>
      obtain ⟨one, other, base, lefts, rights', split, onLeft, onRight, on⟩ := sound
      exact ⟨one, other, base, lefts, rights', split,
        fun last more => onLeft last ((kept.mono split.leftPart.sees).trans more),
        fun last more => onRight last ((kept.mono split.rightPart.sees).trans more),
        fun last more => on last ((kept.mono split.basePart.sees).trans more)⟩

/-- In its turn a strand stays sound. -/
theorem Goes.keeps {task : Option Nat} {strand strand' : Strand}
    (goes : Goes task strand schedule strand' later) : Keeps strand schedule strand' later := by
  have same : ∀ schedule : Schedule, schedule.timers ⊆ schedule.timers := fun schedule =>
    List.Subset.refl schedule.timers
  induction goes with
  | ended => exact .stay (.refl _) rfl rfl fun _ _ _ sound _ _ => sound
  | settled => exact .stay (.refl _) rfl rfl fun _ _ _ sound _ _ => sound
  | @act update next schedule later strand on ih =>
      rintro promises result rights promised within ⟨after, exerts, sound⟩
      have extended : schedule.Extends promises
          { schedule with contexts := update schedule.contexts } promises :=
        .of_length_eq promised (.of_eq rfl rfl rfl rfl rfl (same _)) rfl
      obtain ⟨promises', rights', extended', exerts', held⟩ :=
        ih promises result after (extended.promised promised) exerts.within sound
      exact ⟨promises', rights', extended.trans extended', exerts.trans exerts', held⟩
  | sleep on ih => exact ih.after (.refl _) rfl rfl fun _ _ _ _ sound => sound
  | @spawn body next schedule later strand on ih =>
      rintro promises result rights promised within ⟨inner, apart, sound⟩
      have extended := Schedule.Extends.spawn promised task apart
      have contexts := Schedule.spawn_contexts task body schedule
      have last := promised.length
      obtain ⟨promises', rights', extended', exerts, held⟩ :=
        ih (promises ++ [inner]) result rights (extended.promised promised) (contexts ▸ within)
          ⟨inner, by simp [← last], contexts ▸ sound⟩
      exact ⟨promises', rights', extended.trans extended', contexts ▸ exerts, held⟩
  | join on ih =>
      refine ih.after (.refl _) rfl rfl ?_
      rintro promises result rights promised ⟨one, other, sound⟩
      exact ⟨one, other, rights, rights.reading, rights.reading, .reading rights,
        fun after kept => (sound after kept).1, fun after kept => (sound after kept).2.1,
        fun after kept => (sound after kept).2.2⟩
  | woken allowed due on ih =>
      refine ih.after (.of_eq rfl rfl rfl rfl rfl (same _)) rfl rfl ?_
      exact fun _ _ rights _ sound => sound _ (.refl ..)
  | asleep early => exact .stay (.refl _) rfl rfl fun _ _ _ sound => sound.waits nofun
  | @timing wake next schedule early =>
      refine .stay (.of_eq rfl rfl rfl rfl rfl (List.subset_append_left ..)) rfl rfl ?_
      intro promises result rights sound
      have timed : (Strand.asleep wake true next).Sound promises result rights
          schedule.contexts := sound
      exact timed.waits nofun
  | overslept spent | unanswered spent =>
      refine .stay (.of_eq rfl rfl rfl rfl rfl (same _)) rfl rfl ?_
      exact fun _ _ _ sound => sound.waits nofun
  | answered allowed found on ih =>
      refine ih.after (.of_eq rfl rfl rfl rfl rfl (same _)) rfl rfl ?_
      rintro promises result rights promised ⟨inner, known, sound⟩
      obtain rfl := Option.some.inj (known.symm.trans (promised.shown _ _ found))
      exact sound _ (.refl ..)
  | awaiting pending =>
      refine .stay (.watch ..) (List.length_modify ..) rfl ?_
      exact fun _ _ _ sound => sound.waits nofun
  | met earlier second on onEarlier onSecond ih =>
      rintro promises result whole promised within
        ⟨one, other, base, lefts, rights, split, onLeft, onRight, sound⟩
      obtain ⟨promises', whole', extended, exerts, kept, lefts', rights', split', shown, shown'⟩ :=
        Beside.turns ⟨lefts, rights, split, onLeft, onRight⟩ promised within onEarlier onSecond
      obtain rfl := shown.sound
      obtain rfl := shown'.sound
      obtain ⟨promises'', rights'', extended', exerts', held⟩ :=
        ih promises' result base (extended.promised promised)
          (fun stack seen => exerts.within stack (split'.basePart.sees seen)) (sound _ kept)
      exact ⟨promises'', rights'', extended.trans extended',
        exerts.trans (exerts'.mono split'.basePart), held⟩
  | paired earlier second apart onEarlier onSecond =>
      rintro promises result whole promised within
        ⟨one, other, base, lefts, rights, split, onLeft, onRight, sound⟩
      obtain ⟨promises', whole', extended, exerts, kept, lefts', rights', split', held, held'⟩ :=
        Beside.turns ⟨lefts, rights, split, onLeft, onRight⟩ promised within onEarlier onSecond
      refine ⟨promises', whole', extended, exerts, Sound.waits ?_ nofun⟩
      exact ⟨one, other, base, lefts', rights', split', held, held',
        fun after more => sound after (kept.trans more)⟩

end Strand

end ShardFleet
