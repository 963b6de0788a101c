import ShardFleet.Proofs.Intent.Rights
import ShardFleet.Proofs.Intent.Scopes

/-!
What flows show, told from what is put around them.

`Flow.tolds` says what a body shows from the intents that enclose it, with no contexts and no
order of turns: an intent is around its own body and nothing else, and two bodies side by side are
in the same surroundings. The course of a body shows that, whatever else is done meanwhile to
stacks that it does not see (`Flow.sound_courses`). Only a scope on the ambient context itself
would be seen from outside of its body; a body is lexical when it opens none on a context that
another body looks at.
-/

namespace ShardFleet

/-- What is decided by intents that are put around each other, the outermost first. -/
def Intent.ruling (around : List Intent) : Intent :=
  if .forceWrite ∈ around then .forceWrite else around.getLast?.getD .write

/-- What is seen of a context whose scopes are these. -/
def ContextView.within (around : List Intent) : ContextView where
  current := if around = [] then none else some (.ruling around)
  effective := .ruling around
  depth := around.length

namespace Flow

mutual

/-- What an action shows inside the intents of an ambient context, if there is one. -/
def told (around : Option (List Intent)) : Flow → Transcript
  | .observe => .observed (.ruling (around.getD [])) (around.map .within)
  | .withIntent intent body => .body (tolds (some (around.getD [] ++ [intent])) body)
  | .scoped intents body => .scoped (tolds (some intents) body) (.within [])
  | .push intent body =>
      match around with
      | none => .noContext
      | some intents => .body (tolds (some (intents ++ [intent])) body)
  | .sleep _ => .slept
  | .join left right => .joined (tolds around left) (tolds around right)
  | .spawn body => .body (tolds none body)
  termination_by structural flow => flow

/-- What a body shows. -/
def tolds (around : Option (List Intent)) : List Flow → List Transcript
  | [] => []
  | flow :: rest => told around flow :: tolds around rest
  termination_by structural flows => flows

end

mutual

/-- No scope is opened on an ambient context that is shared with a body at its side. -/
def lexical (shared : Bool) : Flow → Bool
  | .observe | .sleep _ => true
  | .withIntent _ body | .scoped _ body | .spawn body => lexicals false body
  | .push _ body => !shared && lexicals false body
  | .join left right => lexicals true left && lexicals true right
  termination_by structural flow => flow

/-- No action of a body does so. -/
def lexicals (shared : Bool) : List Flow → Bool
  | [] => true
  | flow :: rest => lexical shared flow && lexicals shared rest
  termination_by structural flows => flows

end

mutual

/-- Every scope is opened on a fork of the ambient context, or on a new context. -/
def forking : Flow → Bool
  | .observe | .sleep _ => true
  | .withIntent _ body | .scoped _ body | .spawn body => forkings body
  | .push .. => false
  | .join left right => forkings left && forkings right
  termination_by structural flow => flow

/-- Every action of a body does so. -/
def forkings : List Flow → Bool
  | [] => true
  | flow :: rest => forking flow && forkings rest
  termination_by structural flows => flows

end

mutual

theorem lexical_of_forking (shared : Bool) (flow : Flow) (forks : forking flow = true) :
    lexical shared flow = true := by
  match flow with
  | .observe | .sleep _ => rfl
  | .withIntent _ body | .scoped _ body | .spawn body =>
      exact lexicals_of_forkings false body forks
  | .push .. => cases forks
  | .join left right =>
      obtain ⟨onLeft, onRight⟩ := Bool.and_eq_true_iff.mp forks
      exact Bool.and_eq_true_iff.mpr
        ⟨lexicals_of_forkings true left onLeft, lexicals_of_forkings true right onRight⟩
  termination_by structural flow

/-- Where an intent is always put around a body on a fork, nothing is opened on a context that is
shared. -/
theorem lexicals_of_forkings (shared : Bool) (flows : List Flow) (forks : forkings flows = true) :
    lexicals shared flows = true := by
  match flows with
  | [] => rfl
  | flow :: rest =>
      obtain ⟨first, others⟩ := Bool.and_eq_true_iff.mp forks
      exact Bool.and_eq_true_iff.mpr
        ⟨lexical_of_forking shared flow first, lexicals_of_forkings shared rest others⟩
  termination_by structural flows

end

end Flow

/-! ### Stacks -/

/-- A stack has scopes with these intents, and all have been numbered. -/
structure IntentStack.Lists (stack : IntentStack) (around : List Intent) : Prop where
  intents : stack.scopes.map Prod.snd = around
  numbered : ∀ scope ∈ stack.scopes, scope.1 < stack.next

namespace IntentStack

variable {stack later : IntentStack} {around : List Intent}

theorem lists_nil : Lists {} [] := ⟨rfl, nofun⟩

theorem Lists.push (lists : Lists stack around) (intent : Intent) :
    Lists (stack.push intent) (around ++ [intent]) where
  intents := by simp [IntentStack.push, lists.intents]
  numbered := by
    refine List.forall_mem_append.mpr ⟨fun scope mem => ?_, ?_⟩
    · exact Nat.lt_succ_of_lt (lists.numbered scope mem)
    · exact List.forall_mem_singleton.mpr (Nat.lt_succ_self stack.next)

/-- A scope that is closed leaves the others. -/
theorem Lists.close_push (lists : Lists stack around) {intent : Intent}
    (same : later.scopes = (stack.push intent).scopes) :
    (later.close stack.next).scopes = stack.scopes := by
  have others : stack.scopes.filter (·.1 ≠ stack.next) = stack.scopes :=
    List.filter_eq_self.mpr fun scope mem => by
      simpa using Nat.ne_of_lt (lists.numbered scope mem)
  rw [close, same, IntentStack.push, List.filter_append, others]
  simp

/-- The open scopes agree on what their intents decide. -/
theorem Lists.current?_eq (lists : Lists stack around) :
    stack.current? = if around = [] then none else some (.ruling around) := by
  have any : stack.scopes.any (·.2 = .forceWrite) = true ↔ .forceWrite ∈ around := by
    rw [← lists.intents]
    simp
  have last : stack.scopes.getLast?.map Prod.snd = around.getLast? := by
    rw [← lists.intents, List.getLast?_map]
  rw [current?, last, Intent.ruling]
  by_cases forced : .forceWrite ∈ around
  · rw [if_pos (any.mpr forced), if_pos forced, if_neg (List.ne_nil_of_mem forced)]
  · rw [if_neg (mt any.mp forced), if_neg forced]
    rcases List.eq_nil_or_concat around with rfl | ⟨outer, inner, rfl⟩
    · rfl
    · simp

/-- A stack shows what its intents decide. -/
theorem Lists.view (lists : Lists stack around) : stack.view = .within around := by
  have effective : stack.effective = .ruling around := by
    rw [IntentStack.effective, lists.current?_eq]
    split
    · next none => subst none; rfl
    · rfl
  have depth : stack.depth = around.length := by
    rw [IntentStack.depth, ← lists.intents, List.length_map]
  rw [IntentStack.view, lists.current?_eq, effective, depth]
  rfl

end IntentStack

/-! ### Contexts -/

namespace Rights

variable {rights : Rights} {contexts after : Contexts} {stack : Nat} {around : List Intent}

/-- A stack that is owned may be changed. -/
theorem exerts_modify (within : rights.Within contexts) (owned : stack ∈ rights.owns)
    (f : IntentStack → IntentStack) :
    rights.Exerts contexts rights ⟨contexts.byNumber.modify stack f⟩ where
  grown := Nat.le_of_eq (List.length_modify ..).symm
  others other old unowned := by
    have there := within stack (rights.seen owned)
    rw [Contexts.stack_modify there, if_neg]
    rintro rfl
    exact unowned owned
  sees _ := .inl
  owns _ := .inl
  within other seen := by
    rw [List.length_modify]
    exact within other seen

/-- A stack that is added is owned. -/
theorem exerts_add (within : rights.Within contexts) (added : IntentStack) :
    rights.Exerts contexts (rights.adding contexts.byNumber.length) (contexts.add added) where
  grown := by simp [Contexts.add]
  others other old _ := by
    rw [Contexts.stack_add, if_neg (Nat.ne_of_lt old)]
  sees other seen := by
    rcases seen with rfl | old
    · exact .inr (Nat.le_refl _)
    · exact .inl old
  owns other owned := by
    rcases owned with rfl | old
    · exact .inr (Nat.le_refl _)
    · exact .inl old
  within other seen := by
    rw [Contexts.add, List.length_append]
    rcases seen with rfl | old
    · exact Nat.lt_succ_self _
    · exact Nat.lt_succ_of_lt (within other old)

theorem part_adding (rights : Rights) (stack : Nat) : rights.Part (rights.adding stack) :=
  ⟨Set.subset_insert .., Set.subset_insert ..⟩

end Rights

/-- Old stacks are as they were when one is added. -/
theorem Contexts.kept_add {rights : Rights} {contexts : Contexts}
    (within : rights.Within contexts) (added : IntentStack) :
    contexts.Kept rights.sees (contexts.add added) := by
  have same : ∀ stack ∈ rights.sees, (contexts.add added).stack stack = contexts.stack stack :=
    fun stack seen => by rw [stack_add, if_neg (Nat.ne_of_lt (within stack seen))]
  exact ⟨by simp [add], fun stack seen => by rw [same stack seen],
    fun stack seen => by rw [same stack seen]⟩

/-- When a scope is closed the stack is as it was before the scope was opened. -/
theorem Contexts.Kept.close {sees : Set Nat} {contexts after : Contexts} {stack : Nat}
    {around : List Intent} {intent : Intent}
    (kept : (contexts.push stack intent).Kept sees after)
    (there : stack < contexts.byNumber.length) (lists : (contexts.stack stack).Lists around) :
    contexts.Kept sees (after.close (contexts.nextScope stack intent)) := by
  have opened := Contexts.stack_push there intent
  have grown : contexts.byNumber.length ≤ after.byNumber.length :=
    Nat.le_trans (Nat.le_of_eq (List.length_modify ..).symm) kept.grown
  have closed : ∀ other, (after.close (contexts.nextScope stack intent)).stack other =
      if other = stack then (after.stack stack).close (contexts.stack stack).next
      else after.stack other := Contexts.stack_close (Nat.lt_of_lt_of_le there grown)
  refine ⟨?_, fun other seen => ?_, fun other seen => ?_⟩
  · exact Nat.le_trans grown (Nat.le_of_eq (List.length_modify ..).symm)
  · have scopes := kept.scopes other seen
    rw [opened] at scopes
    rw [closed]
    by_cases same : other = stack
    · subst same
      rw [if_pos rfl] at scopes
      rw [if_pos rfl]
      exact lists.close_push scopes
    · rw [if_neg same] at scopes
      rwa [if_neg same]
  · have next := kept.next other seen
    rw [opened] at next
    rw [closed]
    by_cases same : other = stack
    · subst same
      rw [if_pos rfl] at next
      rw [if_pos rfl]
      exact Nat.le_trans (Nat.le_succ _) next
    · rw [if_neg same] at next
      rwa [if_neg same]

/-! ### Courses -/

namespace Course

variable {course : Course} {result : List Transcript} {part whole rights : Rights}
  {contexts : Contexts} {stack : Nat} {around : List Intent}

/-- More rights do no harm. -/
theorem Sound.mono (sound : course.Sound result part contexts) (sub : part.Part whole) :
    course.Sound result whole contexts := by
  induction course generalizing result contexts part whole with
  | ended shown => exact sound
  | act update next =>
      obtain ⟨later, exerts, on⟩ := sound
      exact ⟨later, exerts.mono sub, on⟩
  | sleep ticks next ih => exact fun after kept => ih (sound after (kept.mono sub.sees)) sub
  | spawn body next _ ih =>
      obtain ⟨inner, apart, on⟩ := sound
      exact ⟨inner, apart, fun after kept => ih inner (on after (kept.mono sub.sees)) sub⟩
  | join left right next onLeft onRight ih =>
      obtain ⟨one, other, on⟩ := sound
      have reading : part.reading.Part whole.reading := ⟨sub.sees, Set.Subset.rfl⟩
      refine ⟨one, other, fun after kept => ?_⟩
      obtain ⟨first, second, rest⟩ := on after (kept.mono sub.sees)
      exact ⟨onLeft first reading, onRight second reading, ih one other rest sub⟩

/-- A body is sound on a stack that lists some intents, whatever follows. -/
def SoundOn (body : (List Transcript → Course) → Course) (shown : List Transcript) (stack : Nat)
    (around : List Intent) (result : List Transcript) (rights : Rights) : Prop :=
  ∀ contexts next, rights.Within contexts → (contexts.stack stack).Lists around →
    (∀ after, contexts.Kept rights.sees after → (next shown).Sound result rights after) →
      (body next).Sound result rights contexts

/-- A body with a scope around it on a stack that is owned. -/
theorem soundOn_underScope {body : (List Transcript → Course) → Course} {shown : List Transcript}
    {intent : Intent} (owned : stack ∈ rights.owns)
    (inside : SoundOn body shown stack (around ++ [intent]) result rights) :
    SoundOn (underScope stack intent body) shown stack around result rights := by
  intro contexts next within lists on
  have there := within stack (rights.seen owned)
  have opening : rights.Exerts contexts rights (contexts.push stack intent) :=
    rights.exerts_modify within owned _
  refine ⟨rights, opening, inside _ _ opening.within ?_ fun after kept => ?_⟩
  · rw [Contexts.stack_push there, if_pos rfl]
    exact lists.push intent
  · have closing : rights.Exerts after rights (after.close (contexts.nextScope stack intent)) :=
      rights.exerts_modify (opening.within.grown kept.grown) owned _
    exact ⟨rights, closing, on _ (kept.close there lists)⟩

/-- A body with scopes around it. -/
theorem soundOn_underScopes {body : (List Transcript → Course) → Course} {shown : List Transcript}
    {intents : List Intent} (owned : stack ∈ rights.owns)
    (inside : SoundOn body shown stack (around ++ intents) result rights) :
    SoundOn (underScopes stack body intents) shown stack around result rights := by
  induction intents generalizing around with
  | nil => rwa [List.append_nil] at inside
  | cons intent rest ih =>
      refine soundOn_underScope owned (ih ?_)
      rwa [List.append_assoc, List.singleton_append]

end Course

/-! ### Flows -/

/-- A body has the intents around it on a stack that it sees, and owns unless it shares it. -/
def Stands (shared : Bool) (rights : Rights) (contexts : Contexts) :
    Option (Nat × List Intent) → Prop
  | none => True
  | some (stack, around) =>
      stack ∈ rights.sees ∧ (shared = false → stack ∈ rights.owns) ∧
        (contexts.stack stack).Lists around

theorem IntentStack.Lists.keep {stack later : IntentStack} {around : List Intent}
    (lists : stack.Lists around) (scopes : later.scopes = stack.scopes)
    (next : stack.next ≤ later.next) : later.Lists around where
  intents := by rw [scopes, lists.intents]
  numbered := by
    rw [scopes]
    exact fun scope mem => Nat.lt_of_lt_of_le (lists.numbered scope mem) next

namespace Stands

variable {shared : Bool} {place : Option (Nat × List Intent)} {rights : Rights}
  {contexts after : Contexts}

theorem keep (stands : Stands shared rights contexts place)
    (kept : contexts.Kept rights.sees after) : Stands shared rights after place := by
  match place, stands with
  | none, _ => trivial
  | some (stack, around), ⟨seen, owned, lists⟩ =>
      exact ⟨seen, owned, lists.keep (kept.scopes stack seen) (kept.next stack seen)⟩

/-- On a stack that it owns. -/
theorem own {stack : Nat} {around : List Intent} (owned : stack ∈ rights.owns)
    (lists : (contexts.stack stack).Lists around) :
    Stands shared rights contexts (some (stack, around)) :=
  ⟨rights.seen owned, fun _ => owned, lists⟩

/-- A body at the side of another sees the same, and owns nothing. -/
theorem share (stands : Stands shared rights contexts place) :
    Stands true rights.reading contexts place := by
  match place, stands with
  | none, _ => trivial
  | some (stack, around), ⟨seen, _, lists⟩ => exact ⟨seen, nofun, lists⟩

/-- A fork of the ambient context has the same intents around it. -/
theorem fork (stands : Stands shared rights contexts place) :
    (((place.map Prod.fst).map contexts.stack).getD {}).Lists
      ((place.map Prod.snd).getD []) := by
  match place, stands with
  | none, _ => exact IntentStack.lists_nil
  | some (stack, around), ⟨_, _, lists⟩ => exact lists

/-- What is seen of the ambient context is decided by what is around. -/
theorem ambientView (stands : Stands shared rights contexts place) :
    contexts.ambientView (place.map Prod.fst) = (place.map Prod.snd).map .within := by
  match place, stands with
  | none, _ => rfl
  | some (stack, around), ⟨_, _, lists⟩ => exact congrArg some lists.view

theorem ambientIntent (stands : Stands shared rights contexts place) :
    contexts.ambientIntent (place.map Prod.fst) = .ruling ((place.map Prod.snd).getD []) := by
  rw [Contexts.ambientIntent, stands.ambientView]
  cases place <;> rfl

end Stands

namespace Flow

mutual

/-- The course of an action shows what is told of it. -/
theorem sound_course (flow : Flow) {shared : Bool} {place : Option (Nat × List Intent)}
    {rights : Rights} {contexts : Contexts} {result : List Transcript} {next : Transcript → Course}
    (lexical : flow.lexical shared = true) (within : rights.Within contexts)
    (stands : Stands shared rights contexts place)
    (on : ∀ after, contexts.Kept rights.sees after →
      (next (flow.told (place.map Prod.snd))).Sound result rights after) :
    (flow.course (place.map Prod.fst) next).Sound result rights contexts := by
  match flow with
  | .observe =>
      refine ⟨rights, .refl within, ?_⟩
      dsimp only
      rw [stands.ambientIntent, stands.ambientView]
      exact on contexts (.refl ..)
  | .withIntent intent body =>
      let added := ((place.map Prod.fst).map contexts.stack).getD {}
      have adds := rights.exerts_add within added
      have owned : contexts.byNumber.length ∈ (rights.adding contexts.byNumber.length).owns :=
        Set.mem_insert ..
      have forked : ((contexts.add added).stack contexts.byNumber.length).Lists
          ((place.map Prod.snd).getD []) := by
        rw [Contexts.stack_add, if_pos rfl]
        exact stands.fork
      refine ⟨_, adds, Course.soundOn_underScope owned (fun later rest there lists follow =>
        sound_courses body lexical there (.own owned lists) follow) _ _ adds.within forked ?_⟩
      intro after kept
      have old := (Contexts.kept_add within _).trans (kept.mono (rights.part_adding _).sees)
      exact (on after old).mono (rights.part_adding _)
  | .scoped intents body =>
      have adds := rights.exerts_add within {}
      have owned : contexts.byNumber.length ∈ (rights.adding contexts.byNumber.length).owns :=
        Set.mem_insert ..
      have lists : ((contexts.add {}).stack contexts.byNumber.length).Lists [] := by
        rw [Contexts.stack_add, if_pos rfl]
        exact IntentStack.lists_nil
      refine ⟨_, adds, Course.soundOn_underScopes owned (fun later rest there lists follow =>
        sound_courses body lexical there (.own owned lists) follow) _ _ adds.within lists ?_⟩
      intro after kept
      have old := (Contexts.kept_add within _).trans (kept.mono (rights.part_adding _).sees)
      have closed := lists.keep (kept.scopes _ (.inl rfl)) (kept.next _ (.inl rfl))
      refine ⟨rights, .mono (.refl (within.grown old.grown)) (rights.part_adding _), ?_⟩
      dsimp only
      rw [closed.view]
      exact on after old
  | .push intent body =>
      match place, stands with
      | none, _ => exact on contexts (.refl ..)
      | some (stack, around), ⟨_, owns, lists⟩ =>
          have parts := Bool.and_eq_true_iff.mp lexical
          have owned := owns (by simpa using parts.1)
          exact Course.soundOn_underScope owned (fun later rest there lists follow =>
            sound_courses body parts.2 there (.own owned lists) follow) _ _ within lists on
  | .sleep span => exact on
  | .join left right =>
      have parts := Bool.and_eq_true_iff.mp lexical
      refine ⟨_, _, fun after kept => ⟨?_, ?_, on after kept⟩⟩
      · exact sound_courses left parts.1 (within.grown kept.grown) (stands.keep kept).share
          fun _ _ => rfl
      · exact sound_courses right parts.2 (within.grown kept.grown) (stands.keep kept).share
          fun _ _ => rfl
  | .spawn body =>
      refine ⟨tolds none body, fun after => ?_, on⟩
      have nowhere : Stands false .none after none := trivial
      exact sound_courses body lexical (fun stack seen => absurd seen (Set.notMem_empty stack))
        nowhere fun _ _ => rfl
  termination_by structural flow

/-- The course of a body shows what is told of it. -/
theorem sound_courses (flows : List Flow) {shared : Bool} {place : Option (Nat × List Intent)}
    {rights : Rights} {contexts : Contexts} {result : List Transcript}
    {next : List Transcript → Course} (lexical : lexicals shared flows = true)
    (within : rights.Within contexts) (stands : Stands shared rights contexts place)
    (on : ∀ after, contexts.Kept rights.sees after →
      (next (tolds (place.map Prod.snd) flows)).Sound result rights after) :
    (courses (place.map Prod.fst) flows next).Sound result rights contexts := by
  match flows with
  | [] => exact on contexts (.refl ..)
  | flow :: rest =>
      rw [lexicals, Bool.and_eq_true] at lexical
      exact sound_course flow lexical.1 within stands fun after kept =>
        sound_courses rest lexical.2 (within.grown kept.grown) (stands.keep kept)
          fun last more => on last (kept.trans more)
  termination_by structural flows

end

end Flow

end ShardFleet
