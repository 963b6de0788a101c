import Mathlib.Data.List.Induction
import Mathlib.Data.List.Nodup
import ShardFleet.Intent.Session

/-!
What routing contexts show, told from their history.

The history of a session says by itself which stack each context refers to (`Layout`), and which
scopes are live on a stack (`Live`): those that were opened on it and not closed since, and those
that were live on another stack when this one was copied from it. Of the live scopes a forced write
decides, or else the latest (`Decides`).

A session numbers scopes within each stack, and a copy goes on with the numbers of its origin; so
equal numbers on two stacks may be different scopes. What is kept, command by command, is that
each stack lists its live scopes in the order in which they were opened, and that whoever may close
a scope has the number of it on the stack where it was opened (`Tells`, `Tells.perform`). Hence a
session shows what its history decides (`Tells.decides`).
-/

namespace ShardFleet

/-! ### Histories -/

/-- What a history says of contexts and scopes: the stack of each context, the stack on which each
scope was opened, and how many stacks there are. -/
structure Layout where
  contexts : List Nat := [0]
  scopes : List Nat := []
  stackCount : Nat := 1

namespace Layout

/-- The stack of a context. -/
def stackOf (layout : Layout) (context : Nat) : Nat := layout.contexts.getD context 0

/-- What a command adds. -/
def add (layout : Layout) : ContextCommand → Layout
  | .push context _ => { layout with scopes := layout.scopes ++ [layout.stackOf context] }
  | .fork _ | .create =>
      { layout with
        contexts := layout.contexts ++ [layout.stackCount]
        stackCount := layout.stackCount + 1 }
  | .share context => { layout with contexts := layout.contexts ++ [layout.stackOf context] }
  | .close _ | .forget _ => layout

/-- The layout after a history. -/
def after (history : List ContextCommand) : Layout := history.foldl add {}

@[simp] theorem after_concat (history : List ContextCommand) (command : ContextCommand) :
    after (history ++ [command]) = (after history).add command := by
  simp [after]

end Layout

/-- The context was started and has not been given up. -/
def Held (history : List ContextCommand) (context : Nat) : Prop :=
  context < (Layout.after history).contexts.length ∧ .forget context ∉ history

instance (history : List ContextCommand) (context : Nat) : Decidable (Held history context) :=
  inferInstanceAs (Decidable (_ ∧ _))

/-- The context that a command names, if it names one, is held. -/
def ContextCommand.Names (history : List ContextCommand) : ContextCommand → Prop
  | .push context _ | .fork context | .share context | .forget context => Held history context
  | .close _ | .create => True

instance (history : List ContextCommand) : (command : ContextCommand) →
    Decidable (command.Names history)
  | .push context _ | .fork context | .share context | .forget context =>
      inferInstanceAs (Decidable (Held history context))
  | .close _ | .create => inferInstanceAs (Decidable True)

/-- Every command names a context that is held at the time. -/
def Programmed (history : List ContextCommand) : Prop :=
  ∀ earlier command later, history = earlier ++ command :: later → command.Names earlier

theorem programmed_iff {history : List ContextCommand} :
    Programmed history ↔
      ∀ n (bound : n < history.length), history[n].Names (history.take n) := by
  constructor
  · intro programmed n bound
    refine programmed (history.take n) history[n] (history.drop (n + 1)) ?_
    rw [List.getElem_cons_drop, List.take_append_drop]
  · rintro named earlier command later rfl
    simpa using named earlier.length (by simp)

instance (history : List ContextCommand) : Decidable (Programmed history) :=
  decidable_of_iff _ programmed_iff.symm

/-- The stack whose scopes a command changes. -/
def ContextCommand.target? (history : List ContextCommand) : ContextCommand → Option Nat
  | .push context _ => some ((Layout.after history).stackOf context)
  | .close scope => (Layout.after history).scopes[scope]?
  | .fork _ | .share _ | .create | .forget _ => none

/-- After a history a scope with this intent is live on a stack. It was opened there and not closed
since, or it was live on the stack from which this one was copied. -/
inductive Live : List ContextCommand → Nat → Nat → Intent → Prop where
  | opened {earlier later : List ContextCommand} {context : Nat} {intent : Intent}
      (kept : .close (Layout.after earlier).scopes.length ∉ later) :
      Live (earlier ++ .push context intent :: later) ((Layout.after earlier).stackOf context)
        (Layout.after earlier).scopes.length intent
  | copied {earlier later : List ContextCommand} {context scope : Nat} {intent : Intent}
      (live : Live earlier ((Layout.after earlier).stackOf context) scope intent) :
      Live (earlier ++ .fork context :: later) (Layout.after earlier).stackCount scope intent

/-- What live scopes decide: a forced write if there is one, or else the intent of the latest; with
no scope at all, to write. -/
inductive Decides (live : Nat → Intent → Prop) : Intent → Prop where
  | forced {scope : Nat} (forced : live scope .forceWrite) : Decides live .forceWrite
  | latest {scope : Nat} {intent : Intent} (unforced : ∀ other, ¬ live other .forceWrite)
      (open_ : live scope intent) (last : ∀ other intent, live other intent → other ≤ scope) :
      Decides live intent
  | idle (none : ∀ scope intent, ¬ live scope intent) : Decides live .write

/-! ### One more command -/

section

variable {history : List ContextCommand} {command : ContextCommand} {stack scope : Nat}
  {intent : Intent}

/-- A history that ends in a command is cut there or before. -/
theorem cut_concat {earlier later : List ContextCommand} {last : ContextCommand}
    (cut : history ++ [last] = earlier ++ command :: later) :
    earlier = history ∧ command = last ∧ later = [] ∨
      ∃ rest, later = rest ++ [last] ∧ history = earlier ++ command :: rest := by
  rcases List.eq_nil_or_concat later with rfl | ⟨rest, final, rfl⟩
  · obtain ⟨rfl, single⟩ := List.append_inj' cut rfl
    exact .inl ⟨rfl, (List.singleton_inj.mp single).symm, rfl⟩
  · rw [List.concat_eq_append, ← List.cons_append, ← List.append_assoc] at cut
    obtain ⟨rfl, single⟩ := List.append_inj' cut rfl
    exact .inr ⟨rest, by rw [List.concat_eq_append, List.singleton_inj.mp single], rfl⟩

theorem Programmed.init (programmed : Programmed (history ++ [command])) : Programmed history := by
  rintro earlier other later rfl
  exact programmed earlier other (later ++ [command]) (by simp)

theorem Programmed.names (programmed : Programmed (history ++ [command])) :
    command.Names history :=
  programmed history command [] rfl

namespace Layout

theorem scopes_grow (history later : List ContextCommand) :
    (after history).scopes <+: (after (history ++ later)).scopes := by
  induction later using List.reverseRecOn with
  | nil => simp
  | append_singleton rest last ih =>
      rw [← List.append_assoc, after_concat]
      refine ih.trans ?_
      cases last <;> simp [add]

/-- A scope is listed with the stack on which it was opened. -/
theorem scopes_opened (earlier later : List ContextCommand) (context : Nat) (intent : Intent) :
    (after (earlier ++ .push context intent :: later)).scopes[(after earlier).scopes.length]? =
      some ((after earlier).stackOf context) := by
  obtain ⟨rest, grown⟩ := scopes_grow (earlier ++ [.push context intent]) later
  rw [List.append_assoc, List.singleton_append, after_concat] at grown
  rw [← grown]
  simp [add]

theorem stackOf_mem_or (layout : Layout) (context : Nat) :
    layout.stackOf context ∈ layout.contexts ∨ layout.stackOf context = 0 := by
  unfold stackOf
  rw [List.getD_eq_getElem?_getD]
  cases found : layout.contexts[context]? with
  | none => exact .inr rfl
  | some stack => exact .inl (List.mem_of_getElem? found)

/-- Every stack that is referred to is there. -/
structure Bounded (layout : Layout) : Prop where
  stackCount : 0 < layout.stackCount
  contexts : ∀ stack ∈ layout.contexts, stack < layout.stackCount
  scopes : ∀ stack ∈ layout.scopes, stack < layout.stackCount

theorem Bounded.stackOf_lt {layout : Layout} (bounded : layout.Bounded) (context : Nat) :
    layout.stackOf context < layout.stackCount := by
  rcases layout.stackOf_mem_or context with mem | zero
  · exact bounded.contexts _ mem
  · exact zero ▸ bounded.stackCount

theorem bounded_after (history : List ContextCommand) : (after history).Bounded := by
  induction history using List.reverseRecOn with
  | nil => exact ⟨Nat.one_pos, by simp [after], nofun⟩
  | append_singleton rest last ih =>
      rw [after_concat]
      have own := ih.stackOf_lt
      obtain ⟨stackCount, contexts, scopes⟩ := ih
      have later : ∀ stackCount', (after rest).stackCount ≤ stackCount' →
          ∀ stack ∈ (after rest).scopes, stack < stackCount' := fun _ more stack mem =>
        Nat.lt_of_lt_of_le (scopes stack mem) more
      have fresh : ∀ stack ∈ (after rest).contexts ++ [(after rest).stackCount],
          stack < (after rest).stackCount + 1 := by
        refine List.forall_mem_append.mpr ⟨fun stack mem => ?_, by simp⟩
        exact Nat.lt_succ_of_lt (contexts stack mem)
      cases last with
      | push context intent =>
          refine ⟨stackCount, contexts, List.forall_mem_append.mpr ⟨scopes, ?_⟩⟩
          exact List.forall_mem_singleton.mpr (own context)
      | share context =>
          refine ⟨stackCount, List.forall_mem_append.mpr ⟨contexts, ?_⟩, scopes⟩
          exact List.forall_mem_singleton.mpr (own context)
      | fork context => exact ⟨Nat.succ_pos _, fresh, later _ (Nat.le_succ _)⟩
      | create => exact ⟨Nat.succ_pos _, fresh, later _ (Nat.le_succ _)⟩
      | close scope => exact ⟨stackCount, contexts, scopes⟩
      | forget context => exact ⟨stackCount, contexts, scopes⟩

end Layout

/-- A live scope was opened. -/
theorem Live.scope_lt (live : Live history stack scope intent) :
    scope < (Layout.after history).scopes.length := by
  induction live with
  | opened => exact (List.getElem?_eq_some_iff.mp (Layout.scopes_opened ..)).1
  | @copied earlier later _ _ _ live ih =>
      exact Nat.lt_of_lt_of_le ih (Layout.scopes_grow earlier _).length_le

/-- A copy of a scope is on another stack than the scope was opened on. -/
theorem Live.not_opened {earlier : List ContextCommand} (live : Live earlier stack scope intent)
    (later : List ContextCommand) :
    (Layout.after (earlier ++ later)).scopes[scope]? ≠ some (Layout.after earlier).stackCount := by
  obtain ⟨rest, grown⟩ := Layout.scopes_grow earlier later
  rw [← grown, List.getElem?_append_left live.scope_lt]
  intro opened
  have known := (Layout.bounded_after earlier).scopes _ (List.mem_of_getElem? opened)
  exact Nat.lt_irrefl _ known

/-- A live scope stays live, unless it is closed on the stack where it was opened. -/
theorem Live.keep (live : Live history stack scope intent)
    (kept : command = .close scope → (Layout.after history).scopes[scope]? ≠ some stack) :
    Live (history ++ [command]) stack scope intent := by
  cases live with
  | @opened earlier later context _ open_ =>
      rw [List.append_assoc, List.cons_append]
      refine .opened fun closed => ?_
      rcases List.mem_append.mp closed with before | last
      · exact open_ before
      · exact kept (List.mem_singleton.mp last).symm (Layout.scopes_opened ..)
  | copied live =>
      rw [List.append_assoc, List.cons_append]
      exact .copied live

/-- A scope that is live was live before the last command, or this opened or copied it. -/
theorem Live.cases_concat (live : Live (history ++ [command]) stack scope intent) :
    (Live history stack scope intent ∧
        (command = .close scope → (Layout.after history).scopes[scope]? ≠ some stack)) ∨
      (∃ context, command = .push context intent ∧
        stack = (Layout.after history).stackOf context ∧
        scope = (Layout.after history).scopes.length) ∨
      ∃ context, command = .fork context ∧ stack = (Layout.after history).stackCount ∧
        Live history ((Layout.after history).stackOf context) scope intent := by
  generalize whole : history ++ [command] = all at live
  cases live with
  | @opened earlier later context _ open_ =>
      rcases cut_concat whole with ⟨rfl, rfl, rfl⟩ | ⟨rest, rfl, rfl⟩
      · exact .inr (.inl ⟨context, rfl, rfl, rfl⟩)
      · rw [List.mem_append, not_or, List.mem_singleton] at open_
        exact .inl ⟨.opened open_.1, fun closed => absurd closed.symm open_.2⟩
  | @copied earlier later context _ _ live =>
      rcases cut_concat whole with ⟨rfl, rfl, rfl⟩ | ⟨rest, rfl, rfl⟩
      · exact .inr (.inr ⟨context, rfl, rfl, live⟩)
      · exact .inl ⟨.copied live, fun _ => live.not_opened _⟩

/-- What one more command does to the live scopes. -/
theorem live_concat : Live (history ++ [command]) stack scope intent ↔
    (Live history stack scope intent ∧
        (command = .close scope → (Layout.after history).scopes[scope]? ≠ some stack)) ∨
      (∃ context, command = .push context intent ∧
        stack = (Layout.after history).stackOf context ∧
        scope = (Layout.after history).scopes.length) ∨
      ∃ context, command = .fork context ∧ stack = (Layout.after history).stackCount ∧
        Live history ((Layout.after history).stackOf context) scope intent := by
  refine ⟨Live.cases_concat, ?_⟩
  rintro (⟨live, kept⟩ | ⟨context, rfl, rfl, rfl⟩ | ⟨context, rfl, rfl, live⟩)
  · exact live.keep kept
  · exact .opened List.not_mem_nil
  · exact .copied live

theorem live_push {context : Nat} {opened : Intent} :
    Live (history ++ [.push context opened]) stack scope intent ↔
      Live history stack scope intent ∨ opened = intent ∧
        stack = (Layout.after history).stackOf context ∧
        scope = (Layout.after history).scopes.length := by
  simp [live_concat]

theorem live_close {closed : Nat} :
    Live (history ++ [.close closed]) stack scope intent ↔
      Live history stack scope intent ∧
        (closed = scope → (Layout.after history).scopes[scope]? ≠ some stack) := by
  simp [live_concat]

theorem live_fork {context : Nat} :
    Live (history ++ [.fork context]) stack scope intent ↔
      Live history stack scope intent ∨ stack = (Layout.after history).stackCount ∧
        Live history ((Layout.after history).stackOf context) scope intent := by
  simp [live_concat]

theorem not_live_nil : ¬ Live [] stack scope intent := by
  generalize none : ([] : List ContextCommand) = history
  rintro (_ | _) <;> simp at none

theorem Held.of_concat {context : Nat} (held : Held (history ++ [command]) context)
    (old : context < (Layout.after history).contexts.length) : Held history context :=
  ⟨old, fun forgotten => held.2 (List.mem_append_left _ forgotten)⟩

/-- A context that is held refers to the same stack as before. -/
theorem Held.stackOf_concat {context : Nat} (held : Held history context)
    (command : ContextCommand) :
    (Layout.after (history ++ [command])).stackOf context =
      (Layout.after history).stackOf context := by
  rw [Layout.after_concat]
  cases command with
  | fork _ | share _ | create =>
      simp only [Layout.stackOf, Layout.add, List.getD_eq_getElem?_getD,
        List.getElem?_append_left held.1]
  | push _ _ | close _ | forget _ => rfl

end

/-! ### Stacks -/

theorem getElem?_concat_of_ne {α : Type} {list : List α} {last : α} {n : Nat}
    (different : n ≠ list.length) : (list ++ [last])[n]? = list[n]? := by
  rcases Nat.lt_or_gt_of_ne different with old | beyond
  · exact List.getElem?_append_left old
  · have past : (list ++ [last]).length ≤ n := by
      simpa [Nat.succ_le_iff] using beyond
    rw [List.getElem?_eq_none past, List.getElem?_eq_none (Nat.le_of_lt beyond)]

namespace Contexts

variable {contexts : Contexts} {number : Nat}

theorem stack_modify (there : number < contexts.byNumber.length) (f : IntentStack → IntentStack)
    (other : Nat) :
    stack ⟨contexts.byNumber.modify number f⟩ other =
      if other = number then f (contexts.stack number) else contexts.stack other := by
  simp only [stack, List.getD_eq_getElem?_getD, List.getElem?_modify]
  split
  · next same =>
      subst same
      simp [List.getElem?_eq_getElem there]
  · next different => simp [Ne.symm different]

theorem stack_push (there : number < contexts.byNumber.length) (intent : Intent) (other : Nat) :
    (contexts.push number intent).stack other =
      if other = number then (contexts.stack number).push intent else contexts.stack other :=
  stack_modify there _ other

theorem stack_close {scope : Scope} (there : scope.stack < contexts.byNumber.length)
    (other : Nat) :
    (contexts.close scope).stack other =
      if other = scope.stack then (contexts.stack scope.stack).close scope.number
      else contexts.stack other :=
  stack_modify there _ other

theorem stack_add (contexts : Contexts) (stack : IntentStack) (other : Nat) :
    (contexts.add stack).stack other =
      if other = contexts.byNumber.length then stack else contexts.stack other := by
  simp only [Contexts.stack, add, List.getD_eq_getElem?_getD]
  split
  · next same => simp [same]
  · next different => rw [getElem?_concat_of_ne different]

end Contexts

/-! ### How a stack lists its scopes -/

/-- A live scope as a stack lists it, under its number there. -/
structure Entry where
  number : Nat
  scope : Nat
  intent : Intent

/-- A stack lists its live scopes in the order in which they were opened. -/
structure Listing (stack : IntentStack) (entries : List Entry) : Prop where
  listed : stack.scopes = entries.map fun entry => (entry.number, entry.intent)
  ordered : entries.Pairwise fun one other => one.number < other.number ∧ one.scope < other.scope
  numbered : ∀ entry ∈ entries, entry.number < stack.next

namespace Listing

variable {stack : IntentStack} {entries : List Entry}

theorem nil : Listing {} [] := ⟨rfl, .nil, nofun⟩

theorem push (listing : Listing stack entries) {scope : Nat}
    (fresh : ∀ entry ∈ entries, entry.scope < scope) (intent : Intent) :
    Listing (stack.push intent) (entries ++ [⟨stack.next, scope, intent⟩]) := by
  refine ⟨?_, ?_, ?_⟩
  · rw [IntentStack.push, listing.listed, List.map_append]
    rfl
  · refine List.pairwise_append.mpr ⟨listing.ordered, List.pairwise_singleton _ _, ?_⟩
    intro earlier mem last new
    rw [List.mem_singleton.mp new]
    exact ⟨listing.numbered earlier mem, fresh earlier mem⟩
  · refine List.forall_mem_append.mpr ⟨fun earlier mem => ?_, ?_⟩
    · exact Nat.lt_succ_of_lt (listing.numbered earlier mem)
    · exact List.forall_mem_singleton.mpr (Nat.lt_succ_self stack.next)

theorem close (listing : Listing stack entries) (number : Nat) :
    Listing (stack.close number) (entries.filter (·.number ≠ number)) := by
  refine ⟨?_, listing.ordered.filter _, fun entry mem => ?_⟩
  · rw [IntentStack.close, listing.listed, List.filter_map]
    rfl
  · exact listing.numbered entry (List.mem_filter.mp mem).1

/-- No scope is listed twice. -/
theorem eq_of_scope (listing : Listing stack entries) {one other : Entry}
    (first : one ∈ entries) (second : other ∈ entries) (same : one.scope = other.scope) :
    one = other :=
  List.inj_on_of_nodup_map (f := Entry.scope)
    (List.pairwise_map.mpr (listing.ordered.imp fun before => Nat.ne_of_lt before.2))
    first second same

/-- No number is used twice. -/
theorem eq_of_number (listing : Listing stack entries) {one other : Entry}
    (first : one ∈ entries) (second : other ∈ entries) (same : one.number = other.number) :
    one = other :=
  List.inj_on_of_nodup_map (f := Entry.number)
    (List.pairwise_map.mpr (listing.ordered.imp fun before => Nat.ne_of_lt before.1))
    first second same

/-- A stack has the intent in effect that its scopes decide on. -/
theorem decides (listing : Listing stack entries) :
    Decides (fun scope intent => ∃ number, ⟨number, scope, intent⟩ ∈ entries) stack.effective := by
  unfold IntentStack.effective IntentStack.current?
  rw [listing.listed]
  split
  · next forced =>
      obtain ⟨_, mem, force⟩ := List.any_eq_true.mp forced
      obtain ⟨⟨number, scope, intent⟩, listed, rfl⟩ := List.mem_map.mp mem
      obtain rfl : intent = .forceWrite := by simpa using force
      exact .forced ⟨number, listed⟩
  · next unforced =>
      rcases List.eq_nil_or_concat entries with rfl | ⟨earlier, ⟨number, scope, intent⟩, rfl⟩
      · exact .idle fun scope intent => by simp
      · rw [List.concat_eq_append] at unforced listing ⊢
        rw [List.map_append, List.getLast?_append]
        have last : ∃ number', ⟨number', scope, intent⟩ ∈
            earlier ++ [(⟨number, scope, intent⟩ : Entry)] := ⟨number, by simp⟩
        change Decides _ intent
        refine .latest ?_ last ?_
        · rintro other ⟨number, mem⟩
          exact unforced (List.any_eq_true.mpr ⟨_, List.mem_map_of_mem mem, by simp⟩)
        · rintro other intent ⟨number, mem⟩
          rcases List.mem_append.mp mem with before | last
          · have order := (List.pairwise_append.mp listing.ordered).2.2 _ before _
              (List.mem_singleton_self _)
            exact Nat.le_of_lt order.2
          · exact Nat.le_of_eq (congrArg Entry.scope (List.mem_singleton.mp last))

end Listing

/-! ### What a session keeps -/

/-- Each stack of a session lists its live scopes, and the session can close a scope on the stack
where it was opened. -/
structure Tells (history : List ContextCommand) (session : ContextSession)
    (entries : Nat → List Entry) : Prop where
  stackCount : session.contexts.byNumber.length = (Layout.after history).stackCount
  held : session.held.length = (Layout.after history).contexts.length
  contexts : ∀ context, Held history context →
    session.held[context]? = some (some ((Layout.after history).stackOf context))
  scopes : session.scopes.length = (Layout.after history).scopes.length
  lists : ∀ stack, Listing (session.contexts.stack stack) (entries stack)
  live : ∀ stack scope intent, Live history stack scope intent ↔
    ∃ number, ⟨number, scope, intent⟩ ∈ entries stack
  closable : ∀ stack number scope intent,
    session.scopes[scope]? = some (some ⟨stack, number, intent⟩) ↔
      (Layout.after history).scopes[scope]? = some stack ∧
        ⟨number, scope, intent⟩ ∈ entries stack

namespace Tells

variable {history : List ContextCommand} {session : ContextSession} {entries : Nat → List Entry}

theorem begin : Tells [] {} fun _ => [] where
  stackCount := rfl
  held := rfl
  contexts := by
    rintro context ⟨first, -⟩
    obtain rfl : context = 0 := by simpa [Layout.after] using first
    rfl
  scopes := rfl
  lists stack := by cases stack <;> exact .nil
  live stack scope intent := by simp [not_live_nil]
  closable stack number scope intent := by simp

/-- The context of a command is known to the session. -/
theorem stackOf_eq (tells : Tells history session entries) {context : Nat}
    (held : Held history context) :
    session.stackOf context = (Layout.after history).stackOf context := by
  rw [ContextSession.stackOf, List.getD_eq_getElem?_getD, tells.contexts context held]
  rfl

/-- What is listed was opened. -/
theorem scope_lt (tells : Tells history session entries) {stack : Nat} :
    ∀ entry ∈ entries stack, entry.scope < (Layout.after history).scopes.length :=
  fun entry mem => ((tells.live stack entry.scope entry.intent).mpr ⟨entry.number, mem⟩).scope_lt

theorem there (tells : Tells history session entries) (context : Nat) :
    (Layout.after history).stackOf context < session.contexts.byNumber.length := by
  rw [tells.stackCount]
  exact (Layout.bounded_after history).stackOf_lt context

/-- A new scope is listed last on its stack. -/
theorem push (tells : Tells history session entries) {context : Nat} (held : Held history context)
    (intent : Intent) :
    ∃ later, Tells (history ++ [.push context intent]) (session.perform (.push context intent))
      later := by
  let stack := (Layout.after history).stackOf context
  let entry : Entry :=
    ⟨(session.contexts.stack stack).next, (Layout.after history).scopes.length, intent⟩
  refine ⟨Function.update entries stack (entries stack ++ [entry]), ?_⟩
  have performed : session.perform (.push context intent) =
      { session with
        contexts := session.contexts.push stack intent
        scopes := session.scopes ++ [some (session.contexts.nextScope stack intent)] } := by
    rw [ContextSession.perform, tells.stackOf_eq held]
  have listed : ∀ other (one : Entry),
      one ∈ Function.update entries stack (entries stack ++ [entry]) other ↔
        one ∈ entries other ∨ other = stack ∧ one = entry := by
    intro other one
    by_cases same : other = stack
    · subst same
      simp
    · simp [same]
  rw [performed]
  constructor
  · rw [Layout.after_concat]
    exact (List.length_modify ..).trans tells.stackCount
  · rw [Layout.after_concat]
    exact tells.held
  · intro other kept
    have old : Held history other := kept.of_concat (by simpa [Layout.add] using kept.1)
    rw [old.stackOf_concat]
    exact tells.contexts other old
  · rw [Layout.after_concat]
    simp [tells.scopes, Layout.add]
  · intro other
    rw [Contexts.stack_push (tells.there context)]
    by_cases same : other = stack
    · subst same
      rw [if_pos rfl, Function.update_self]
      exact (tells.lists _).push tells.scope_lt intent
    · rw [if_neg same, Function.update_of_ne same]
      exact tells.lists other
  · intro other scope aim
    simp only [listed, exists_or, ← tells.live, live_push]
    refine or_congr_right ⟨?_, ?_⟩
    · rintro ⟨rfl, rfl, rfl⟩
      exact ⟨_, rfl, rfl⟩
    · rintro ⟨number, rfl, new⟩
      obtain ⟨-, rfl, rfl⟩ := Entry.mk.inj new
      exact ⟨rfl, rfl, rfl⟩
  · intro other number scope aim
    rw [listed, Layout.after_concat, Layout.add]
    dsimp only
    by_cases new : scope = (Layout.after history).scopes.length
    · rw [new, List.getElem?_concat_length, ← tells.scopes, List.getElem?_concat_length]
      constructor
      · intro same
        obtain ⟨rfl, rfl, rfl⟩ := Scope.mk.inj (Option.some.inj (Option.some.inj same))
        exact ⟨rfl, .inr ⟨rfl, congrArg (Entry.mk _ · _) tells.scopes⟩⟩
      · rintro ⟨same, old | ⟨-, new⟩⟩
        · exact absurd (tells.scopes ▸ tells.scope_lt _ old) (Nat.lt_irrefl _)
        · obtain rfl := Option.some.inj same
          obtain ⟨rfl, -, rfl⟩ := Entry.mk.inj new
          rfl
    · rw [getElem?_concat_of_ne new, getElem?_concat_of_ne (tells.scopes ▸ new), tells.closable]
      refine and_congr_right fun _ => (or_iff_left ?_).symm
      exact fun last => new (congrArg Entry.scope last.2)

/-- A scope that nobody can close, or has closed before, stays as it is. -/
theorem close_unheld (tells : Tells history session entries) {scope : Nat}
    (unheld : ∀ stack number intent,
      session.scopes[scope]? ≠ some (some ⟨stack, number, intent⟩)) :
    Tells (history ++ [.close scope]) session entries := by
  have layout : Layout.after (history ++ [.close scope]) = Layout.after history :=
    Layout.after_concat ..
  refine ⟨?_, ?_, ?_, ?_, tells.lists, ?_, ?_⟩
  · rw [layout]
    exact tells.stackCount
  · rw [layout]
    exact tells.held
  · intro context kept
    rw [layout]
    exact tells.contexts context (kept.of_concat (layout ▸ kept.1))
  · rw [layout]
    exact tells.scopes
  · intro stack other intent
    rw [← tells.live, live_close]
    refine and_iff_left_of_imp fun live same opened => ?_
    subst same
    obtain ⟨number, mem⟩ := (tells.live ..).mp live
    exact unheld stack number intent ((tells.closable ..).mpr ⟨opened, mem⟩)
  · rw [layout]
    exact tells.closable

/-- A scope that is closed is listed no more on the stack where it was opened. -/
theorem close_held (tells : Tells history session entries) {scope stack number : Nat}
    {intent : Intent} (held : session.scopes[scope]? = some (some ⟨stack, number, intent⟩)) :
    Tells (history ++ [.close scope])
      { session with
        contexts := session.contexts.close ⟨stack, number, intent⟩
        scopes := session.scopes.set scope none }
      (Function.update entries stack ((entries stack).filter (·.number ≠ number))) := by
  obtain ⟨opened, mem⟩ := (tells.closable ..).mp held
  have layout : Layout.after (history ++ [.close scope]) = Layout.after history :=
    Layout.after_concat ..
  have there : stack < session.contexts.byNumber.length := by
    rw [tells.stackCount]
    exact (Layout.bounded_after history).scopes _ (List.mem_of_getElem? opened)
  have listed : ∀ other (one : Entry),
      one ∈ Function.update entries stack ((entries stack).filter (·.number ≠ number)) other ↔
        one ∈ entries other ∧ ¬ (other = stack ∧ one.scope = scope) := by
    intro other one
    by_cases same : other = stack
    · subst same
      rw [Function.update_self, List.mem_filter]
      refine and_congr_right fun listed => ?_
      have numbers : one.number = number ↔ one.scope = scope :=
        ⟨fun same => congrArg Entry.scope ((tells.lists _).eq_of_number listed mem same),
          fun same => congrArg Entry.number ((tells.lists _).eq_of_scope listed mem same)⟩
      simp [numbers]
    · simp [same]
  refine ⟨?_, ?_, ?_, ?_, ?_, ?_, ?_⟩
  · rw [layout]
    exact (List.length_modify ..).trans tells.stackCount
  · rw [layout]
    exact tells.held
  · intro context kept
    rw [layout]
    exact tells.contexts context (kept.of_concat (layout ▸ kept.1))
  · rw [layout]
    exact List.length_set.trans tells.scopes
  · intro other
    rw [Contexts.stack_close there]
    by_cases same : other = stack
    · subst same
      rw [if_pos rfl, Function.update_self]
      exact (tells.lists _).close number
    · rw [if_neg same, Function.update_of_ne same]
      exact tells.lists other
  · intro other g i
    simp only [listed, exists_and_right, ← tells.live, live_close]
    refine and_congr_right fun _ => ⟨fun kept here => ?_, fun apart same there => ?_⟩
    · obtain ⟨rfl, rfl⟩ := here
      exact kept rfl opened
    · subst same
      exact apart ⟨Option.some.inj (there.symm.trans opened), rfl⟩
  · intro other n g i
    rw [listed, layout, ← and_assoc, ← tells.closable, List.getElem?_set]
    by_cases same : scope = g
    · subst same
      have gone : ¬ (if scope < session.scopes.length then some (none : Option Scope) else none) =
          some (some ⟨other, n, i⟩) := by
        split <;> exact nofun
      rw [if_pos rfl, held]
      refine iff_of_false gone ?_
      rintro ⟨open_, elsewhere⟩
      obtain ⟨rfl, -, -⟩ := Scope.mk.inj (Option.some.inj (Option.some.inj open_))
      exact elsewhere ⟨rfl, rfl⟩
    · rw [if_neg same]
      exact (and_iff_left fun here => same here.2.symm).symm

theorem close (tells : Tells history session entries) (scope : Nat) :
    ∃ later, Tells (history ++ [.close scope]) (session.perform (.close scope)) later := by
  rw [ContextSession.perform, List.getD_eq_getElem?_getD]
  cases found : session.scopes[scope]? with
  | none => exact ⟨entries, tells.close_unheld fun _ _ _ => by simp [found]⟩
  | some place =>
      cases place with
      | none => exact ⟨entries, tells.close_unheld fun _ _ _ => by simp [found]⟩
      | some open_ => exact ⟨_, tells.close_held found⟩

/-- What is listed is listed on a stack that is there. -/
theorem entries_new (tells : Tells history session entries) :
    entries (Layout.after history).stackCount = [] := by
  have listed := (tells.lists (Layout.after history).stackCount).listed
  have absent : session.contexts.stack (Layout.after history).stackCount = {} := by
    have beyond := Nat.le_of_eq tells.stackCount
    rw [Contexts.stack, List.getD_eq_getElem?_getD, List.getElem?_eq_none beyond]
    rfl
  rw [absent] at listed
  exact List.map_eq_nil_iff.mp listed.symm

/-- A context that is started on a stack of its own finds the scopes there that the stack starts
with, and these can be closed nowhere. -/
theorem hold (tells : Tells history session entries) {command : ContextCommand}
    {added : IntentStack} {copied : List Entry}
    (layout : Layout.after (history ++ [command]) =
      { Layout.after history with
        contexts := (Layout.after history).contexts ++ [(Layout.after history).stackCount]
        stackCount := (Layout.after history).stackCount + 1 })
    (lists : Listing added copied)
    (live : ∀ stack scope intent, Live (history ++ [command]) stack scope intent ↔
      Live history stack scope intent ∨ stack = (Layout.after history).stackCount ∧
        ∃ number, ⟨number, scope, intent⟩ ∈ copied) :
    Tells (history ++ [command]) (session.hold (session.contexts.add added))
      (Function.update entries (Layout.after history).stackCount copied) := by
  have size := tells.stackCount
  refine ⟨?_, ?_, ?_, ?_, ?_, ?_, ?_⟩
  · rw [layout]
    simp [ContextSession.hold, Contexts.add, size]
  · rw [layout]
    simp [ContextSession.hold, tells.held]
  · intro context kept
    have bound : context < (Layout.after history).contexts.length + 1 := by
      simpa [layout] using kept.1
    rcases Nat.lt_or_eq_of_le (Nat.le_of_lt_succ bound) with old | rfl
    · have held := kept.of_concat old
      rw [held.stackOf_concat, ContextSession.hold, List.getElem?_append_left (tells.held ▸ old)]
      exact tells.contexts context held
    · rw [layout, ← tells.held, Layout.stackOf, List.getD_eq_getElem?_getD]
      simp [ContextSession.hold, tells.held, size]
  · rw [layout]
    exact tells.scopes
  · intro other
    rw [ContextSession.hold, Contexts.stack_add, size]
    by_cases same : other = (Layout.after history).stackCount
    · rw [if_pos same, same, Function.update_self]
      exact lists
    · rw [if_neg same, Function.update_of_ne same]
      exact tells.lists other
  · intro other scope intent
    rw [live, tells.live]
    by_cases same : other = (Layout.after history).stackCount
    · subst same
      simp [tells.entries_new]
    · simp [same]
  · intro other number scope intent
    rw [layout]
    refine (tells.closable other number scope intent).trans (and_congr_right fun opened => ?_)
    have old := (Layout.bounded_after history).scopes other (List.mem_of_getElem? opened)
    rw [Function.update_of_ne (Nat.ne_of_lt old)]

/-- A fork lists what its origin lists. -/
theorem fork (tells : Tells history session entries) {context : Nat}
    (held : Held history context) :
    ∃ later, Tells (history ++ [.fork context]) (session.perform (.fork context)) later := by
  rw [ContextSession.perform, tells.stackOf_eq held]
  refine ⟨_, tells.hold (Layout.after_concat ..)
    (tells.lists ((Layout.after history).stackOf context)) fun stack scope intent => ?_⟩
  rw [← tells.live]
  exact live_fork

theorem create (tells : Tells history session entries) :
    ∃ later, Tells (history ++ [.create]) (session.perform .create) later := by
  refine ⟨_, tells.hold (Layout.after_concat ..) .nil fun stack scope intent => ?_⟩
  simp [live_concat]

/-- One more number for a context refers to the same stack. -/
theorem share (tells : Tells history session entries) {context : Nat}
    (held : Held history context) :
    Tells (history ++ [.share context]) (session.perform (.share context)) entries := by
  rw [ContextSession.perform, tells.stackOf_eq held]
  have layout := Layout.after_concat history (.share context)
  refine ⟨?_, ?_, ?_, ?_, tells.lists, fun stack scope intent => ?_, ?_⟩
  · rw [layout]
    exact tells.stackCount
  · rw [layout]
    simp [Layout.add, tells.held]
  · intro other kept
    have bound : other < (Layout.after history).contexts.length + 1 := by
      simpa [layout, Layout.add] using kept.1
    rcases Nat.lt_or_eq_of_le (Nat.le_of_lt_succ bound) with old | rfl
    · have known := kept.of_concat old
      rw [known.stackOf_concat, List.getElem?_append_left (tells.held ▸ old)]
      exact tells.contexts other known
    · rw [layout, ← tells.held]
      simp [Layout.add, Layout.stackOf, tells.held]
  · rw [layout]
    exact tells.scopes
  · rw [← tells.live]
    simp [live_concat]
  · rw [layout]
    exact tells.closable

/-- A number that is given up is not used again. -/
theorem forget (tells : Tells history session entries) (context : Nat) :
    Tells (history ++ [.forget context]) (session.perform (.forget context)) entries := by
  have layout : Layout.after (history ++ [.forget context]) = Layout.after history :=
    Layout.after_concat ..
  refine ⟨?_, ?_, ?_, ?_, tells.lists, fun stack scope intent => ?_, ?_⟩
  · rw [layout]
    exact tells.stackCount
  · rw [layout]
    exact List.length_set.trans tells.held
  · intro other kept
    have different : context ≠ other := by
      rintro rfl
      exact kept.2 (List.mem_append_right _ (List.mem_singleton_self _))
    rw [layout, ContextSession.perform, List.getElem?_set_ne different]
    exact tells.contexts other (kept.of_concat (layout ▸ kept.1))
  · rw [layout]
    exact tells.scopes
  · rw [← tells.live]
    simp [live_concat]
  · rw [layout]
    exact tells.closable

/-- Every command keeps what the stacks list. -/
theorem perform (tells : Tells history session entries) {command : ContextCommand}
    (names : command.Names history) :
    ∃ later, Tells (history ++ [command]) (session.perform command) later := by
  cases command with
  | push context intent => exact tells.push names intent
  | close scope => exact tells.close scope
  | fork context => exact tells.fork names
  | share context => exact ⟨entries, tells.share names⟩
  | create => exact tells.create
  | forget context => exact ⟨entries, tells.forget context⟩

/-- So it is after every history. -/
theorem after {history : List ContextCommand} (programmed : Programmed history) :
    ∃ entries, Tells history (history.foldl ContextSession.perform {}) entries := by
  induction history using List.reverseRecOn with
  | nil => exact ⟨_, begin⟩
  | append_singleton rest last ih =>
      obtain ⟨entries, tells⟩ := ih programmed.init
      rw [List.foldl_append]
      exact tells.perform programmed.names

/-- The intent in effect is what the live scopes decide. -/
theorem decides (tells : Tells history session entries) {context : Nat}
    (held : Held history context) :
    Decides (Live history ((Layout.after history).stackOf context))
      (session.view context).effective := by
  have same : Live history ((Layout.after history).stackOf context) = fun scope intent =>
      ∃ number, ⟨number, scope, intent⟩ ∈ entries ((Layout.after history).stackOf context) :=
    funext₂ fun scope intent => propext (tells.live ..)
  rw [same, ContextSession.view, tells.stackOf_eq held]
  exact (tells.lists _).decides

end Tells

/-- A command leaves the stacks that it does not aim at. -/
theorem ContextSession.stack_perform {history : List ContextCommand} {session : ContextSession}
    {entries : Nat → List Entry} (tells : Tells history session entries)
    {command : ContextCommand} (names : command.Names history) {stack : Nat}
    (there : stack < (Layout.after history).stackCount)
    (elsewhere : command.target? history ≠ some stack) :
    (session.perform command).contexts.stack stack = session.contexts.stack stack := by
  have old : stack ≠ session.contexts.byNumber.length := by
    rw [tells.stackCount]
    exact Nat.ne_of_lt there
  cases command with
  | push context intent =>
      rw [ContextSession.perform, tells.stackOf_eq names]
      have other : stack ≠ (Layout.after history).stackOf context := fun same =>
        elsewhere (congrArg some same.symm)
      rw [Contexts.stack_push (tells.there context), if_neg other]
  | close scope =>
      rw [ContextSession.perform, List.getD_eq_getElem?_getD]
      cases found : session.scopes[scope]? with
      | none => rfl
      | some place =>
          cases place with
          | none => rfl
          | some open_ =>
              obtain ⟨opened, -⟩ := (tells.closable ..).mp found
              have known : open_.stack < session.contexts.byNumber.length := by
                rw [tells.stackCount]
                exact (Layout.bounded_after history).scopes _ (List.mem_of_getElem? opened)
              have other : stack ≠ open_.stack := by
                rintro rfl
                exact elsewhere opened
              exact (Contexts.stack_close known stack).trans (if_neg other)
  | fork context => exact (Contexts.stack_add ..).trans (if_neg old)
  | create => exact (Contexts.stack_add ..).trans (if_neg old)
  | share context => rfl
  | forget context => rfl

/-- A command on one stack changes nothing that is seen of a context with another stack. -/
theorem ContextSession.view_perform {history : List ContextCommand} {command : ContextCommand}
    (programmed : Programmed (history ++ [command])) {context : Nat}
    (before : Held history context) (after : Held (history ++ [command]) context)
    (elsewhere : command.target? history ≠ some ((Layout.after history).stackOf context)) :
    ((history ++ [command]).foldl perform {}).view context =
      (history.foldl perform {}).view context := by
  obtain ⟨entries, tells⟩ := Tells.after programmed.init
  obtain ⟨later, told⟩ := Tells.after programmed
  rw [view, view, told.stackOf_eq after, before.stackOf_concat, tells.stackOf_eq before,
    List.foldl_append]
  exact congrArg _ (stack_perform tells programmed.names
    ((Layout.bounded_after history).stackOf_lt context) elsewhere)

end ShardFleet
