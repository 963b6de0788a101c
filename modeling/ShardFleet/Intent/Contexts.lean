import ShardFleet.Intent.Stack

/-!
Routing contexts that call flows hold and share.

A context refers to a stack by its number. Copies of a context share its stack; a fork gets a
stack of its own that starts as a copy. A scope belongs to the stack it was opened on, and
closing it touches that stack alone.
-/

namespace ShardFleet

/-- The stacks of all contexts, by number. -/
structure Contexts where
  byNumber : List IntentStack := []
  deriving DecidableEq, Repr, Inhabited

/-- An open scope, or one that was open. -/
structure Scope where
  stack : Nat
  number : Nat
  intent : Intent
  deriving DecidableEq, Repr, Inhabited

namespace Contexts

/-- The stack of a number. -/
def stack (contexts : Contexts) (number : Nat) : IntentStack := contexts.byNumber.getD number {}

/-- Adds a stack; its number is how many there were before. -/
def add (contexts : Contexts) (stack : IntentStack) : Contexts := ⟨contexts.byNumber ++ [stack]⟩

/-- Adds a stack that starts as a copy of another. -/
def fork (contexts : Contexts) (number : Nat) : Contexts := contexts.add (contexts.stack number)

/-- Opens a scope on a stack. -/
def push (contexts : Contexts) (number : Nat) (intent : Intent) : Contexts :=
  ⟨contexts.byNumber.modify number (·.push intent)⟩

/-- The scope that the next `push` on a stack opens. -/
def nextScope (contexts : Contexts) (number : Nat) (intent : Intent) : Scope :=
  ⟨number, (contexts.stack number).next, intent⟩

/-- Closes a scope. -/
def close (contexts : Contexts) (scope : Scope) : Contexts :=
  ⟨contexts.byNumber.modify scope.stack (·.close scope.number)⟩

end Contexts

end ShardFleet
