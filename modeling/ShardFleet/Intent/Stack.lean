/-!
What a connection will be used for, and the stack of scopes that say so.

Every scope is removed by its own number, so scopes may end in any order. The innermost scope
decides, except that a forced write anywhere on the stack overrides all others; with no scope at
all the intent is to write, which the primary serves.
-/

namespace ShardFleet

/-- What a connection will be used for. -/
inductive Intent where
  /-- May be served by a replica. -/
  | read
  /-- Served by the primary. -/
  | write
  /-- Served by the primary, whatever scopes are nested inside. -/
  | forceWrite
  deriving DecidableEq, Repr, Inhabited

/-- Whether only the primary will do. -/
def Intent.requiresPrimary : Intent → Bool
  | .read => false
  | .write | .forceWrite => true

/-- A stack of intent scopes, innermost last. -/
structure IntentStack where
  /-- The number of the next scope. -/
  next : Nat := 0
  scopes : List (Nat × Intent) := []
  deriving DecidableEq, Repr, Inhabited

/-- What is seen of a context. -/
structure ContextView where
  current : Option Intent
  effective : Intent
  depth : Nat
  deriving DecidableEq, Repr, Inhabited

namespace IntentStack

/-- Opens a scope; its number is the stack's `next`. -/
def push (stack : IntentStack) (intent : Intent) : IntentStack :=
  ⟨stack.next + 1, stack.scopes ++ [(stack.next, intent)]⟩

/-- Closes a scope, if it is open. -/
def close (stack : IntentStack) (number : Nat) : IntentStack :=
  { stack with scopes := stack.scopes.filter (·.1 ≠ number) }

/-- The intent that the open scopes agree on, if any is open. -/
def current? (stack : IntentStack) : Option Intent :=
  if stack.scopes.any (·.2 = .forceWrite) then some .forceWrite
  else stack.scopes.getLast?.map Prod.snd

/-- The intent in effect. -/
def effective (stack : IntentStack) : Intent := stack.current?.getD .write

def depth (stack : IntentStack) : Nat := stack.scopes.length

/-- What is seen of a context with this stack. -/
def view (stack : IntentStack) : ContextView := ⟨stack.current?, stack.effective, stack.depth⟩

/-- The stack on which intents were opened one inside the other, the outermost first. -/
def nested (intents : List Intent) : IntentStack := intents.foldl push {}

end IntentStack

end ShardFleet
