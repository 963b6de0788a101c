import ShardFleet.Intent.Contexts

/-!
Sessions that hold routing contexts and open scopes by numbers.

Contexts and scopes are numbered in the order in which they come up, and a number given up is
not used again. Two numbers may refer to one stack; a fork refers to a stack of its own.
-/

namespace ShardFleet

/-- What a session does with its contexts and scopes. -/
inductive ContextCommand where
  /-- Opens a scope on a context; the scope gets the next number. -/
  | push (context : Nat) (intent : Intent)
  /-- Closes a scope, if it is open. -/
  | close (scope : Nat)
  /-- Copies the stack of a context; the copy gets the next number. -/
  | fork (context : Nat)
  /-- Gives a context one more number. -/
  | share (context : Nat)
  /-- Starts a context without scopes. -/
  | create
  /-- Gives up the number of a context. Its stack stays for other numbers and open scopes. -/
  | forget (context : Nat)
  deriving DecidableEq, Repr, Inhabited

/-- The contexts and the scopes that are held, by number. -/
structure ContextSession where
  contexts : Contexts := ⟨[{}]⟩
  /-- The stack that each context number refers to. -/
  held : List (Option Nat) := [some 0]
  /-- The open scope that each scope number refers to. -/
  scopes : List (Option Scope) := []
  deriving DecidableEq, Repr, Inhabited

namespace ContextSession

/-- The number of the stack of a context. -/
def stackOf (session : ContextSession) (context : Nat) : Nat :=
  (session.held.getD context none).getD 0

/-- Adds a number for the stack that is added next. -/
def hold (session : ContextSession) (contexts : Contexts) : ContextSession :=
  { session with contexts, held := session.held ++ [some session.contexts.byNumber.length] }

/-- Does what a command says. -/
def perform (session : ContextSession) : ContextCommand → ContextSession
  | .push context intent =>
      let stack := session.stackOf context
      { session with
        contexts := session.contexts.push stack intent
        scopes := session.scopes ++ [some (session.contexts.nextScope stack intent)] }
  | .close number =>
      match session.scopes.getD number none with
      | some scope =>
          { session with
            contexts := session.contexts.close scope
            scopes := session.scopes.set number none }
      | none => session
  | .fork context => session.hold (session.contexts.fork (session.stackOf context))
  | .share context =>
      { session with held := session.held ++ [some (session.stackOf context)] }
  | .create => session.hold (session.contexts.add {})
  | .forget context => { session with held := session.held.set context none }

/-- What is seen of a context that is held. -/
def view (session : ContextSession) (context : Nat) : ContextView :=
  (session.contexts.stack (session.stackOf context)).view

/-- What is seen of each context, by number. -/
def views (session : ContextSession) : List (Option ContextView) :=
  session.held.map (·.map fun number => (session.contexts.stack number).view)

/-- The intents of the scopes, by number. -/
def intents (session : ContextSession) : List (Option Intent) :=
  session.scopes.map (·.map Scope.intent)

end ContextSession

end ShardFleet
