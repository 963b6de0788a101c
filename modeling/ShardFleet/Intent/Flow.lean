import ShardFleet.Duration
import ShardFleet.Intent.Contexts

/-!
Call flows that carry an ambient context.

A flow is a tree of actions. An intent put around a body opens a scope on a fork of the ambient
context, so flows that run side by side never see each other's intents; a scope opened on the
ambient context itself is seen by all that share it. A spawned body starts without an ambient
context. What a flow shows at each action is its transcript.

`Flow.courses` spells a body out as a course: the single steps that it takes one after another,
each with what follows.
-/

namespace ShardFleet

/-- One action of a call flow. -/
inductive Flow where
  /-- Looks at the ambient context. -/
  | observe
  /-- Runs a body with an intent on a fork of the ambient context. -/
  | withIntent (intent : Intent) (body : List Flow)
  /-- Runs a body in a new context with scopes of its own. -/
  | scoped (intents : List Intent) (body : List Flow)
  /-- Runs a body with a scope on the ambient context itself. -/
  | push (intent : Intent) (body : List Flow)
  | sleep (span : Duration)
  /-- Runs two bodies side by side. -/
  | join (left right : List Flow)
  /-- Runs a body as a flow of its own, and waits for it. -/
  | spawn (body : List Flow)
  deriving Repr, Inhabited

/-- What an action shows. -/
inductive Transcript where
  | observed (intent : Intent) (ambient : Option ContextView)
  | body (inside : List Transcript)
  /-- The body of a new context, and the context after its scopes were closed. -/
  | scoped (inside : List Transcript) (after : ContextView)
  | noContext
  | slept
  | joined (left right : List Transcript)
  deriving Repr, Inhabited

/-- The steps of a body. A course ends with what the body has shown. -/
inductive Course where
  | ended (shown : List Transcript)
  /-- Changes the contexts; what follows depends on them as they were before. -/
  | act (update : Contexts → Contexts) (next : Contexts → Course)
  | sleep (ticks : Nat) (next : Course)
  /-- Runs a course on its own. -/
  | spawn (body : Course) (next : List Transcript → Course)
  /-- Runs two courses side by side. -/
  | join (left right : Course) (next : List Transcript → List Transcript → Course)

/-- What is seen of the ambient context. -/
def Contexts.ambientView (contexts : Contexts) (ambient : Option Nat) : Option ContextView :=
  ambient.map fun number => (contexts.stack number).view

/-- The intent in effect; without an ambient context it is to write. -/
def Contexts.ambientIntent (contexts : Contexts) (ambient : Option Nat) : Intent :=
  ((contexts.ambientView ambient).map ContextView.effective).getD .write

namespace Course

/-- Opens a scope on a stack for the length of a body. The body is given what follows it. -/
def underScope (number : Nat) (intent : Intent) (body : (List Transcript → Course) → Course)
    (next : List Transcript → Course) : Course :=
  .act (·.push number intent) fun before =>
    body fun inside => .act (·.close (before.nextScope number intent)) fun _ => next inside

/-- Opens scopes on a stack for the length of a body. The last one opened is closed first. -/
def underScopes (number : Nat) (body : (List Transcript → Course) → Course) :
    List Intent → (List Transcript → Course) → Course
  | [] => body
  | intent :: rest => underScope number intent (underScopes number body rest)

end Course

namespace Flow

mutual

/-- An action under an ambient context as a course, given what follows it. -/
def course (ambient : Option Nat) : Flow → (Transcript → Course) → Course
  | .observe, next =>
      .act id fun contexts =>
        next (.observed (contexts.ambientIntent ambient) (contexts.ambientView ambient))
  | .withIntent intent body, next =>
      .act (fun contexts => contexts.add ((ambient.map contexts.stack).getD {})) fun before =>
        let number := before.byNumber.length
        Course.underScope number intent (courses (some number) body) fun inside =>
          next (.body inside)
  | .scoped intents body, next =>
      .act (·.add {}) fun before =>
        let number := before.byNumber.length
        Course.underScopes number (courses (some number) body) intents fun inside =>
          .act id fun contexts => next (.scoped inside (contexts.stack number).view)
  | .push intent body, next =>
      match ambient with
      | none => next .noContext
      | some number =>
          Course.underScope number intent (courses (some number) body) fun inside =>
            next (.body inside)
  | .sleep span, next => .sleep span.sleepTicks (next .slept)
  | .join left right, next =>
      .join (courses ambient left .ended) (courses ambient right .ended) fun left right =>
        next (.joined left right)
  | .spawn body, next => .spawn (courses none body .ended) fun inside => next (.body inside)
  termination_by structural flow => flow

/-- A body under an ambient context as a course, given what follows it. -/
def courses (ambient : Option Nat) : List Flow → (List Transcript → Course) → Course
  | [], next => next []
  | flow :: rest, next =>
      course ambient flow fun first =>
        courses ambient rest fun others => next (first :: others)
  termination_by structural flows => flows

end

mutual

/-- How many actions a flow has. -/
def size : Flow → Nat
  | .observe | .sleep _ => 1
  | .withIntent _ body | .scoped _ body | .push _ body | .spawn body => sizes body + 1
  | .join left right => sizes left + sizes right + 1
  termination_by structural flow => flow

/-- How many actions a body has. -/
def sizes : List Flow → Nat
  | [] => 0
  | flow :: rest => size flow + sizes rest
  termination_by structural flows => flows

end

end Flow

end ShardFleet
