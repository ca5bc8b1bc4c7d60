import SpnegoRealm.Event

/-! # Questions in flight

A question is in flight from the instant at which it is asked until it is answered or given up.
A run that is abandoned keeps what happened before, gives up the questions that are in flight,
and does nothing more.
-/

namespace SpnegoRealm.Questions

/-- The question that an event asks. -/
def asked? : Event → Option Directory.Request
  | .asked request => some request
  | _ => none

/-- The question that an event ends. -/
def ended? : Event → Option Directory.Request
  | .answered request => some request
  | .dropped request => some request
  | _ => none

/-- The questions asked by some events, in order. -/
def asked (events : List (Instant × Event)) : List Directory.Request :=
  events.filterMap fun event => asked? event.2

/-- The questions ended by some events, in order. -/
def ended (events : List (Instant × Event)) : List Directory.Request :=
  events.filterMap fun event => ended? event.2

/-- The events up to an instant. -/
def upTo (instant : Instant) (events : List (Instant × Event)) : List (Instant × Event) :=
  events.filter (·.1 ≤ instant)

/-- The number of questions in flight after an instant. -/
def inFlight (events : List (Instant × Event)) (instant : Instant) : Nat :=
  (asked (upTo instant events)).length - (ended (upTo instant events)).length

/-- The greatest number of questions in flight at once; a question that is answered at once is
in flight alone. -/
def peak (events : List (Instant × Event)) : Nat :=
  (events.filter fun event => (asked? event.2).isSome).foldl
    (fun greatest event => max greatest (max 1 (inFlight events event.1))) 0

/-- The questions that some events leave in flight. -/
def pending (events : List (Instant × Event)) : List Directory.Request :=
  (ended events).foldl List.erase (asked events)

/-- What happens in a run that is abandoned at an instant. -/
def abandonedAt {α : Type} (instant : Instant) (trace : Trace Event α) :
    List (Instant × Event) :=
  let kept := trace.before instant
  kept ++ (pending kept).map fun request => (instant, .dropped request)

end SpnegoRealm.Questions
