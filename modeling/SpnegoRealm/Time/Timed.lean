/-! # Runs in virtual time

A run starts at an instant, does things at instants, and ends at an instant with a value. Time
passes only where a run waits. A run can also be stopped by a fault that nothing can answer;
then it has no end and no value.
-/

namespace SpnegoRealm

/-- An instant, in milliseconds. -/
abbrev Instant := Nat

/-- What a run did and how it ended. -/
structure Trace (ε α : Type) where
  value : α
  finish : Instant
  events : List (Instant × ε)

namespace Trace

variable {ε α : Type}

/-- The events that happened before an instant. -/
def before (trace : Trace ε α) (instant : Instant) : List (Instant × ε) :=
  trace.events.filter (·.1 < instant)

end Trace

/-- A run that starts at any instant. -/
def Timed (σ ε α : Type) : Type := Instant → Except σ (Trace ε α)

namespace Timed

variable {σ ε α β : Type}

/-- The run that is over at once. -/
def done (value : α) : Timed σ ε α := fun start => .ok ⟨value, start, []⟩

/-- One run, and another one from its end on. -/
def followedBy (first : Timed σ ε α) (second : α → Timed σ ε β) : Timed σ ε β := fun start => do
  let earlier ← first start
  let later ← second earlier.value earlier.finish
  return ⟨later.value, later.finish, earlier.events ++ later.events⟩

instance : Monad (Timed σ ε) where
  pure := done
  bind := followedBy

/-- An event at the present instant. -/
def record (event : ε) : Timed σ ε Unit := fun start => .ok ⟨(), start, [(start, event)]⟩

/-- Time passes until an instant, unless it has passed already. -/
def waitUntil (instant : Instant) : Timed σ ε Unit := fun start =>
  .ok ⟨(), max start instant, []⟩

end Timed

end SpnegoRealm
