import SpnegoRealm.Event
import SpnegoRealm.Proofs.Time.Yields

/-! # The window of a run

What a run does happens between its start and its end, and no run ends before it starts. A run
keeps to some events when it does nothing else in this window (`SpnegoRealm.Timed.KeepsTo`). Runs that
keep to the same events can be put one after the other.
-/

namespace SpnegoRealm

variable {σ ε α β : Type}

/-- A trace that goes forward from its start and consists of allowed events in its window. -/
structure Trace.KeepsTo (allowed : ε → Prop) (start : Instant) (trace : Trace ε α) : Prop where
  forward : start ≤ trace.finish
  begun : ∀ event ∈ trace.events, start ≤ event.1
  ended : ∀ event ∈ trace.events, event.1 ≤ trace.finish
  allowed : ∀ event ∈ trace.events, allowed event.2

namespace Timed

variable {allowed : ε → Prop} {first : Timed σ ε α} {second : α → Timed σ ε β}

/-- A run that goes forward and does nothing but what is allowed. -/
def KeepsTo (allowed : ε → Prop) (run : Timed σ ε α) : Prop :=
  ∀ start trace, run start = .ok trace → trace.KeepsTo allowed start

/-- A run that does nothing keeps to everything. -/
theorem keepsTo_pure (value : α) : KeepsTo allowed (pure value : Timed σ ε α) := by
  intro start trace run
  obtain rfl := Except.ok.inj run
  exact ⟨Nat.le_refl _, by simp, by simp, by simp⟩

/-- A run that does one thing keeps to it. -/
theorem keepsTo_record {event : ε} (allows : allowed event) :
    KeepsTo allowed (record event : Timed σ ε Unit) := by
  intro start trace run
  obtain rfl := Except.ok.inj run
  exact ⟨Nat.le_refl _, by simp, by simp, by simpa using allows⟩

/-- Runs that keep to the same events do so one after the other. -/
theorem KeepsTo.bind (keeps : first.KeepsTo allowed)
    (next : ∀ value, (second value).KeepsTo allowed) : (first >>= second).KeepsTo allowed := by
  intro start trace run
  obtain ⟨earlier, later, begins, ends, rfl⟩ := of_bind_eq_ok run
  have before := keeps start earlier begins
  have after := next earlier.value earlier.finish later ends
  refine ⟨?forward, ?begun, ?ended, ?allowed⟩
  case forward => exact Nat.le_trans before.forward after.forward
  case begun =>
    intro event happens
    rcases List.mem_append.mp happens with soon | late
    · exact before.begun event soon
    · exact Nat.le_trans before.forward (after.begun event late)
  case ended =>
    intro event happens
    rcases List.mem_append.mp happens with soon | late
    · exact Nat.le_trans (before.ended event soon) after.forward
    · exact after.ended event late
  case allowed =>
    intro event happens
    rcases List.mem_append.mp happens with soon | late
    · exact before.allowed event soon
    · exact after.allowed event late

end Timed

namespace Activity

variable {allowed : Event → Prop}

/-- A question keeps to asking and answering. -/
theorem keepsTo_ask {request : Directory.Request} (asks : allowed (.asked request))
    (answers : allowed (.answered request)) (answer : α) :
    Timed.KeepsTo allowed (ask request answer) :=
  (Timed.keepsTo_record asks).bind fun _ =>
    (Timed.keepsTo_record answers).bind fun _ => Timed.keepsTo_pure answer

/-- A warning keeps to warning. -/
theorem keepsTo_warn {warning : Warning} (warns : allowed (.warned warning)) :
    Timed.KeepsTo allowed (warn warning) :=
  Timed.keepsTo_record warns

end Activity

end SpnegoRealm
