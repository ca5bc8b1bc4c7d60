import SpnegoRealm.Event
import SpnegoRealm.Time.Timed

/-! # Values of runs

A run yields a value when it ends with that value whatever instant it starts at
(`SpnegoRealm.Timed.Yields`); it tells a value when it ends with no other one, if it ends
(`SpnegoRealm.Timed.Tells`). A run that a fault stops under a condition that does not depend on the
instant, and that yields a value otherwise, does both (`SpnegoRealm.Timed.YieldsUnless`). Such runs
can be put one after the other. A run that takes no time is told by its value and its events
(`SpnegoRealm.Timed.atOnce`).
-/

namespace SpnegoRealm

namespace Timed

variable {σ ε α β : Type} {first : Timed σ ε α} {second : α → Timed σ ε β} {value : α}
  {result : β} {start finish : Instant} {events : List (Instant × ε)} {fault : σ}
  {doomed later : Prop}

/-- Of two runs that end, the second starts when the first one has ended, with its value. -/
theorem bind_eq_ok {earlier : Trace ε α} (begins : first start = .ok earlier)
    (ends : second earlier.value earlier.finish = .ok ⟨result, finish, events⟩) :
    (first >>= second) start = .ok ⟨result, finish, earlier.events ++ events⟩ := by
  change first.followedBy second start = _
  unfold followedBy
  rw [begins]
  change (second earlier.value earlier.finish >>= _) = _
  rw [ends]
  rfl

/-- Two runs, one after the other, end only if both do. -/
theorem of_bind_eq_ok {trace : Trace ε β} (run : (first >>= second) start = .ok trace) :
    ∃ earlier later, first start = .ok earlier ∧
      second earlier.value earlier.finish = .ok later ∧
        trace = ⟨later.value, later.finish, earlier.events ++ later.events⟩ := by
  change first.followedBy second start = _ at run
  unfold followedBy at run
  cases begins : first start with
  | error fault =>
      rw [begins] at run
      cases run
  | ok earlier =>
      rw [begins] at run
      change (second earlier.value earlier.finish >>= _) = _ at run
      cases ends : second earlier.value earlier.finish with
      | error fault =>
          rw [ends] at run
          cases run
      | ok later =>
          rw [ends] at run
          exact ⟨earlier, later, rfl, ends, (Except.ok.inj run).symm⟩

/-- A run that is stopped is not followed by another one. -/
theorem bind_eq_error (stops : first start = .error fault) :
    (first >>= second) start = .error fault := by
  change first.followedBy second start = _
  unfold followedBy
  rw [stops]
  rfl

/-- A run ends with a value whatever instant it starts at. -/
def Yields (run : Timed σ ε α) (value : α) : Prop :=
  ∀ start, ∃ trace, run start = .ok trace ∧ trace.value = value

/-- A run that does nothing yields its value. -/
theorem yields_pure (value : α) : Yields (pure value : Timed σ ε α) value :=
  fun start => ⟨⟨value, start, []⟩, rfl, rfl⟩

/-- A run that does one thing ends. -/
theorem yields_record (event : ε) : Yields (record event : Timed σ ε Unit) () :=
  fun start => ⟨⟨(), start, [(start, event)]⟩, rfl, rfl⟩

/-- A run that follows on the value of another one yields its own value. -/
theorem Yields.bind (yields : first.Yields value) (next : (second value).Yields result) :
    (first >>= second).Yields result := by
  intro start
  obtain ⟨earlier, begins, rfl⟩ := yields start
  obtain ⟨⟨result, finish, events⟩, ends, rfl⟩ := next earlier.finish
  exact ⟨_, bind_eq_ok begins ends, rfl⟩

/-- A run ends with a value unless a fault stops it. -/
def Tells (run : Timed σ ε α) (value : α) : Prop :=
  ∀ start trace, run start = .ok trace → trace.value = value

/-- A run that yields a value tells it. -/
theorem Yields.tells (yields : first.Yields value) : first.Tells value := by
  intro start trace run
  obtain ⟨same, run', told⟩ := yields start
  obtain rfl := Except.ok.inj (run.symm.trans run')
  exact told

/-- A run is stopped by a fault if a condition holds, and yields a value if it does not. -/
structure YieldsUnless (run : Timed σ ε α) (doomed : Prop) (fault : σ) (value : α) : Prop where
  stops : doomed → ∀ start, run start = .error fault
  yields : ¬doomed → run.Yields value

/-- A run that yields a value can be stopped under a condition that does not hold. -/
theorem Yields.yieldsUnless (yields : first.Yields value) (safe : ¬doomed) (fault : σ) :
    first.YieldsUnless doomed fault value :=
  ⟨fun holds => (safe holds).elim, fun _ => yields⟩

/-- The condition under which a run is stopped can be put in other words. -/
theorem YieldsUnless.of_iff (same : later ↔ doomed)
    (ends : first.YieldsUnless doomed fault value) : first.YieldsUnless later fault value :=
  ⟨fun holds => ends.stops (same.mp holds), fun fails => ends.yields (mt same.mpr fails)⟩

/-- Of two runs, one after the other, each can be stopped. -/
theorem YieldsUnless.bind (ends : first.YieldsUnless doomed fault value)
    (next : (second value).YieldsUnless later fault result) :
    (first >>= second).YieldsUnless (doomed ∨ later) fault result := by
  constructor
  case stops =>
    intro either start
    by_cases early : doomed
    · exact bind_eq_error (ends.stops early start)
    · obtain ⟨earlier, begins, rfl⟩ := ends.yields early start
      have stops := next.stops (either.resolve_left early) earlier.finish
      change first.followedBy second start = _
      unfold followedBy
      rw [begins]
      change (second earlier.value earlier.finish >>= _) = _
      rw [stops]
      rfl
  case yields =>
    intro neither
    obtain ⟨early, late⟩ := not_or.mp neither
    exact (ends.yields early).bind (next.yields late)

/-- Of two runs, one after the other, only the first one can be stopped. -/
theorem YieldsUnless.bind_yields (ends : first.YieldsUnless doomed fault value)
    (next : (second value).Yields result) :
    (first >>= second).YieldsUnless doomed fault result :=
  (ends.bind (next.yieldsUnless not_false fault)).of_iff (or_iff_left not_false).symm

/-- Of two runs, one after the other, only the second one can be stopped. -/
theorem Yields.bind_yieldsUnless (yields : first.Yields value)
    (next : (second value).YieldsUnless doomed fault result) :
    (first >>= second).YieldsUnless doomed fault result :=
  ((yields.yieldsUnless not_false fault).bind next).of_iff (or_iff_right not_false).symm

/-- A run that can be stopped tells its value all the same. -/
theorem YieldsUnless.tells (ends : first.YieldsUnless doomed fault value) :
    first.Tells value := by
  intro start trace run
  by_cases stopped : doomed
  · cases (ends.stops stopped start).symm.trans run
  · exact (ends.yields stopped).tells start trace run

/-- A run that does some things at the instant at which it starts and is over then. -/
def atOnce (value : α) (happens : List ε) : Timed σ ε α :=
  fun start => .ok ⟨value, start, happens.map (start, ·)⟩

/-- A run that takes no time yields its value. -/
theorem yields_atOnce (value : α) (happens : List ε) :
    (atOnce value happens : Timed σ ε α).Yields value :=
  fun start => ⟨⟨value, start, happens.map (start, ·)⟩, rfl, rfl⟩

/-- A run that does nothing takes no time. -/
theorem pure_eq_atOnce (value : α) : (pure value : Timed σ ε α) = atOnce value [] := rfl

/-- Two runs that take no time take none together. -/
theorem atOnce_bind {happens later : List ε} {second : α → Timed σ ε β}
    (next : second value = atOnce result later) :
    (atOnce value happens >>= second) = atOnce result (happens ++ later) := by
  funext start
  have begins : (atOnce value happens : Timed σ ε α) start =
      .ok ⟨value, start, happens.map (start, ·)⟩ := rfl
  have ends : second value start = .ok ⟨result, start, later.map (start, ·)⟩ := by
    rw [next]
    rfl
  rw [bind_eq_ok begins ends, ← List.map_append]
  rfl

/-- What a run that takes no time comes to can be changed at once. -/
theorem atOnce_bind_pure (value : α) (happens : List ε) (change : α → β) :
    (atOnce value happens >>= fun given => (pure (change given) : Timed σ ε β)) =
      atOnce (change value) happens := by
  have whole : (atOnce value happens >>= fun given => (pure (change given) : Timed σ ε β)) =
      atOnce (change value) (happens ++ []) := atOnce_bind (pure_eq_atOnce _)
  rwa [List.append_nil] at whole

end Timed

namespace Activity

/-- A question takes no time. -/
theorem ask_eq_atOnce {α : Type} (request : Directory.Request) (answer : α) :
    ask request answer = .atOnce answer [.asked request, .answered request] := rfl

/-- A question yields its answer. -/
theorem yields_ask {α : Type} (request : Directory.Request) (answer : α) :
    (ask request answer).Yields answer :=
  (Timed.yields_record _).bind ((Timed.yields_record _).bind (Timed.yields_pure answer))

/-- A warning ends. -/
theorem yields_warn (warning : Warning) : (warn warning).Yields () :=
  Timed.yields_record _

end Activity

end SpnegoRealm
