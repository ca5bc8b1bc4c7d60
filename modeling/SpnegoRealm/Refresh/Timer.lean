import SpnegoRealm.Mapping.Rebuild
import SpnegoRealm.Questions

/-! # Refreshing by the clock

The first attempt starts one interval after the start, every other one an interval after the end
of the attempt before it. An attempt uses the mapping file as it is when the attempt starts.
-/

namespace SpnegoRealm.Refresh

/-- The content of the mapping file at every instant. -/
abbrev FileHistory := Instant → Option Bytes

/-- A refresh that reads the mapping file when it starts. -/
def refreshFrom (settings : Mapping.Settings) (file : FileHistory) : Activity Unit :=
  fun start => settings.refresh (file start) start

/-- The attempts of a timer that start before the horizon, the first at a given instant. -/
def attempts (attempt : Activity Unit) (interval : Nat) (horizon start : Instant) :
    Except Crash (List (Trace Event Unit)) :=
  if _ahead : 0 < interval ∧ start < horizon then do
    let trace ← attempt start
    let later ← attempts attempt interval horizon (max start trace.finish + interval)
    return trace :: later
  else
    return []
termination_by horizon - start
decreasing_by
  unfold Instant at *
  omega

/-- What a timer does from its start until the horizon. An attempt that is under way at the
horizon is given up there. -/
def timer (attempt : Activity Unit) (interval : Nat) (start horizon : Instant) :
    Except Crash (List (Instant × Event)) := do
  let traces ← attempts attempt interval horizon (start + interval)
  return traces.flatMap (Questions.abandonedAt horizon)

end SpnegoRealm.Refresh
