import SpnegoRealm.Refresh.Watch

/-! # The upkeep of a running realm

From its start until it is stopped a realm refreshes its role mapping by the clock and, where the
mapping file can be watched, whenever the file changes. Stopping the realm ends both: an attempt
that is under way is given up, and no other one is made. What is published then changes only
when somebody asks for a rebuild.
-/

namespace SpnegoRealm.Refresh

/-- What happens to the mapping file while a realm runs. -/
structure FileLife where
  /-- Its content at every instant. -/
  content : FileHistory
  /-- What the watch hears; `none` if the file cannot be watched. -/
  notices : Option (List Notice)

/-- What the watch of a realm does from its start until the realm is stopped. -/
def watching (settings : Mapping.Settings) (file : FileLife) (start stopped : Instant) :
    Except Crash (List (Instant × Event)) :=
  match file.notices with
  | some notices =>
    watch settings.path (refreshFrom settings file.content) notices start (some stopped)
  | none => .ok [(start, .warned .watchUnavailable)]

/-- What a realm does by itself from its start until it is stopped, in the order of time. -/
def upkeep (settings : Mapping.Settings) (interval : Nat) (file : FileLife)
    (start stopped : Instant) : Except Crash (List (Instant × Event)) := do
  let byClock ← timer (refreshFrom settings file.content) interval start stopped
  let byChange ← watching settings file start stopped
  return (byClock ++ byChange).mergeSort fun first second => first.1 ≤ second.1

end SpnegoRealm.Refresh
