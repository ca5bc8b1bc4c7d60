import SpnegoRealm.Path
import SpnegoRealm.Refresh.Timer

/-! # Refreshing when the mapping file changes

The directory of the mapping file is watched. A change that creates or modifies a file with the
name of the mapping file causes one refresh; every other change causes nothing, and a fault of
the watch only a warning. Refreshes run one after the other.
-/

namespace SpnegoRealm.Refresh

/-- What happened to files. -/
inductive ChangeKind where
  | created
  | modified
  | removed
  | accessed
  | unknown
  deriving DecidableEq, Repr

/-- What a watch reports. -/
inductive Report where
  | change (kind : ChangeKind) (paths : List Bytes)
  | fault
  deriving DecidableEq, Repr

/-- Whether a change can put new content into a file. -/
def ChangeKind.bringsContent : ChangeKind → Bool
  | created => true
  | modified => true
  | _ => false

/-- Whether a report tells of new content in the mapping file. -/
def Report.concerns (mappingPath : Bytes) : Report → Bool
  | change kind paths =>
    match Path.fileName? mappingPath with
    | some name => kind.bringsContent && paths.any (Path.fileName? · == some name)
    | none => false
  | fault => false

/-- What a report causes. -/
def react (mappingPath : Bytes) (attempt : Activity Unit) (report : Report) : Activity Unit :=
  match report with
  | .fault => Activity.warn .watchFailed
  | change => if change.concerns mappingPath then attempt else return ()

/-- A report and the instant at which the watch hears of it. -/
structure Notice where
  instant : Instant
  report : Report
  deriving DecidableEq, Repr

/-- Take notices one after the other. One that comes while a refresh goes on waits for its
end. -/
def takeNotices (mappingPath : Bytes) (attempt : Activity Unit) : List Notice → Activity Unit
  | [] => return ()
  | notice :: rest => do
    Timed.waitUntil notice.instant
    react mappingPath attempt notice.report
    takeNotices mappingPath attempt rest

/-- What a watch does with some notices, from its start until they end or until the watch is
cancelled. -/
def watch (mappingPath : Bytes) (attempt : Activity Unit) (notices : List Notice)
    (start : Instant) (cancelled : Option Instant) :
    Except Crash (List (Instant × Event)) := do
  let trace ← takeNotices mappingPath attempt notices start
  match cancelled with
  | none => return trace.events
  | some instant => return Questions.abandonedAt instant trace

end SpnegoRealm.Refresh
