import SpnegoRealm.Directory
import SpnegoRealm.Mapping.Snapshot
import SpnegoRealm.Negotiation.Mechanism
import SpnegoRealm.Time.Timed

/-! # Events

What can be observed of a realm at work: questions to the directory and the end of each, steps
of security contexts, warnings, and snapshots that are published.
-/

namespace SpnegoRealm

/-- Something that an operator is warned of. -/
inductive Warning where
  | memberGroupQueryFailed
  | objectNotFound
  | lookupFailed
  | noPrincipalName
  | refreshFailed
  | watchFailed
  | watchUnavailable
  | groupMembershipsUnreadable
  | disposalFailed
  | certificatesUnverified
  | mockMode
  | initialLoadFailed
  deriving DecidableEq, Repr

/-- The wording of a warning. -/
def Warning.message : Warning → String
  | memberGroupQueryFailed => "member group query failed, treating as leaf"
  | objectNotFound => "role mapping could not find directory object"
  | lookupFailed => "directory lookup failed, skipping entry"
  | noPrincipalName => "directory object has no userPrincipalName, skipping"
  | refreshFailed => "role mapping refresh failed, keeping previous snapshot"
  | watchFailed => "file watch error"
  | watchUnavailable => "mapping file watch unavailable, relying on scheduled refresh"
  | groupMembershipsUnreadable => "could not read group memberships"
  | disposalFailed => "failed to dispose security context"
  | certificatesUnverified => "directory certificate verification is disabled"
  | mockMode =>
    "kerberos_realm is in mock mode: any 'Negotiate_c' header authenticates. " ++
      "NEVER use in production!"
  | initialLoadFailed => "initial role mapping load failed, starting with an empty mapping"

/-- Something that can be observed. -/
inductive Event where
  /-- A question was put to the directory. -/
  | asked (request : Directory.Request)
  /-- A question was answered, or failed. -/
  | answered (request : Directory.Request)
  /-- A question was given up before its answer came. -/
  | dropped (request : Directory.Request)
  | context (event : ContextEvent)
  | warned (warning : Warning)
  | published (snapshot : Snapshot)
  deriving DecidableEq, Repr

/-- The step of a context that an event tells. -/
def Event.contextStep? : Event → Option ContextEvent
  | .context step => some step
  | _ => none

/-- The steps of contexts among some events, in order. -/
def contextSteps (events : List (Instant × Event)) : List ContextEvent :=
  events.filterMap fun event => event.2.contextStep?

/-- A fault that stops a run for good. -/
inductive Crash where
  /-- More workers were asked for than there can be permits. -/
  | tooManyWorkers
  deriving DecidableEq, Repr

/-- A run of a realm. -/
abbrev Activity := Timed Crash Event

namespace Activity

/-- Put a question to the directory that is answered at once. -/
def ask {α : Type} (request : Directory.Request) (answer : α) : Activity α := do
  Timed.record (.asked request)
  Timed.record (.answered request)
  return answer

/-- Warn the operator. -/
def warn (warning : Warning) : Activity Unit := Timed.record (.warned warning)

end Activity

end SpnegoRealm
