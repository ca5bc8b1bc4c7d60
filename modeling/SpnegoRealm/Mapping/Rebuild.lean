import SpnegoRealm.Groups.Expansion
import SpnegoRealm.Mapping.Definitions
import SpnegoRealm.Principal

/-! # Rebuilding the role mapping

A rebuild reads the mapping file and looks up every listed identity. A group gives its role to
its own members and to those of every group below it; a user gives it to the user's principal.
An identity that the directory cannot find or answer for gives nothing. The snapshot is published
at the end and in one piece; a file that cannot be read leaves the published snapshot alone.
-/

namespace SpnegoRealm.Mapping

/-- What a rebuild depends on besides the mapping file. -/
structure Settings where
  directory : Directory
  path : Bytes
  stripRealm : Bool
  limits : Groups.Limits

namespace Settings

/-- What an object of the directory that was listed under a role gives. -/
def grantsOf (settings : Settings) (listing : Listing) (entry : Directory.Entry) :
    Activity (List Grant) :=
  if entry.isGroup then do
    let nested ← Groups.resolve settings.directory settings.limits listing.identity
    return (listing.identity :: nested).map (Grant.group · listing.role)
  else
    match entry.userPrincipalName with
    | some name => return [.principal (Principal.stripRealm settings.stripRealm name) listing.role]
    | none => do
      Activity.warn .noPrincipalName
      return []

/-- What a listed identity gives. -/
def lookUp (settings : Settings) (listing : Listing) : Activity (List Grant) := do
  let answer ←
    Activity.ask (.objectAttributes listing.identity)
      (settings.directory.objectAttributes listing.identity)
  match answer with
  | .ok (some entry) => settings.grantsOf listing entry
  | .ok none =>
    Activity.warn .objectNotFound
    return []
  | .error _ =>
    Activity.warn .lookupFailed
    return []

/-- What some listed identities give, one after the other. -/
def lookUpAll (settings : Settings) : List Listing → Activity (List Grant)
  | [] => return []
  | listing :: rest => do
    let first ← settings.lookUp listing
    let others ← settings.lookUpAll rest
    return first ++ others

/-- Build the snapshot of a mapping file and publish it. -/
def rebuild (settings : Settings) (content : Option Bytes) :
    Activity (Except RealmError Snapshot) :=
  match Definitions.ofContent content with
  | .error fault => return .error (.mappingLoad (Text.display settings.path) fault.message)
  | .ok definitions => do
    let grants ← settings.lookUpAll definitions.listings
    let snapshot := Snapshot.ofGrants grants
    Timed.record (.published snapshot)
    return .ok snapshot

/-- Rebuild for a trigger that nobody waits for: a failure is a warning. -/
def refresh (settings : Settings) (content : Option Bytes) : Activity Unit := do
  match ← settings.rebuild content with
  | .ok _ => return ()
  | .error _ => Activity.warn .refreshFailed

end Settings

/-- The snapshot that is current after some events. -/
def published (current : Snapshot) (events : List (Instant × Event)) : Snapshot :=
  events.foldl
    (fun snapshot event =>
      match event.2 with
      | .published next => next
      | _ => snapshot)
    current

end SpnegoRealm.Mapping
