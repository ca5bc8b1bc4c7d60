import SpnegoRealm.Ldap.Client
import SpnegoRealm.Refresh.Upkeep
import SpnegoRealm.Service

/-! # The life of a realm

A realm starts when its configuration is accepted and something can judge tokens. The role
mapping is then loaded once; a realm whose mapping cannot be loaded starts without roles. A start
that fails puts no question to the directory. From then on the realm keeps its role mapping fresh
until it is stopped.
-/

namespace SpnegoRealm

/-- Where a realm finds its directory. -/
inductive DirectorySource where
  /-- The host supplies the directory. -/
  | supplied (directory : Directory)
  /-- The directory is behind a server. -/
  | server (host : Ldap.Server)

/-- Why a realm does not start. -/
inductive StartError where
  | invalidConfiguration (fault : Config.Fault)
  | noMechanism
  deriving DecidableEq, Repr

/-- The wording of a failed start. -/
def StartError.message : StartError → String
  | invalidConfiguration fault => "invalid kerberos realm configuration: " ++ fault.message
  | noMechanism =>
    "no acceptor mechanism: build with the `gssapi` feature or supply one in RealmOverrides"

namespace DirectorySource

/-- The answers of the directory. -/
def directory (source : DirectorySource) (config : LdapConfig) : Directory :=
  match source with
  | .supplied directory => directory
  | .server host => Ldap.Client.toDirectory ⟨config, host⟩

/-- Prepare the directory. A connection whose certificates are not verified is worth a warning. -/
def openDirectory (source : DirectorySource) (config : LdapConfig) : Activity Directory := do
  match source with
  | .supplied _ => pure ()
  | .server _ => if !config.verifyCertificates then Activity.warn .certificatesUnverified
  return source.directory config

end DirectorySource

namespace Realm

/-- How a realm judges tokens. A rehearsal does not use the mechanism that the host supplies. -/
def mode? (config : Config) (mechanism : Option Mechanism) :
    Activity (Option Negotiation.Mode) :=
  if config.mockMode then do
    Activity.warn .mockMode
    return some .rehearsal
  else
    return mechanism.map .acceptor

/-- How a realm maps roles. -/
def mappingSettings (config : Config) (directory : Directory) : Mapping.Settings where
  directory := directory
  path := config.roleMappingPath
  stripRealm := config.stripRealm
  limits := ⟨config.maxNestedGroupDepth, config.maxNestedGroupWorkers⟩

/-- Load the role mapping for the first time. -/
def firstLoad (settings : Mapping.Settings) (content : Option Bytes) : Activity Snapshot := do
  match ← settings.rebuild content with
  | .ok snapshot => return snapshot
  | .error _ =>
    Activity.warn .initialLoadFailed
    return .empty

/-- Start a realm. The result is its service and its first snapshot. -/
def start (config : Config) (access : Config.FileAccess) (source : DirectorySource)
    (mechanism : Option Mechanism) (content : Option Bytes) :
    Activity (Except StartError (Service × Snapshot)) :=
  match config.validate access with
  | .error fault => return .error (.invalidConfiguration fault)
  | .ok _ => do
    let directory ← source.openDirectory config.ldap
    match ← mode? config mechanism with
    | none => return .error .noMechanism
    | some mode =>
      let settings := mappingSettings config directory
      let snapshot ← firstLoad settings content
      return .ok (⟨mode, settings⟩, snapshot)

/-- What a realm does by itself from the end of its start until it is stopped. -/
def upkeep (config : Config) (directory : Directory) (file : Refresh.FileLife)
    (started stopped : Instant) : Except Crash (List (Instant × Event)) :=
  Refresh.upkeep (mappingSettings config directory) config.cacheRefreshInterval.milliseconds file
    started stopped

end Realm

end SpnegoRealm
