import SpnegoRealm.Duration
import SpnegoRealm.Path
import SpnegoRealm.Settings.Record
import SpnegoRealm.Text.Blank

/-! # The configuration of a realm

A configuration is read from a record in any format; every option has a default. It is accepted
when the options that its mode needs are there and its bounds are positive. Outside the rehearsal
mode the keytab has to be readable, and the variable that the acceptor reads the keytab's place
from has to name the configured keytab.
-/

namespace SpnegoRealm

/-- How the directory is reached. -/
structure LdapConfig where
  url : String := "ldap://localhost:389"
  domain : String := ""
  bindDn : Option String := none
  bindPassword : Option String := none
  verifyCertificates : Bool := true
  timeout : Duration := Duration.ofSeconds 10
  deriving DecidableEq, Repr

/-- The configuration of a realm. -/
structure Config where
  acceptorPrincipal : Option String := none
  acceptorKeytabPath : Option Bytes := none
  /-- Whether negotiation is only rehearsed. -/
  mockMode : Bool := false
  stripRealm : Bool := true
  ldap : LdapConfig := {}
  cacheRefreshInterval : Duration := Duration.ofSeconds 3600
  /-- The depth to which nested groups are followed; the first group has depth one. -/
  maxNestedGroupDepth : Nat := 15
  /-- The number of questions about nested groups that may wait for an answer at once. -/
  maxNestedGroupWorkers : Nat := 50
  roleMappingPath : Bytes := Text.utf8 "config/role_mapping.yml"
  deriving DecidableEq, Repr

namespace LdapConfig

/-- The names of the options, in order. -/
def optionNames : List String :=
  ["url", "domain", "bind_dn", "bind_password", "verify_certificates", "timeout"]

end LdapConfig

namespace Config

open Settings (Format)

/-- The names of the options, in order. -/
def optionNames : List String :=
  ["acceptor_principal", "acceptor_keytab_path", "mock_mode", "strip_realm_from_principal",
    "ldap", "cache_refresh_interval", "max_nested_group_depth", "max_nested_group_workers",
    "role_mapping_path"]

variable {α : Type}

/-- Read a span of time. -/
def duration? (format : Format α) (value : α) : Option Duration :=
  (format.text? value).bind Duration.ofText?

/-- Read a path. -/
def path? (format : Format α) (value : α) : Option Bytes :=
  (format.text? value).map Text.utf8

/-- Read how the directory is reached. -/
def readLdap? (format : Format α) (value : α) : Option LdapConfig := do
  let fields ← format.record? LdapConfig.optionNames value
  let defaults : LdapConfig := {}
  let url ← Format.field? fields "url" format.text? defaults.url
  let domain ← Format.field? fields "domain" format.text? defaults.domain
  let bindDn ←
    Format.field? fields "bind_dn" (format.optional? format.text?) defaults.bindDn
  let bindPassword ←
    Format.field? fields "bind_password" (format.optional? format.text?) defaults.bindPassword
  let verifyCertificates ←
    Format.field? fields "verify_certificates" format.bool? defaults.verifyCertificates
  let timeout ← Format.field? fields "timeout" (duration? format) defaults.timeout
  return {
    url := url
    domain := domain
    bindDn := bindDn
    bindPassword := bindPassword
    verifyCertificates := verifyCertificates
    timeout := timeout }

/-- Read a configuration. -/
def read? (format : Format α) (value : α) : Option Config := do
  let fields ← format.record? optionNames value
  let defaults : Config := {}
  let acceptorPrincipal ←
    Format.field? fields "acceptor_principal" (format.optional? format.text?)
      defaults.acceptorPrincipal
  let acceptorKeytabPath ←
    Format.field? fields "acceptor_keytab_path" (format.optional? (path? format))
      defaults.acceptorKeytabPath
  let mockMode ← Format.field? fields "mock_mode" format.bool? defaults.mockMode
  let stripRealm ←
    Format.field? fields "strip_realm_from_principal" format.bool? defaults.stripRealm
  let ldap ← Format.field? fields "ldap" (readLdap? format) defaults.ldap
  let cacheRefreshInterval ←
    Format.field? fields "cache_refresh_interval" (duration? format)
      defaults.cacheRefreshInterval
  let maxNestedGroupDepth ←
    Format.field? fields "max_nested_group_depth" format.natural? defaults.maxNestedGroupDepth
  let maxNestedGroupWorkers ←
    Format.field? fields "max_nested_group_workers" format.natural?
      defaults.maxNestedGroupWorkers
  let roleMappingPath ←
    Format.field? fields "role_mapping_path" (path? format) defaults.roleMappingPath
  return {
    acceptorPrincipal := acceptorPrincipal
    acceptorKeytabPath := acceptorKeytabPath
    mockMode := mockMode
    stripRealm := stripRealm
    ldap := ldap
    cacheRefreshInterval := cacheRefreshInterval
    maxNestedGroupDepth := maxNestedGroupDepth
    maxNestedGroupWorkers := maxNestedGroupWorkers
    roleMappingPath := roleMappingPath }

/-- Why a configuration is refused. -/
inductive Fault where
  | missing (option : String)
  | unreadableKeytab (path : Bytes) (reason : String)
  | zero (option : String)
  | keytabNotExported (path : Bytes) (exported : Option Bytes)
  deriving DecidableEq, Repr

/-- The variable that the acceptor reads the keytab's place from. -/
def keytabVariable : String := "KRB5_KTNAME"

/-- The wording of a refusal. -/
def Fault.message : Fault → String
  | missing option => "unconfigured (but required) property: " ++ option
  | unreadableKeytab path reason =>
    "keytab " ++ Text.display path ++ " is not readable: " ++ reason
  | zero option => option ++ " must be greater than zero"
  | keytabNotExported path exported =>
    keytabVariable ++ " (" ++ (exported.map Text.display).getD "unset" ++
      ") does not point at acceptor_keytab_path " ++ Text.display path

/-- Whether files can be opened, and the reason why not. -/
abbrev FileAccess := Bytes → Except String Unit

/-- Refuse a configuration unless a condition holds. -/
def require (condition : Bool) (fault : Fault) : Except Fault Unit :=
  if condition then .ok () else .error fault

/-- Check what only an acceptor needs: its name and a readable keytab. -/
def validateAcceptor (config : Config) (access : FileAccess) : Except Fault Unit := do
  require (config.acceptorPrincipal.any fun name => !Text.isBlankText name)
    (.missing "acceptor_principal")
  match config.acceptorKeytabPath with
  | none => .error (.missing "acceptor_keytab_path")
  | some keytab => (access keytab).mapError (.unreadableKeytab keytab)

/-- Accept a configuration, or tell the first thing that is wrong. -/
def validate (config : Config) (access : FileAccess) : Except Fault Unit := do
  if !config.mockMode then
    config.validateAcceptor access
  require (config.maxNestedGroupDepth != 0) (.zero "max_nested_group_depth")
  require (config.maxNestedGroupWorkers != 0) (.zero "max_nested_group_workers")
  require (config.cacheRefreshInterval != Duration.zero) (.zero "cache_refresh_interval")
  require (config.roleMappingPath != []) (.missing "role_mapping_path")

/-- What may stand in front of an exported path. -/
def exportMarker : List Char := "FILE:".toList

/-- The path that an exported value names. Bytes that are not UTF-8 are replaced. -/
def exportedPath (exported : Bytes) : Bytes :=
  let text := Text.ofUtf8Lossy exported
  let path :=
    if text.take exportMarker.length = exportMarker then text.drop exportMarker.length
    else text
  Text.utf8 (String.ofList path)

/-- Check that the exported value names the configured keytab. -/
def checkKeytabExport (config : Config) (exported : Option Bytes) : Except Fault Unit :=
  match config.acceptorKeytabPath with
  | none => .ok ()
  | some keytab =>
    require (exported.any fun value => Path.same (exportedPath value) keytab)
      (.keytabNotExported keytab exported)

end Config

end SpnegoRealm
