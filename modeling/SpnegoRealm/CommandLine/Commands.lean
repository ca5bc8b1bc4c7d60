import SpnegoRealm.CommandLine.Help
import SpnegoRealm.Config.Load
import SpnegoRealm.Realm
import SpnegoRealm.Text.Json

/-! # The commands of the operator's program

A command prints its answer and ends with a status: zero when all went well, one when something
failed or a membership is denied, two when the arguments make no sense. What a failure was goes
to the log and not to the output.
-/

namespace SpnegoRealm.CommandLine

/-- What the program finds when it is started. -/
structure Surroundings where
  environment : List Settings.Variable
  /-- The content of the files that can be read. -/
  file : Bytes → Option Bytes
  access : Config.FileAccess
  server : Ldap.Server

/-- How the program ends. -/
structure Ending where
  status : Nat
  output : String := ""
  deriving DecidableEq, Repr

namespace Ending

/-- The command did its work. -/
def success (output : String) : Ending := ⟨0, output⟩

/-- The command failed. -/
def failure : Ending := ⟨1, ""⟩

/-- The arguments make no sense. -/
def misuse : Ending := ⟨2, ""⟩

end Ending

/-- A user as JSON. -/
def userJson (user : User) : Json :=
  .object [("principal", .text user.principal),
    ("roles", .list (user.roles.toList.map .text))]

/-- A role table as JSON. -/
def tableJson (table : RoleTable) : Json :=
  .object (table.rows.map fun row => (row.1, .list (row.2.map .text)))

/-- A snapshot as JSON. -/
def snapshotJson (snapshot : Snapshot) : Json :=
  .object [("principal_roles", tableJson snapshot.principals),
    ("group_roles", tableJson snapshot.groups)]

/-- Whether a byte can be shown on a terminal. -/
def isShown (byte : UInt8) : Bool :=
  byte == 0x09 || (0x20 ≤ byte && byte ≤ 0x7E)

/-- A header value as it is printed. -/
def headerText (value : Bytes) : String :=
  if value.all isShown then Text.display value else "<binary>"

/-- The lines of a response's headers. -/
def headerLines (headers : List (String × Bytes)) : String :=
  String.join (headers.map fun header => header.1 ++ ": " ++ headerText header.2 ++ "\n")

namespace Surroundings

/-- Start a realm whose directory is behind the server. -/
def startRealm (surroundings : Surroundings) (config : Config) :
    Activity (Except StartError (Service × Snapshot)) :=
  Realm.start config surroundings.access (.server surroundings.server) none
    (surroundings.file config.roleMappingPath)

/-- Run one round of a negotiation, and tell the roles of the user if it completes. -/
def negotiate (surroundings : Surroundings) (config : Config) (header : Option String) :
    Activity Ending := do
  match ← surroundings.startRealm config with
  | .error _ => return .failure
  | .ok (service, snapshot) =>
    match ← service.negotiate header with
    | .error _ => return .failure
    | .ok outcome =>
      let lines := headerLines outcome.responseHeaders
      match outcome with
      | .authenticated identity =>
        match snapshot.authenticate (.negotiated identity) with
        | .ok user => return .success (lines ++ (userJson user).pretty 0 ++ "\n")
        | .error _ => return ⟨1, lines⟩
      | _ => return .success lines

/-- Build the role mapping once and print it. -/
def mapping (surroundings : Surroundings) (config : Config) : Activity Ending := do
  let directory ← (DirectorySource.server surroundings.server).openDirectory config.ldap
  let settings := Realm.mappingSettings config directory
  match ← settings.rebuild (surroundings.file config.roleMappingPath) with
  | .ok snapshot => return .success ((snapshotJson snapshot).pretty 0 ++ "\n")
  | .error _ => return .failure

/-- Tell whether a principal belongs to a group. -/
def isMember (surroundings : Surroundings) (config : Config) (principal group : String) :
    Activity Ending := do
  match ← surroundings.startRealm config with
  | .error _ => return .failure
  | .ok (service, _) =>
    match ← service.isMember principal group with
    | .ok true => return .success "true\n"
    | .ok false => return ⟨1, "false\n"⟩
    | .error _ => return .failure

/-- Start a realm that is to be kept fresh until the operator ends it. -/
def run (surroundings : Surroundings) (config : Config) : Activity Ending := do
  match ← surroundings.startRealm config with
  | .error _ => return .failure
  | .ok _ => return .success ""

/-- The configuration that an invocation uses. A settings file that is not there sets nothing. -/
def configuration? (surroundings : Surroundings) (invocation : Invocation) : Option Config := do
  match surroundings.file invocation.configPath with
  | none => Config.load? none surroundings.environment
  | some bytes =>
    let text ← Text.ofUtf8? bytes
    Config.load? (some text) surroundings.environment

/-- Carry out an invocation. -/
def carryOut (surroundings : Surroundings) (invocation : Invocation) : Activity Ending :=
  match surroundings.configuration? invocation with
  | none => return .failure
  | some config =>
    match invocation.command with
    | .negotiate header => surroundings.negotiate config header
    | .mapping => surroundings.mapping config
    | .isMember principal group => surroundings.isMember config principal group
    | .run => surroundings.run config

/-- Do what arguments ask for. -/
def answer (surroundings : Surroundings) (arguments : List String) : Activity Ending :=
  match demandOf arguments with
  | .perform invocation => surroundings.carryOut invocation
  | .showHelp page => return .success page.content.text
  | .showVersion => return .success versionText
  | .refuse => return .misuse

end Surroundings

end SpnegoRealm.CommandLine
