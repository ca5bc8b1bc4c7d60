import SpnegoRealm.CommandLine.Commands

/-! # The operator's program

Reads the files and the environment that an invocation needs, carries it out, and prints. The
machine has no client for a directory server, so every connection is refused.
-/

namespace SpnegoRealm

open CommandLine

/-- The content of a file, if it can be read. -/
def readFile? (path : Bytes) : IO (Option Bytes) := do
  match Text.ofUtf8? path with
  | none => return none
  | some name =>
    try
      return some (← IO.FS.readBinFile name).toList
    catch _ =>
      return none

/-- Whether a file can be opened, and the reason why not. -/
def openFile (path : Bytes) : IO (Except String Unit) := do
  try
    let _ ← IO.FS.Handle.mk (Text.display path) .read
    return .ok ()
  catch error =>
    return .error (toString error)

/-- The pieces between separators. -/
def splitBytes (separator : UInt8) (bytes : Bytes) : List Bytes :=
  bytes.foldr
    (fun byte pieces =>
      if byte = separator then [] :: pieces
      else
        match pieces with
        | [] => [[byte]]
        | piece :: rest => (byte :: piece) :: rest)
    [[]]

/-- A variable as the system writes it: its name, an equals sign and its value. -/
def parseEntry? (entry : Bytes) : Option Settings.Variable := do
  let text ← Text.ofUtf8? entry
  let name := text.toList.takeWhile (· != '=')
  let value := text.toList.drop (name.length + 1)
  if name.isEmpty then none else some ⟨String.ofList name, String.ofList value⟩

/-- The variables of the environment. -/
def readEnvironment : IO (List Settings.Variable) := do
  let entries := splitBytes 0 ((← readFile? (Text.utf8 "/proc/self/environ")).getD [])
  return entries.filterMap parseEntry?

/-- The server of a machine without a network. -/
def noServer : Ldap.Server := .unreachable "Connection refused (os error 111)"

/-- Find what an invocation needs: its settings, the mapping file and the keytab. -/
def lookAround (invocation : Invocation) : IO Surroundings := do
  let environment ← readEnvironment
  let settings ← readFile? invocation.configPath
  let first : Surroundings :=
    { environment := environment
      file := fun path => if path == invocation.configPath then settings else none
      access := fun _ => .ok ()
      server := noServer }
  match first.configuration? invocation with
  | none => return first
  | some config =>
    let mapping ← readFile? config.roleMappingPath
    let access ←
      match config.acceptorKeytabPath with
      | some keytab => openFile keytab
      | none => pure (.ok ())
    return { first with
      file := fun path =>
        if path == invocation.configPath then settings
        else if path == config.roleMappingPath then mapping
        else none
      access := fun _ => access }

/-- Log the warnings among some events. -/
def logWarnings (events : List (Instant × Event)) : IO Unit := do
  for event in events do
    match event.2 with
    | .warned warning => IO.eprintln ("WARN " ++ warning.message)
    | _ => pure ()

/-- Refresh the role mapping after every interval, for ever. -/
partial def keepFresh (config : Config) : IO Unit := do
  IO.sleep (UInt32.ofNat (min config.cacheRefreshInterval.milliseconds (UInt32.size - 1)))
  let directory := (DirectorySource.server noServer).directory config.ldap
  let settings := Realm.mappingSettings config directory
  let content ← readFile? config.roleMappingPath
  match settings.refresh content 0 with
  | .ok trace => logWarnings trace.events
  | .error _ => IO.eprintln "ERROR too many workers"
  keepFresh config

end SpnegoRealm

open SpnegoRealm CommandLine in
/-- Do what the arguments ask for. -/
def main (arguments : List String) : IO UInt32 := do
  let nowhere : Surroundings :=
    { environment := [], file := fun _ => none, access := fun _ => .ok (), server := noServer }
  let surroundings ←
    match demandOf arguments with
    | .perform invocation => lookAround invocation
    | _ => pure nowhere
  match surroundings.answer arguments 0 with
  | .error _ =>
    IO.eprintln "ERROR too many workers"
    return 101
  | .ok trace =>
    logWarnings trace.events
    IO.print trace.value.output
    match demandOf arguments with
    | .perform ⟨path, jsonLogs, .run⟩ =>
      if trace.value.status = 0 then
        match surroundings.configuration? ⟨path, jsonLogs, .run⟩ with
        | some config => keepFresh config
        | none => pure ()
    | _ => pure ()
    return UInt32.ofNat trace.value.status
