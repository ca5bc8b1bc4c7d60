import SpnegoRealm.CommandLine.Arguments
import SpnegoRealm.Text.Utf8

/-! # What the operator's program is asked to do

The program takes the place of its settings and the form of its log, then a command with
arguments of its own.
-/

namespace SpnegoRealm.CommandLine

/-- A command. -/
inductive Command where
  | negotiate (header : Option String)
  | mapping
  | isMember (principal group : String)
  | run
  deriving DecidableEq, Repr

/-- A command with the settings file that it uses. -/
structure Invocation where
  configPath : Bytes
  jsonLogs : Bool
  command : Command
  deriving DecidableEq, Repr

/-- The pages of help. -/
inductive Page where
  | program
  | negotiate
  | mapping
  | isMember
  | run
  | help
  deriving DecidableEq, Repr

/-- What arguments ask for. -/
inductive Demand where
  | perform (invocation : Invocation)
  | showHelp (page : Page)
  | showVersion
  | refuse
  deriving DecidableEq, Repr

/-- The place of the settings file unless another one is given. -/
def defaultConfigPath : String := "config/kerberos-realm.yml"

/-- The page about the command with a name. -/
def Page.ofCommand? (name : String) : Option Page :=
  [("negotiate", Page.negotiate), ("mapping", .mapping), ("is-member", .isMember),
    ("run", .run), ("help", .help)].lookup name

/-- The options of the program. -/
def programOptions : List OptionRule :=
  [⟨"config", some 'c', .value false⟩, ⟨"json-logs", none, .switch⟩, helpOption, versionOption]

/-- The options of the membership command. -/
def memberOptions : List OptionRule :=
  [⟨"principal", none, .value true⟩, ⟨"group", none, .value true⟩, helpOption]

/-- Read the command with a name and its arguments. -/
def readCommand (page : Page) (arguments : List String) : Except Stop Command :=
  match page with
  | .negotiate => do
    let (given, _) ← readArguments [helpOption] (some 1) {} arguments
    return .negotiate given.words.head?
  | .mapping => do
    let _ ← readArguments [helpOption] (some 0) {} arguments
    return .mapping
  | .isMember => do
    let (given, _) ← readArguments memberOptions (some 0) {} arguments
    match given.value? "principal", given.value? "group" with
    | some principal, some group => return .isMember principal group
    | _, _ => throw .misuse
  | .run => do
    let _ ← readArguments [helpOption] (some 0) {} arguments
    return .run
  | _ => throw .misuse

/-- What asking for help about some names shows. -/
def helpDemand : List String → Demand
  | [] => .showHelp .program
  | [name] =>
    match Page.ofCommand? name with
    | some page => .showHelp page
    | none => .refuse
  | _ => .refuse

/-- What a stop shows, on the page that is open. -/
def Stop.demand (page : Page) : Stop → Demand
  | help => .showHelp page
  | version => .showVersion
  | misuse => .refuse

/-- Read the arguments of the program. -/
def demandOf (arguments : List String) : Demand :=
  match readArguments programOptions none {} arguments with
  | .error stop => stop.demand .program
  | .ok (_, []) => .refuse
  | .ok (given, name :: rest) =>
    match Page.ofCommand? name with
    | none | some .program => .refuse
    | some .help => helpDemand rest
    | some page =>
      match readCommand page rest with
      | .error stop => stop.demand page
      | .ok command =>
        .perform {
          configPath := Text.utf8 ((given.value? "config").getD defaultConfigPath)
          jsonLogs := (given.value? "json-logs").isSome
          command := command }

end SpnegoRealm.CommandLine
