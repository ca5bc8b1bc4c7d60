/-! # Arguments of a command

A command takes options, written long or short, and words. The value of an option follows it as
the next argument, after an equals sign, or, if the option is short, directly. Every option is
given at most once. After two hyphens everything is a word. What the arguments ask for first
counts: help, the version, or the first mistake.
-/

namespace SpnegoRealm.CommandLine

/-- Why arguments are not carried out. -/
inductive Stop where
  | help
  | version
  | misuse
  deriving DecidableEq, Repr

/-- What an option does. -/
inductive OptionKind where
  | switch
  /-- The option has a value, which may be empty or not. -/
  | value (mayBeEmpty : Bool)
  | stop (reason : Stop)
  deriving DecidableEq, Repr

/-- An option of a command. -/
structure OptionRule where
  name : String
  letter : Option Char := none
  kind : OptionKind
  deriving DecidableEq, Repr

/-- The option that asks for help. -/
def helpOption : OptionRule := ⟨"help", some 'h', .stop .help⟩

/-- The option that asks for the version. -/
def versionOption : OptionRule := ⟨"version", some 'V', .stop .version⟩

/-- What arguments hold: the options given, with their values, and the words. -/
structure Given where
  options : List (String × String) := []
  words : List String := []
  deriving DecidableEq, Repr

namespace Given

/-- The value of an option, if it is given. -/
def value? (given : Given) (name : String) : Option String := given.options.lookup name

/-- Note an option with its value. -/
def withOption (given : Given) (name value : String) : Except Stop Given :=
  if (given.value? name).isSome then .error .misuse
  else .ok { given with options := given.options ++ [(name, value)] }

/-- Note a word, if the command takes one more. -/
def withWord (given : Given) (limit : Nat) (word : String) : Except Stop Given :=
  if given.words.length < limit then .ok { given with words := given.words ++ [word] }
  else .error .misuse

end Given

/-- Whether an argument is written like an option. -/
def looksLikeOption (argument : String) : Bool :=
  argument.startsWith "-" && argument != "-"

/-- An option found in an argument, with the value written in the same argument. -/
structure Found where
  rule : OptionRule
  attached : Option String

/-- Find the long option that an argument names. -/
def longOption? (rules : List OptionRule) (argument : List Char) : Option Found := do
  let name := argument.takeWhile (· != '=')
  let rule ← rules.find? (·.name.toList = name)
  match argument.drop name.length with
  | [] => return ⟨rule, none⟩
  | _ :: value => return ⟨rule, some (String.ofList value)⟩

/-- Find the short option that an argument names. -/
def shortOption? (rules : List OptionRule) : List Char → Option Found
  | [] => none
  | letter :: rest => do
    let rule ← rules.find? (·.letter = some letter)
    match rest with
    | [] => return ⟨rule, none⟩
    | '=' :: value => return ⟨rule, some (String.ofList value)⟩
    | value => return ⟨rule, some (String.ofList value)⟩

/-- Find the option that an argument names. -/
def option? (rules : List OptionRule) (argument : String) : Option Found :=
  match argument.toList with
  | '-' :: '-' :: rest => longOption? rules rest
  | '-' :: rest => shortOption? rules rest
  | _ => none

/-- Whether a value suits an option. -/
def checkValue (mayBeEmpty : Bool) (value : String) : Except Stop String :=
  if value = "" && !mayBeEmpty then .error .misuse else .ok value

/-- Read the arguments of a command that takes at most some words. A command that only takes
options before a first word leaves the arguments from that word on. -/
def readArguments (rules : List OptionRule) (wordLimit : Option Nat) (given : Given) :
    List String → Except Stop (Given × List String)
  | [] => .ok (given, [])
  | argument :: rest =>
    if argument = "--" then
      match wordLimit with
      | some limit => do
        let given ← rest.foldlM (·.withWord limit) given
        return (given, [])
      | none => .error .misuse
    else if looksLikeOption argument then
      match option? rules argument with
      | none => .error .misuse
      | some ⟨rule, attached⟩ =>
        match rule.kind, attached with
        | .stop reason, attached =>
          if attached.isSome && argument.startsWith "--" then .error .misuse else .error reason
        | .switch, some _ => .error .misuse
        | .switch, none => do
          readArguments rules wordLimit (← given.withOption rule.name "") rest
        | .value mayBeEmpty, some value => do
          let value ← checkValue mayBeEmpty value
          readArguments rules wordLimit (← given.withOption rule.name value) rest
        | .value mayBeEmpty, none =>
          match rest with
          | [] => .error .misuse
          | value :: rest =>
            if looksLikeOption value then .error .misuse
            else do
              let value ← checkValue mayBeEmpty value
              readArguments rules wordLimit (← given.withOption rule.name value) rest
    else
      match wordLimit with
      | none => .ok (given, argument :: rest)
      | some limit => do readArguments rules (some limit) (← given.withWord limit argument) rest

end SpnegoRealm.CommandLine
