import SpnegoRealm.Settings.Inline
import SpnegoRealm.Text.Casing

/-! # Settings from the environment

A variable whose name starts with `KERBEROS_REALM__`, in any case of its letters, sets an option.
The rest of its name, lowercased, is the path to the option: the names of the tables around it
and its own, separated by two underscores or a full stop.
-/

namespace SpnegoRealm.Settings

/-- A variable of the environment. -/
structure Variable where
  name : String
  value : String
  deriving DecidableEq, Repr

namespace Variable

/-- The start of the names of variables that set options. -/
def marker : List Char := "kerberos_realm__".toList

/-- The names between separators. -/
def segments : List Char → List (List Char)
  | [] => [[]]
  | '_' :: '_' :: rest => [] :: segments rest
  | '.' :: rest => [] :: segments rest
  | c :: rest =>
    match segments rest with
    | [] => [[c]]
    | segment :: others => (c :: segment) :: others

/-- The path to the option that a variable sets, if it sets one. -/
def path? (entry : Variable) : Option (List String) :=
  let characters := (Text.trimChars Text.isBlank entry.name.toList).map Char.toLower
  if characters.take marker.length = marker then
    let path := segments (Text.trimChars Text.isBlank (characters.drop marker.length))
    if path.any (·.isEmpty) then none else some (path.map String.ofList)
  else
    none

/-- The settings of one variable. -/
def settings? (entry : Variable) : Option Value :=
  entry.path?.map (Value.atPath · (Inline.read entry.value))

end Variable

/-- The settings of an environment; the later of two variables for one option counts. -/
def ofEnvironment (environment : List Variable) : Value :=
  Value.overlay (environment.filterMap Variable.settings?)

end SpnegoRealm.Settings
