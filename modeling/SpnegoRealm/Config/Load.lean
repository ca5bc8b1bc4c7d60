import SpnegoRealm.Config
import SpnegoRealm.Settings.Document
import SpnegoRealm.Settings.Environment
import SpnegoRealm.Settings.Lenient
import SpnegoRealm.Settings.Typed

/-! # Loading a configuration

The operator's program lays the settings of the environment over those of the settings file and
reads the options from the result, each for its own type only. A text can also be read on its
own, for what each option asks.
-/

namespace SpnegoRealm.Config

/-- The settings of a file, of which there may be none. -/
def fileSettings? : Option String → Option Settings.Value
  | none => some (.table [])
  | some text => Settings.Document.read? text

/-- Load a configuration from a settings file and the environment. -/
def load? (file : Option String) (environment : List Settings.Variable) : Option Config := do
  let settings ← fileSettings? file
  read? (Settings.Format.typed true) (settings.laidOver (Settings.ofEnvironment environment))

/-- Read a configuration from a text alone. -/
def ofYaml? (text : String) : Option Config := do
  let node ← Yaml.Lenient.read? text
  read? Settings.Format.lenient node

end SpnegoRealm.Config
