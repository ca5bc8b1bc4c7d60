import SpnegoRealm.Settings.Record
import SpnegoRealm.Yaml.Lenient

/-! # Reading options from a YAML text for what is asked -/

namespace SpnegoRealm.Settings.Format

/-- The format in which the type of an option decides how its value is read. -/
def lenient : Format Yaml.Node where
  isNull := Yaml.Lenient.isAbsent
  bool? := Yaml.Lenient.bool?
  natural? := Yaml.Lenient.natural? naturalLimit
  text? := Yaml.Lenient.text?
  fields? := fun _ => Yaml.Lenient.fields?

end SpnegoRealm.Settings.Format
