import SpnegoRealm.Settings.Record
import SpnegoRealm.Settings.Value

/-! # Reading options from typed values

A value is taken only for its own type. A list stands for a record by the order of its fields;
whether it may be longer than the record is up to the format.
-/

namespace SpnegoRealm.Settings

namespace Value

/-- Whether a value is null. -/
def isNull : Value → Bool
  | null => true
  | _ => false

/-- The truth value. -/
def bool? : Value → Option Bool
  | bool value => some value
  | _ => none

/-- The natural number. -/
def natural? : Value → Option Nat
  | integer (.ofNat value) => if value < Format.naturalLimit then some value else none
  | _ => none

/-- The text. -/
def text? : Value → Option String
  | text value => some value
  | _ => none

/-- The fields of a table, or of a list in the order of the names. -/
def fields? (longerLists : Bool) (names : List String) : Value → Option (List (String × Value))
  | table fields => some fields
  | list items =>
    if longerLists || items.length ≤ names.length then some (names.zip items) else none
  | _ => none

end Value

namespace Format

/-- The format of typed values. -/
def typed (longerLists : Bool) : Format Value where
  isNull := Value.isNull
  bool? := Value.bool?
  natural? := Value.natural?
  text? := Value.text?
  fields? := Value.fields? longerLists

end Format

end SpnegoRealm.Settings
