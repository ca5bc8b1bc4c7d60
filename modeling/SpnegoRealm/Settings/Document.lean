import SpnegoRealm.Settings.Value
import SpnegoRealm.Text.Numeral
import SpnegoRealm.Yaml.Document

/-! # The values of a settings file

A settings file is a YAML text of at most one document, whose content is a mapping. A plain
scalar is null, a truth value or a number where the core schema says so, and a text otherwise;
a number that is written with a leading zero is a text. Of the values under a repeated key the
last one counts. A tag of a text's own makes a table of one field, named as the tag.
-/

namespace SpnegoRealm.Settings

open Yaml (Node coreTagStart)

namespace Document

/-- Whether a plain scalar is written as null. -/
def isNullText (text : String) : Bool :=
  ["~", "null", "Null", "NULL"].contains text

/-- The truth value that a plain scalar writes. -/
def boolOf? (text : String) : Option Bool :=
  if ["true", "True", "TRUE"].contains text then some true
  else if ["false", "False", "FALSE"].contains text then some false
  else none

/-- Whether a numeral starts with a zero that is not its only digit. -/
def hasLeadingZero (characters : List Char) : Bool :=
  match Text.Numeral.withoutSign characters with
  | '0' :: second :: rest => (second :: rest).all Char.isDigit
  | _ => false

/-- The amounts that an integer can have, with and without a minus sign. -/
def integerLimit (negative : Bool) : Nat :=
  if negative then Nat.pow 2 127 + 1 else Nat.pow 2 128

/-- The integer that a plain scalar writes. -/
def integerOf? (text : String) : Option Int :=
  let characters := text.toList
  let negative := characters.head? == some '-'
  let (radix, digits) := Text.Numeral.radixAndDigits (Text.Numeral.withoutSign characters)
  if hasLeadingZero characters then none
  else
    match Text.Numeral.whole? radix digits with
    | some amount =>
      if amount < integerLimit negative then
        some (if negative then -(amount : Int) else amount)
      else
        none
    | none => none

/-- Whether a text is written like a number that is finite, infinite or none. -/
def isReal (text : String) : Bool :=
  let special := [".inf", ".Inf", ".INF", "+.inf", "+.Inf", "+.INF", "-.inf", "-.Inf", "-.INF",
    ".nan", ".NaN", ".NAN"]
  special.contains text ||
    (Text.Numeral.Decimal.ofChars? (Text.Numeral.withoutSign text.toList)).any (·.isFinite)

/-- The value of a plain scalar. -/
def plainValue (text : String) : Value :=
  if text = "" || isNullText text then .null
  else
    match boolOf? text, integerOf? text with
    | some value, _ => .bool value
    | none, some value => .integer value
    | none, none =>
      if isReal text && !hasLeadingZero text.toList then .real else .text text

/-- The value of a scalar whose tag does not count. -/
def untaggedValue (text : String) (style : Yaml.Style) : Value :=
  if style = .plain then plainValue text else .text text

/-- The value of a scalar with a tag. A tag of the core schema asks for a type. -/
def taggedValue? (text tag : String) : Option Value :=
  if tag = coreTagStart ++ "bool" then (boolOf? text).map .bool
  else if tag = coreTagStart ++ "int" then (integerOf? text).map .integer
  else if tag = coreTagStart ++ "float" then if isReal text then some .real else none
  else if tag = coreTagStart ++ "null" then if isNullText text then some .null else none
  else some (.text text)

/-- The name that a tag of a text's own gives. -/
def localName? (tag : Option String) : Option String :=
  tag.bind fun name =>
    match name.toList with
    | ['!'] => some name
    | '!' :: rest => some (String.ofList rest)
    | _ => none

/-- A value under the name that its tag gives, if it gives one. -/
def underTag (tag : Option String) (value : Value) : Value :=
  match localName? tag with
  | some name => .table [(name, value)]
  | none => value

/-- The value of a scalar. -/
def scalarValue? (text : String) (style : Yaml.Style) (tag : Option String) : Option Value :=
  match tag with
  | some name =>
    if (localName? tag).isSome then some (underTag tag (untaggedValue text style))
    else taggedValue? text name
  | none => some (untaggedValue text style)

/-- The text of a key. -/
def keyOf? : Node → Option String
  | .scalar text _ _ => some text
  | _ => none

/-- The name of the field whose value a table stands for. -/
def standInName : String := "___figment_value_value"

/-- The name of the field that marks where a value comes from, by a number. -/
def originName : String := "___figment_value_id"

/-- Whether a value is a number that marks an origin. -/
def isOrigin : Value → Bool
  | .integer (.ofNat number) => number < UInt64.size
  | _ => false

/-- The value that the fields of a table make. -/
def tableOf? (fields : List (String × Value)) : Option Value :=
  let named (name : String) := (fields.filter (·.1 == name)).map (·.2)
  if !(named originName).all isOrigin then none
  else
    match (named standInName).getLast? with
    | some value => some value
    | none => some (Value.ofFields (fields.filter (·.1 != originName)))

/-- The greatest number of collections inside each other. -/
def depthLimit : Nat := 128

mutual

/-- The value of a node that may hold `depth` collections inside each other. -/
def value? (depth : Nat) : Node → Option Value
  | .scalar text style tag => scalarValue? text style tag
  | .sequence items tag =>
    if depth = 0 then none
    else (values? (depth - 1) items).map fun values => underTag tag (.list values)
  | .mapping pairs tag =>
    if depth = 0 then none
    else ((fields? (depth - 1) pairs).bind tableOf?).map (underTag tag)

/-- The values of some nodes. -/
def values? (depth : Nat) : List Node → Option (List Value)
  | [] => some []
  | item :: rest => do
    let value ← value? depth item
    let others ← values? depth rest
    return value :: others

/-- The fields that pairs of nodes stand for. -/
def fields? (depth : Nat) : List (Node × Node) → Option (List (String × Value))
  | [] => some []
  | pair :: rest => do
    let named ← field? depth pair
    let others ← fields? depth rest
    return named :: others

/-- The field that a pair of nodes stands for. -/
def field? (depth : Nat) : Node × Node → Option (String × Value)
  | (key, node) => do
    let name ← keyOf? key
    let value ← value? depth node
    return (name, value)

end

/-- The table that the content of a settings file stands for, whatever its tag. -/
def contentTable? : Node → Option Value
  | .mapping pairs _ => (fields? (depthLimit - 1) pairs).map Value.ofFields
  | .scalar text style _ => if text = "" && style = .plain then some (.table []) else none
  | .sequence .. => none

/-- Read a settings file. A text without content is a table without fields. -/
def read? (text : String) : Option Value :=
  match Yaml.Edition.v11.read text with
  | .ok content => contentTable? (content.getD .absent)
  | .error _ => none

end Document

end SpnegoRealm.Settings
