import SpnegoRealm.Error
import SpnegoRealm.Text.Blank
import SpnegoRealm.Text.Casing
import SpnegoRealm.Text.Utf8
import SpnegoRealm.Yaml.Lenient

/-! # Mapping files

A mapping file lists identities under role names: names of objects of the directory. A role may
list nothing, and a file of blanks lists no role. The blanks and quotes around an identity count
for nothing.
-/

namespace SpnegoRealm.Mapping

/-- A role and the identities listed under it, as written. -/
structure Definition where
  role : String
  identities : List String
  deriving DecidableEq, Repr

/-- What a mapping file lists, in increasing order of the role names. -/
abbrev Definitions := List Definition

/-- Why a mapping file cannot be used. -/
inductive Fault where
  | missing
  | notText
  | malformed
  deriving DecidableEq, Repr

/-- The wording of a fault. -/
def Fault.message : Fault → String
  | missing => "No such file or directory (os error 2)"
  | notText => "stream did not contain valid UTF-8"
  | malformed => "not a mapping from roles to lists of identities"

namespace Definitions

/-- The identities in the list under a role; there may be no list. -/
def identities? (node : Yaml.Node) : Option (List String) :=
  if Yaml.Lenient.isAbsent node then some []
  else (Yaml.Lenient.items? node).bind fun items => items.mapM Yaml.Lenient.text?

/-- The definition under a role. -/
def definition? (entry : String × Yaml.Node) : Option Definition :=
  (identities? entry.2).map fun identities => ⟨entry.1, identities⟩

/-- Keep the last of the definitions of a role. -/
def lastOfEach : Definitions → Definitions
  | [] => []
  | definition :: rest =>
    if rest.any (·.role == definition.role) then lastOfEach rest
    else definition :: lastOfEach rest

/-- Read a mapping file. -/
def ofText? (text : String) : Option Definitions :=
  if Text.isBlankText text then some []
  else do
    let node ← Yaml.Lenient.read? text
    let entries ← Yaml.Lenient.entries? node
    let definitions ← entries.mapM definition?
    return (lastOfEach definitions).mergeSort fun first second =>
      decide (first.role ≤ second.role)

/-- Read the content of a mapping file, of which there may be none. -/
def ofContent : Option Bytes → Except Fault Definitions
  | none => .error .missing
  | some bytes =>
    match Text.ofUtf8? bytes with
    | none => .error .notText
    | some text =>
      match ofText? text with
      | none => .error .malformed
      | some definitions => .ok definitions

end Definitions

/-- Whether a character is a quote. -/
def isQuote (c : Char) : Bool := c == '"' || c == '\''

/-- An identity without the blanks and quotes around it: the blanks, the quotes inside them, and
the blanks inside these. -/
def cleanIdentity (identity : String) : String :=
  Text.trim (Text.trimBy isQuote (Text.trim identity))

/-- An identity listed under a role. -/
structure Listing where
  role : String
  identity : String
  deriving DecidableEq, Repr

/-- The identities under a role that are not empty. -/
def Definition.listings (definition : Definition) : List Listing :=
  ((definition.identities.map cleanIdentity).filter (· != "")).map
    (⟨Text.lowercase definition.role, ·⟩)

/-- The listings of a mapping file, in order. -/
def Definitions.listings (definitions : Definitions) : List Listing :=
  definitions.flatMap Definition.listings

end SpnegoRealm.Mapping
