/-! # Principal names

A principal name may carry the name of its realm after an at sign. Where realms are stripped,
the part up to the first at sign stands for the principal; a name that starts with an at sign
has no such part and is kept whole.
-/

namespace SpnegoRealm.Principal

/-- The part of a name before its first at sign, if there is one and the part is not empty. -/
def account? (name : List Char) : Option (List Char) :=
  if name.contains '@' then
    match name.takeWhile (· != '@') with
    | [] => none
    | account => some account
  else
    none

/-- Drop the realm from a name, if realms are to be stripped. -/
def stripRealm (strip : Bool) (name : String) : String :=
  if strip then
    match account? name.toList with
    | some account => String.ofList account
    | none => name
  else
    name

end SpnegoRealm.Principal
