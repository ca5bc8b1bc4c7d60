import SpnegoRealm.Directory
import SpnegoRealm.Ldap.Protocol

/-! # Directory objects from a server's entries

An attribute whose values are all UTF-8 has texts; an attribute with any other value is binary as
a whole, and its values that are not UTF-8 come first. Names of attributes are matched in any
case of their ASCII letters.
-/

namespace SpnegoRealm.Ldap.RawEntry

/-- The texts of some values, if all are UTF-8. -/
def texts? (values : List Bytes) : Option (List String) :=
  values.mapM Text.ofUtf8?

/-- The text attribute with a name. -/
def textValues (entry : RawEntry) (name : String) : List String :=
  (entry.attributes.findSome? fun held =>
    if Text.eqIgnoringAsciiCase held.1 name then texts? held.2 else none).getD []

/-- The values of a binary attribute with a name, if there is one. -/
def binaryValues? (entry : RawEntry) (name : String) : Option (List Bytes) :=
  entry.attributes.findSome? fun held =>
    if Text.eqIgnoringAsciiCase held.1 name && (texts? held.2).isNone then
      some (held.2.filter (fun value => (Text.ofUtf8? value).isNone) ++
        held.2.filter (fun value => (Text.ofUtf8? value).isSome))
    else
      none

/-- The first text of an attribute. -/
def firstText? (entry : RawEntry) (name : String) : Option String :=
  (entry.textValues name).head?

/-- The first value of an attribute, as bytes. -/
def firstBytes? (entry : RawEntry) (name : String) : Option Bytes :=
  match entry.binaryValues? name with
  | some (value :: _) => some value
  | _ => (entry.firstText? name).map Text.utf8

/-- The name of an object: the attribute that holds it, or else the name of the entry. -/
def distinguishedName (entry : RawEntry) : String :=
  (entry.firstText? "distinguishedName").getD entry.dn

/-- The object of a directory that an entry stands for. -/
def toEntry (entry : RawEntry) : Directory.Entry where
  distinguishedName := entry.distinguishedName
  objectClass := entry.textValues "objectClass"
  userPrincipalName := entry.firstText? "userPrincipalName"
  memberOf := entry.textValues "memberOf"
  objectSid := entry.firstBytes? "objectSid"

end SpnegoRealm.Ldap.RawEntry
