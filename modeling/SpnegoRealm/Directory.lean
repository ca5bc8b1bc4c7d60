import SpnegoRealm.Error
import SpnegoRealm.Text.Casing
import SpnegoRealm.Text.Utf8

/-! # Directories

A directory answers four questions: what an object is, which groups are members of a group,
which groups an account is a direct member of, and whether an account belongs to a group
through any chain of groups. A directory is modelled by its answers, which do not change while
a run goes on, and by the time it takes to tell the members of a group.
-/

namespace SpnegoRealm

namespace Directory

/-- One object of a directory. -/
structure Entry where
  distinguishedName : String
  objectClass : List String := []
  userPrincipalName : Option String := none
  memberOf : List String := []
  objectSid : Option Bytes := none
  deriving DecidableEq, Repr

/-- Whether an object is a group. -/
def Entry.isGroup (entry : Entry) : Bool :=
  entry.objectClass.any (Text.eqIgnoringAsciiCase · "group")

/-- A question to a directory. -/
inductive Request where
  | objectAttributes (dn : String)
  | memberGroups (group : String)
  | userGroups (account : String)
  | isMember (group account : String)
  deriving DecidableEq, Repr

end Directory

/-- The answers of a directory. -/
structure Directory where
  objectAttributes : String → Except DirectoryError (Option Directory.Entry)
  memberGroups : String → Except DirectoryError (List String)
  userGroups : String → Except DirectoryError (List String)
  isMember : String → String → Except DirectoryError Bool
  /-- The milliseconds that the answer to `memberGroups` takes. -/
  latency : Nat := 0

end SpnegoRealm
