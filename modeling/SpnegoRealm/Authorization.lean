import SpnegoRealm.Error
import SpnegoRealm.Mapping.Snapshot
import SpnegoRealm.Negotiation.Outcome

/-! # Authorization

A principal has the roles that the current snapshot gives to its name and to each of its direct
groups. One fixed identity, which stands for the host's own liveness checks, is known without a
negotiation.
-/

namespace SpnegoRealm

/-- A principal with its roles. -/
structure User where
  principal : String
  roles : RoleSet
  deriving DecidableEq, Repr

/-- What a user is authenticated by. -/
inductive Credential where
  | liveness
  | negotiated (identity : Identity)
  deriving DecidableEq, Repr

namespace User

/-- The role of the host itself. -/
def systemRole : String := "superuser"

/-- The identity of the host itself. -/
def system : User := ⟨"_system", RoleSet.ofList [systemRole]⟩

end User

namespace Snapshot

/-- The roles of a principal with some direct groups. -/
def rolesOf (snapshot : Snapshot) (principal : String) (directGroups : List String) : RoleSet :=
  (directGroups.flatMap snapshot.groupRoles).foldl RoleSet.insert
    (RoleSet.ofList (snapshot.principalRoles principal))

/-- The user that a credential stands for. -/
def authenticate (snapshot : Snapshot) : Credential → Except RealmError User
  | .liveness => .ok User.system
  | .negotiated identity =>
    if identity.principal = "" then
      .error (.negotiation
        (.principalExtractionFailure "authentication token carries no principal"))
    else
      .ok ⟨identity.principal, snapshot.rolesOf identity.principal identity.directGroups⟩

end Snapshot

end SpnegoRealm
