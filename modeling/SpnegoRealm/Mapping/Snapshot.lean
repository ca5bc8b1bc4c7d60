import SpnegoRealm.RoleSet

/-! # Snapshots of the role mapping

A role table lists the roles of each name, in the order in which they were granted and each role
once; a name without roles is not in the table. A snapshot holds a table for principals and one
for groups, whose names are lowercased.
-/

namespace SpnegoRealm

/-- The roles of names, in increasing order of the names. -/
structure RoleTable where
  rows : List (String × List String)
  deriving DecidableEq, Repr, Inhabited

namespace RoleTable

/-- The table without names. -/
def empty : RoleTable := ⟨[]⟩

/-- The roles of a name. -/
def roles (table : RoleTable) (name : String) : List String :=
  (table.rows.lookup name).getD []

/-- The number of names. -/
def size (table : RoleTable) : Nat := table.rows.length

/-- A list with a role at its end, unless it is in the list. -/
def addRole (roles : List String) (role : String) : List String :=
  if roles.contains role then roles else roles ++ [role]

/-- Grant a role in sorted rows. -/
def grantIn (name role : String) : List (String × List String) → List (String × List String)
  | [] => [(name, [role])]
  | row :: rest =>
    if name < row.1 then (name, [role]) :: row :: rest
    else if name = row.1 then (name, addRole row.2 role) :: rest
    else row :: grantIn name role rest

/-- Grant a role to a name. -/
def grant (table : RoleTable) (name role : String) : RoleTable :=
  ⟨grantIn name role table.rows⟩

end RoleTable

/-- A role that a mapping gives to a principal or to the members of a group. -/
inductive Grant where
  | principal (name role : String)
  | group (dn role : String)
  deriving DecidableEq, Repr

/-- The roles of principals and of groups. -/
structure Snapshot where
  principals : RoleTable
  groups : RoleTable
  deriving DecidableEq, Repr, Inhabited

namespace Snapshot

/-- The snapshot without roles. -/
def empty : Snapshot := ⟨.empty, .empty⟩

/-- The roles of a principal. -/
def principalRoles (snapshot : Snapshot) (principal : String) : List String :=
  snapshot.principals.roles principal

/-- The roles of a group, however its name is cased. -/
def groupRoles (snapshot : Snapshot) (dn : String) : List String :=
  snapshot.groups.roles (Text.lowercase dn)

/-- Whether a snapshot has no roles. -/
def isEmpty (snapshot : Snapshot) : Bool :=
  snapshot.principals.rows.isEmpty && snapshot.groups.rows.isEmpty

/-- Add a grant. -/
def add (snapshot : Snapshot) : Grant → Snapshot
  | .principal name role => { snapshot with principals := snapshot.principals.grant name role }
  | .group dn role =>
    { snapshot with groups := snapshot.groups.grant (Text.lowercase dn) role }

/-- The snapshot of some grants. -/
def ofGrants (grants : List Grant) : Snapshot := grants.foldl add empty

end Snapshot

end SpnegoRealm
