import SpnegoRealm.Authorization
import SpnegoRealm.Proofs.RoleSet

/-! # The roles of a principal

A principal has the lowercased roles that a snapshot gives to its name and to its direct groups
(`SpnegoRealm.Snapshot.mem_rolesOf`), and its role set tells them in strictly increasing order
(`SpnegoRealm.Snapshot.sorted_rolesOf`).
-/

namespace SpnegoRealm

variable {role : String}

namespace Snapshot

/-- The roles of an account are told in the strict byte order. -/
theorem sorted_rolesOf (snapshot : Snapshot) (principal : String) (groups : List String) :
    (snapshot.rolesOf principal groups).toList.Pairwise (· < ·) :=
  RoleSet.sorted_foldl_insert (RoleSet.sorted_foldl_insert .nil _) _

/-- An account has the roles that are kept for one of its groups or for its own name, in lower
case. -/
theorem mem_rolesOf (snapshot : Snapshot) (principal : String) (groups : List String) :
    role ∈ (snapshot.rolesOf principal groups).toList ↔
      (∃ group ∈ groups, role ∈ (snapshot.groupRoles group).map Text.lowercase) ∨
        role ∈ (snapshot.principalRoles principal).map Text.lowercase := by
  unfold rolesOf
  rw [RoleSet.mem_toList_foldl_insert, RoleSet.mem_toList_ofList, List.map_flatMap,
    List.mem_flatMap]

/-- Whoever negotiated a principal is authenticated under it. -/
theorem authenticate_eq_ok_iff {snapshot : Snapshot} {identity : Identity} {user : User} :
    snapshot.authenticate (.negotiated identity) = .ok user ↔ identity.principal ≠ "" ∧
      user = ⟨identity.principal, snapshot.rolesOf identity.principal identity.directGroups⟩ := by
  dsimp only [authenticate]
  split
  next empty => simp [empty]
  next filled => simp [filled, eq_comm]

end Snapshot

end SpnegoRealm
