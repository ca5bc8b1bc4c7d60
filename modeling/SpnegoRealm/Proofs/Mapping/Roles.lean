import SpnegoRealm.Proofs.Authorization
import SpnegoRealm.Proofs.Mapping.Load
import SpnegoRealm.Proofs.Text.Casing

/-! # Roles that a load can give

Every role in a snapshot was granted under some listing, and a listing carries the lowercased name of
the role that it stands under. So a load gives no role but the lowercased names of roles in its file,
whether to a principal or to a group (`SpnegoRealm.Mapping.Settings.Loads.namedBy`). Such roles do not
change when a role set lowercases them once more
(`SpnegoRealm.Snapshot.NamedBy.mem_rolesOf`).
-/

namespace SpnegoRealm

namespace Grant

/-- The role that a grant gives, whoever it gives it to. -/
def role : Grant → String
  | principal _ role => role
  | group _ role => role

variable {grant : Grant} {pair : String × String}

private theorem role_of_principalPair? (pairs : grant.principalPair? = some pair) :
    grant.role = pair.2 := by
  cases grant with
  | principal name role => exact congrArg Prod.snd (Option.some.inj pairs)
  | group dn role => cases pairs

private theorem role_of_groupPair? (pairs : grant.groupPair? = some pair) :
    grant.role = pair.2 := by
  cases grant with
  | principal name role => cases pairs
  | group dn role => exact congrArg Prod.snd (Option.some.inj pairs)

end Grant

variable {role name : String} {grants : List Grant}

/-- A name has a role in a table of grants if and only if one of these grants gives it. -/
theorem RoleTable.mem_roles_ofPairs {pairs : List (String × String)} :
    role ∈ (ofPairs pairs).roles name ↔ (name, role) ∈ pairs := by
  rw [roles, lookup_ofPairs, getD_present, List.mem_eraseDups, mem_granted]

/-- Whoever has a role in a snapshot, the role was granted to somebody. -/
theorem Snapshot.exists_grant
    (given : role ∈ (ofGrants grants).principalRoles name ∨ role ∈ (ofGrants grants).groupRoles name) :
    ∃ grant ∈ grants, grant.role = role := by
  rw [principalRoles, principals_ofGrants, RoleTable.mem_roles_ofPairs, List.mem_filterMap, groupRoles,
    groups_ofGrants, RoleTable.mem_roles_ofPairs, List.mem_filterMap] at given
  rcases given with ⟨grant, granted, pairs⟩ | ⟨grant, granted, pairs⟩
  · exact ⟨grant, granted, Grant.role_of_principalPair? pairs⟩
  · exact ⟨grant, granted, Grant.role_of_groupPair? pairs⟩

namespace Snapshot

variable {snapshot : Snapshot} {definitions : Mapping.Definitions}

/-- All roles in a snapshot are lowercased names of roles that some definitions have. -/
def NamedBy (snapshot : Snapshot) (definitions : Mapping.Definitions) : Prop :=
  ∀ name role, role ∈ snapshot.principalRoles name ∨ role ∈ snapshot.groupRoles name →
    ∃ definition ∈ definitions, role = Text.lowercase definition.role

/-- A snapshot without roles is named by all definitions. -/
theorem namedBy_empty (definitions : Mapping.Definitions) : Snapshot.empty.NamedBy definitions := by
  rintro name role (given | given) <;> cases given

/-- Lowercasing the roles of a snapshot once more changes nothing. -/
theorem NamedBy.mem_map_lowercase_iff {roles : List String} (named : snapshot.NamedBy definitions)
    (given : roles = snapshot.principalRoles name ∨ roles = snapshot.groupRoles name) :
    role ∈ roles.map Text.lowercase ↔ role ∈ roles := by
  have settled (other : String) (member : other ∈ roles) : Text.lowercase other = other := by
    have present : other ∈ snapshot.principalRoles name ∨ other ∈ snapshot.groupRoles name := by
      rcases given with rfl | rfl
      · exact Or.inl member
      · exact Or.inr member
    obtain ⟨definition, -, rfl⟩ := named name other present
    exact Text.lowercase_lowercase _
  rw [List.map_congr_left settled, List.map_id']

/-- The roles of a principal are those of its entry and of its direct groups. -/
theorem NamedBy.mem_rolesOf (named : snapshot.NamedBy definitions) (principal role : String)
    (groups : List String) : role ∈ (snapshot.rolesOf principal groups).toList ↔
      role ∈ snapshot.principalRoles principal ∨
        ∃ group ∈ groups, role ∈ snapshot.groupRoles group := by
  rw [Snapshot.mem_rolesOf, named.mem_map_lowercase_iff (Or.inl rfl)]
  simp only [named.mem_map_lowercase_iff (Or.inr rfl)]
  exact or_comm

end Snapshot

namespace Mapping.Settings

variable {settings : Settings} {listing : Listing} {definitions : Definitions} {snapshot : Snapshot}
  {grant : Grant}

private theorem role_of_direct? (found : settings.direct? listing = some grants)
    (granted : grant ∈ grants) :
    grant.role = listing.role := by
  obtain rfl | ⟨name, rfl⟩ := of_direct?_eq_some found
  · cases granted
  · obtain rfl := List.mem_singleton.mp granted
    rfl

private theorem role_of_group {dns : List String} (granted : grant ∈ dns.map (Grant.group · role)) :
    grant.role = role := by
  obtain ⟨dn, -, rfl⟩ := List.mem_map.mp granted
  rfl

private theorem role_of_gives (gives : settings.Gives listing grants) (granted : grant ∈ grants) :
    grant.role = listing.role := by
  cases gives with
  | direct found => exact role_of_direct? found granted
  | group found searched => exact role_of_group granted

private theorem role_of_grantsFor (granted : grant ∈ settings.grantsFor listing) :
    grant.role = listing.role := by
  rw [grantsFor_eq] at granted
  cases found : settings.direct? listing with
  | some grants =>
      rw [found, Option.getD_some] at granted
      exact role_of_direct? found granted
  | none =>
      rw [found, Option.getD_none] at granted
      exact role_of_group granted

/-- What a listing comes to in a load by itself, or in some order of its search. -/
def ComesTo (settings : Settings) (listing : Listing) (grants : List Grant) : Prop :=
  grants = settings.grantsFor listing ∨ settings.Gives listing grants

private theorem role_of_comesTo (comes : settings.ComesTo listing grants)
    (granted : grant ∈ grants) :
    grant.role = listing.role := by
  rcases comes with rfl | gives
  · exact role_of_grantsFor granted
  · exact role_of_gives gives granted

/-- A load consists of what its listings come to. -/
theorem Loads.exists_parts (loads : settings.Loads definitions snapshot) :
    ∃ parts : List (Listing × List Grant), parts.map Prod.fst = definitions.listings ∧
      (∀ part ∈ parts, settings.ComesTo part.1 part.2) ∧
        snapshot = Snapshot.ofGrants (parts.flatMap Prod.snd) := by
  obtain ⟨content, start, trace, reads, run, value⟩ | ⟨parts, listed, rfl⟩ := loads
  · rw [settings.tells_rebuild content start trace run] at value
    obtain ⟨others, reads', rfl⟩ := answer_eq_ok_iff.mp value
    obtain rfl := Except.ok.inj (reads.symm.trans reads')
    refine ⟨definitions.listings.map fun listing => (listing, settings.grantsFor listing), ?_, ?_, ?_⟩
    · rw [List.map_map]
      exact List.map_id _
    · intro part isPart
      obtain ⟨listing, -, rfl⟩ := List.mem_map.mp isPart
      exact Or.inl rfl
    · rw [List.flatMap_map]
      rfl
  · refine ⟨parts.map fun part => (part.listing, part.grants), ?_, ?_, ?_⟩
    · rw [List.map_map, ← listed]
      rfl
    · intro _ isPart
      obtain ⟨part, -, rfl⟩ := List.mem_map.mp isPart
      exact Or.inr part.given
    · rw [List.flatMap_map]

/-- **A load gives only roles that its file names.** -/
theorem Loads.namedBy (loads : settings.Loads definitions snapshot) : snapshot.NamedBy definitions := by
  intro name role given
  obtain ⟨parts, listings, comes, rfl⟩ := loads.exists_parts
  obtain ⟨grant, isGrant, rfl⟩ := Snapshot.exists_grant given
  obtain ⟨part, isPart, granted⟩ := List.mem_flatMap.mp isGrant
  have listed : part.1 ∈ definitions.listings := listings ▸ List.mem_map_of_mem isPart
  obtain ⟨definition, defined, inDefinition⟩ := List.mem_flatMap.mp listed
  refine ⟨definition, defined, ?_⟩
  exact (role_of_comesTo (comes part isPart) granted).trans
    (Definitions.mem_listings.mp inDefinition).1

end Mapping.Settings

end SpnegoRealm
