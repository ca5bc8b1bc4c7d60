import SpnegoRealm.Proofs.Mapping.Roles
import SpnegoRealm.Proofs.Overlap.World
import SpnegoRealm.Proofs.Service

/-! # What a principal is told

Whatever rebuilds and calls have happened, a principal is answered with the union of what the current
snapshot holds for its name and for its direct groups
(`SpnegoRealm.Overlap.authenticate_answers_union`). The answer is told by the names of the groups alone,
without their order, their repetitions and their letter case (`SpnegoRealm.Snapshot.rolesOf_congr`), and
no principal has a role that the mapping file does not name.
-/

namespace SpnegoRealm

namespace Snapshot

variable {groups others : List String}

/-- Only the lowercased names of the direct groups count. -/
theorem rolesOf_congr (snapshot : Snapshot) (principal : String)
    (same : ∀ name, name ∈ groups.map Text.lowercase ↔ name ∈ others.map Text.lowercase) :
    snapshot.rolesOf principal groups = snapshot.rolesOf principal others := by
  refine RoleSet.ext_of_sorted (snapshot.sorted_rolesOf _ _) (snapshot.sorted_rolesOf _ _) ?_
  intro role
  have byName (dns : List String) :
      (∃ group ∈ dns, role ∈ (snapshot.groupRoles group).map Text.lowercase) ↔
        ∃ name ∈ dns.map Text.lowercase,
          role ∈ (snapshot.groups.roles name).map Text.lowercase := by
    simp only [List.mem_map (l := dns), exists_exists_and_eq_and]
    rfl
  rw [mem_rolesOf, mem_rolesOf, byName, byName]
  simp only [same]

private theorem rolesOf_subset (snapshot : Snapshot) (principal : String)
    (subset : groups ⊆ others) :
    (snapshot.rolesOf principal groups).toList ⊆ (snapshot.rolesOf principal others).toList := by
  intro role
  rw [mem_rolesOf, mem_rolesOf]
  exact Or.imp_left fun ⟨group, listed, given⟩ => ⟨group, subset listed, given⟩

end Snapshot

namespace Overlap

open Mapping

variable {settings : Settings} {file : Option Bytes} {past : List (Action × World)} {world : World}

/-- The definitions of the content that the rebuild read which published last; none before the first
publication. -/
def InForce (past : List (Action × World)) (definitions : Definitions) : Prop :=
  (publisher? past = none ∧ definitions = []) ∨
    ∃ name content, publisher? past = some name ∧ contentsRead past name = [content] ∧
      Definitions.ofContent content = .ok definitions

/-- All roles of the current snapshot are named by the definitions in force. -/
theorem History.exists_namedBy (history : History settings file past world) :
    ∃ definitions, InForce past definitions ∧ world.current.NamedBy definitions := by
  rcases history.whole with ⟨none, empty⟩ | ⟨name, content, definitions, last, one, reads, maps⟩
  · exact ⟨[], Or.inl ⟨none, rfl⟩, empty ▸ Snapshot.namedBy_empty []⟩
  · have loads : settings.Loads definitions world.current := Or.inr maps
    exact ⟨definitions, Or.inr ⟨name, content, last, one, reads⟩, loads.namedBy⟩

/-- **A principal is answered with the union of its roles.** In every history of overlapping rebuilds
and calls, whoever has a principal that is not empty is authenticated as this principal, with exactly
the roles that the current snapshot holds for the principal or for the lowercased name of a direct
group, in strictly increasing order. Direct groups with the same lowercased names have the same answer,
and more direct groups never take a role away. No step of a call, no round of a negotiation and no
question about a membership changes the current snapshot. The role `superuser` is answered only to the
host itself, unless the mapping file in force names a role that is lowercased to it. -/
theorem authenticate_answers_union (settings : Settings) (file : Option Bytes)
    (past : List (Action × World)) (world : World) (history : History settings file past world) :
    (∀ identity, identity.principal ≠ "" → ∃ roles,
      world.current.authenticate (.negotiated identity) = .ok ⟨identity.principal, roles⟩ ∧
      roles.toList.Pairwise (· < ·) ∧
      ∀ role, role ∈ roles.toList ↔ role ∈ world.current.principals.roles identity.principal ∨
        ∃ group ∈ identity.directGroups,
          role ∈ world.current.groups.roles (Text.lowercase group)) ∧
    (∀ identity other, identity.principal = other.principal →
      (∀ name, name ∈ identity.directGroups.map Text.lowercase ↔
        name ∈ other.directGroups.map Text.lowercase) →
      world.current.authenticate (.negotiated identity) =
        world.current.authenticate (.negotiated other)) ∧
    (∀ identity other user, identity.principal = other.principal →
      identity.directGroups ⊆ other.directGroups →
      world.current.authenticate (.negotiated identity) = .ok user →
      ∃ richer, world.current.authenticate (.negotiated other) = .ok richer ∧
        richer.principal = user.principal ∧ user.roles.toList ⊆ richer.roles.toList) ∧
    (∀ name action later, Step settings world (.call name action) later →
      later.current = world.current) ∧
    (∀ mode header start trace, Service.negotiate ⟨mode, settings⟩ header start = .ok trace →
      published world.current trace.events = world.current) ∧
    (∀ mode principal group start trace,
      Service.isMember ⟨mode, settings⟩ principal group start = .ok trace →
        published world.current trace.events = world.current) ∧
    ∃ definitions, InForce past definitions ∧
      ∀ credential user, world.current.authenticate credential = .ok user →
        "superuser" ∈ user.roles.toList → credential = .liveness ∨
          ∃ definition ∈ definitions, Text.lowercase definition.role = "superuser" := by
  obtain ⟨definitions, inForce, named⟩ := history.exists_namedBy
  refine ⟨?union, ?alike, ?more, ?calls, ?rounds, ?memberships, definitions, inForce, ?superuser⟩
  case union =>
    intro identity filled
    exact ⟨_, if_neg filled, Snapshot.sorted_rolesOf _ _ _, fun role => named.mem_rolesOf _ role _⟩
  case alike =>
    intro identity other principal groups
    dsimp only [Snapshot.authenticate]
    rw [principal, Snapshot.rolesOf_congr _ _ groups]
  case more =>
    intro identity other user principal groups answered
    obtain ⟨filled, rfl⟩ := Snapshot.authenticate_eq_ok_iff.mp answered
    refine ⟨_, Snapshot.authenticate_eq_ok_iff.mpr ⟨principal ▸ filled, rfl⟩, principal.symm, ?_⟩
    rw [← principal]
    exact Snapshot.rolesOf_subset _ _ groups
  case calls =>
    intro name action later step
    exact step.current_eq rfl
  case rounds =>
    intro mode header start trace run
    exact Service.published_negotiate run world.current
  case memberships =>
    intro mode principal group start trace run
    exact Service.published_isMember run world.current
  case superuser =>
    intro credential user answered has
    cases credential with
    | liveness => exact Or.inl rfl
    | negotiated identity =>
        obtain ⟨-, rfl⟩ := Snapshot.authenticate_eq_ok_iff.mp answered
        have given : ∃ name, "superuser" ∈ world.current.principalRoles name ∨
            "superuser" ∈ world.current.groupRoles name := by
          rcases (named.mem_rolesOf _ _ _).mp has with own | ⟨group, -, given⟩
          · exact ⟨_, Or.inl own⟩
          · exact ⟨group, Or.inr given⟩
        obtain ⟨name, given⟩ := given
        obtain ⟨definition, defined, same⟩ := named name _ given
        exact Or.inr ⟨definition, defined, same.symm⟩

/-- After one rebuild, the user is answered its role, in whatever group it is. -/
theorem authenticate_answers_union_of_hall :
    ∃ past world user, History hall (some (Text.utf8 hallFile)) past world ∧
      publisher? past = some 0 ∧
      world.current.authenticate (.negotiated ⟨"u", none, ["CN=X"]⟩) = .ok user ∧
      user.principal = "u" ∧ "ops" ∈ user.roles.toList := by
  have folds : hall.directory.FoldsCase := Directory.Catalog.toDirectory_foldsCase _
  have permitted : hall.limits.maxWorkers ≤ Groups.permitLimit := by decide
  have begun : History hall (some (Text.utf8 hallFile)) [] (World.initial _) := .start
  have answers : hall.answer (some (Text.utf8 hallFile)) =
      .ok (hall.mappingOf [⟨"Ops", ["CN=U"]⟩]) :=
    Settings.answer_eq_ok_iff.mpr ⟨_, ofContent_hallFile, rfl⟩
  obtain ⟨trace, run, value⟩ := Settings.yields_rebuild permitted (some (Text.utf8 hallFile)) 0
  obtain ⟨past, world, history, -, last, current⟩ :=
    begun.exists_rebuilt folds permitted (rfl : _ = Rebuild.Stage.idle) run (value.trans answers)
  obtain ⟨union, -⟩ := authenticate_answers_union hall _ _ _ history
  obtain ⟨roles, answered, -, has⟩ := union ⟨"u", none, ["CN=X"]⟩ (by decide)
  refine ⟨_, world, _, history, last, answered, rfl, (has "ops").mpr (Or.inl ?_)⟩
  have given : (hall.mappingOf [⟨"Ops", ["CN=U"]⟩]).principals.roles "u" = ["ops"] := by
    decide +kernel
  rw [current, given]
  exact List.mem_singleton_self _

end Overlap

end SpnegoRealm
