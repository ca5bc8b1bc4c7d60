import SpnegoRealm.Proofs.Authorization
import SpnegoRealm.Proofs.Directory.Membership
import SpnegoRealm.Proofs.Mapping.Complete
import SpnegoRealm.Service

/-! # Roles and membership questions

An account comes to the roles of groups in two ways. A rebuild searches downwards from the listed
groups and keeps what it finds; the account has the roles that are kept for its direct groups. A
question for membership walks from one group while the account waits for the answer. Both follow the
chains of nestings, so with a depth that is not smaller than the number of names they agree
(`SpnegoRealm.Service.membership_algorithms_agree`).
-/

namespace SpnegoRealm

open Mapping Directory

/-! ## What a deep rebuild keeps -/

namespace Mapping.Settings

variable {settings : Settings} {catalog : Catalog} {content : Option Bytes}
  {definitions : Definitions} {snapshot : Snapshot} {identity name role : String}

section Deep

variable (holds : settings.directory = catalog.toDirectory)
  (deep : catalog.toDirectory.related.ncard ≤ settings.limits.maxDepth)
  (permitted : settings.limits.maxWorkers ≤ Groups.permitLimit)

include holds deep

private theorem below_finite_and_deep (identity : String) :
    (settings.directory.below (Text.lowercase identity)).Finite ∧
      (settings.directory.below (Text.lowercase identity)).ncard ≤ settings.limits.maxDepth := by
  rw [holds]
  exact ⟨catalog.below_finite _, (catalog.ncard_below_le_related _).trans deep⟩

include permitted

/-- The names that a listed group gives its role to are the ends of the chains from the group. -/
theorem givesGroup_iff : settings.GivesGroup identity name ↔
    (∃ entry, settings.directory.objectAttributes identity = .ok (some entry) ∧
      entry.isGroup = true) ∧
    ∃ length, settings.directory.Chain (Text.lowercase identity) length name := by
  obtain ⟨finite, depth⟩ := below_finite_and_deep holds deep identity
  have folds : settings.directory.FoldsCase := holds ▸ catalog.toDirectory_foldsCase
  have found := (searched_nested folds permitted identity).mem_names_iff folds finite depth name
  have chained : name = Text.lowercase identity ∨
      name ∈ (settings.nested identity).map Text.lowercase ↔
        ∃ length, settings.directory.Chain (Text.lowercase identity) length name := by
    rw [found]
    constructor
    · rintro (rfl | ⟨-, chain⟩)
      · exact ⟨0, .root⟩
      · exact chain
    · intro chain
      by_cases isRoot : name = Text.lowercase identity
      · exact Or.inl isRoot
      · exact Or.inr ⟨isRoot, chain⟩
  unfold GivesGroup
  rw [← chained]
  constructor
  · rintro ⟨entry, answer, group, given⟩
    exact ⟨⟨entry, answer, group⟩, given.imp_right (mem_nested permitted).mpr⟩
  · rintro ⟨⟨entry, answer, group⟩, given⟩
    exact ⟨entry, answer, group, given.imp_right (mem_nested permitted).mp⟩

/-- A deep rebuild has one outcome. -/
theorem maps_iff : settings.Maps definitions snapshot ↔
    snapshot = Snapshot.ofGrants (definitions.listings.flatMap settings.grantsFor) := by
  have folds : settings.directory.FoldsCase := holds ▸ catalog.toDirectory_foldsCase
  constructor
  · intro maps
    refine maps.eq_rebuild permitted fun identity => ?_
    obtain ⟨finite, depth⟩ := below_finite_and_deep holds deep identity
    exact decided_of_deep folds finite depth permitted
  · rintro rfl
    exact maps_rebuild folds permitted definitions

/-- A complete mapping keeps for a group the roles of the listed groups that lead to it. -/
theorem mem_groupRoles (maps : settings.Maps definitions snapshot) (group : String) :
    role ∈ snapshot.groupRoles group ↔ ∃ definition ∈ definitions,
      (∃ identity ∈ definition.identities, cleanIdentity identity ≠ "" ∧
        settings.GivesGroup (cleanIdentity identity) (Text.lowercase group)) ∧
      role = Text.lowercase definition.role := by
  rw [(maps_iff holds deep permitted).mp maps, Snapshot.groupRoles, RoleTable.roles,
    Snapshot.groups_ofGrants, RoleTable.lookup_ofPairs, RoleTable.getD_present,
    Definitions.eraseDups_granted (mem_groupPairs permitted), Definitions.mem_rolesGiving]

/-- A complete mapping has no entry for a principal whom no listed identity stands for. -/
theorem lookup_principals_eq_none (maps : settings.Maps definitions snapshot)
    (unlisted : ∀ definition ∈ definitions, ∀ identity ∈ definition.identities,
      ¬ settings.GivesPrincipal (cleanIdentity identity) name) :
    snapshot.principals.rows.lookup name = none := by
  rw [(maps_iff holds deep permitted).mp maps, Snapshot.principals_ofGrants,
    RoleTable.lookup_ofPairs, Definitions.eraseDups_granted settings.mem_principalPairs]
  refine if_pos (List.eq_nil_iff_forall_not_mem.mpr fun role given => ?_)
  obtain ⟨definition, defined, ⟨identity, listed, -, gives⟩, -⟩ :=
    Definitions.mem_rolesGiving.mp given
  exact unlisted definition defined identity listed gives

end Deep

end Mapping.Settings

/-! ## Questions for membership -/

namespace Service

variable {service : Service} {catalog : Catalog} {account group : String}

private theorem yields_isMember_iff (holds : service.mapping.directory = catalog.toDirectory)
    (answers : catalog.failing = [])
    (stripped : Principal.stripRealm service.mapping.stripRealm account = account) :
    (service.isMember account group).Yields (.ok true) ↔
      catalog.isMember group account = true := by
  have answer : service.mapping.directory.isMember group account =
      .ok (catalog.isMember group account) := by
    rw [holds]
    exact Catalog.isMember_of_failing_nil answers group account
  have run : service.isMember account group = .atOnce (.ok (catalog.isMember group account))
      [.asked (.isMember group account), .answered (.isMember group account)] := by
    unfold isMember
    simp only [stripped, answer, Activity.ask_eq_atOnce]
    exact Timed.atOnce_bind_pure _ _ (Except.mapError RealmError.directory)
  rw [run]
  constructor
  · intro yields
    obtain ⟨trace, ended, value⟩ := yields 0
    obtain rfl := Except.ok.inj ended
    exact Except.ok.inj value
  · intro member
    rw [member]
    exact Timed.yields_atOnce _ _

/-- **The roles of direct groups and the answers to membership questions agree.** Let a catalog have
no failing keys, and let a mapping file be read whose groups are followed at least as deep as there
are names in the nested relation. A rebuild succeeds and publishes a complete mapping. In every
complete mapping, whatever the order of its searches, an account without roles of its own is
authenticated with exactly the roles under which a group is listed that the account belongs to. -/
theorem membership_algorithms_agree (service : Service) (catalog : Catalog)
    (built : catalog.Built) (holds : service.mapping.directory = catalog.toDirectory)
    (answers : catalog.failing = []) (content : Option Bytes) (definitions : Definitions)
    (read : Definitions.ofContent content = .ok definitions)
    (deep : catalog.toDirectory.related.ncard ≤ service.mapping.limits.maxDepth)
    (permitted : service.mapping.limits.maxWorkers ≤ Groups.permitLimit) (account : String)
    (named : account ≠ "")
    (stripped : Principal.stripRealm service.mapping.stripRealm account = account) :
    ∃ groups, service.mapping.directory.userGroups account = .ok groups ∧
      (∀ start, ∃ trace snapshot, service.rebuild content start = .ok trace ∧
        trace.value = .ok snapshot ∧ (∀ current, published current trace.events = snapshot) ∧
        service.mapping.Maps definitions snapshot) ∧
      ∀ snapshot, service.mapping.Maps definitions snapshot →
        snapshot.principals.rows.lookup account = none → ∀ token, ∃ user,
          snapshot.authenticate (.negotiated ⟨account, token, groups⟩) = .ok user ∧
          user.principal = account ∧
          ∀ role, role ∈ user.roles.toList ↔
            ∃ definition ∈ definitions, Text.lowercase definition.role = role ∧
              ∃ identity ∈ definition.identities, cleanIdentity identity ≠ "" ∧
                (∃ entry, service.mapping.directory.objectAttributes (cleanIdentity identity) =
                  .ok (some entry) ∧ entry.isGroup = true) ∧
                (service.isMember account (cleanIdentity identity)).Yields (.ok true) := by
  refine ⟨catalog.directGroups account, ?groups, ?rebuild, ?roles⟩
  case groups =>
    rw [holds]
    exact Catalog.userGroups_of_failing_nil answers account
  case rebuild =>
    intro start
    obtain ⟨finish, events, run⟩ := service.mapping.rebuild_eq read permitted start
    have complete : service.mapping.Maps definitions _ :=
      (Settings.maps_iff holds deep permitted).mpr rfl
    exact ⟨_, _, run, rfl, fun current => published_append_published current _ events finish,
      complete⟩
  case roles =>
    intro snapshot maps unlisted token
    refine ⟨_, if_neg named, rfl, fun role => ?_⟩
    have own : snapshot.principalRoles account = [] := by
      rw [Snapshot.principalRoles, RoleTable.roles, unlisted, Option.getD_none]
    rw [Snapshot.mem_rolesOf, own, List.map_nil, or_iff_left List.not_mem_nil]
    constructor
    · rintro ⟨group, isDirect, kept⟩
      obtain ⟨spelling, given, rfl⟩ := List.mem_map.mp kept
      obtain ⟨definition, defined, ⟨identity, listed, filled, gives⟩, rfl⟩ :=
        (Settings.mem_groupRoles holds deep permitted maps group).mp given
      obtain ⟨isGroup, length, chain⟩ := (Settings.givesGroup_iff holds deep permitted).mp gives
      rw [Text.lowercase_lowercase]
      refine ⟨definition, defined, rfl, identity, listed, filled, isGroup, ?_⟩
      rw [yields_isMember_iff holds answers stripped, Catalog.isMember_iff answers]
      rw [built.lowercase_of_mem_directGroups isDirect, holds] at chain
      exact ⟨group, isDirect, length, chain⟩
    · rintro ⟨definition, defined, rfl, identity, listed, filled, isGroup, belongs⟩
      rw [yields_isMember_iff holds answers stripped, Catalog.isMember_iff answers] at belongs
      obtain ⟨group, isDirect, length, chain⟩ := belongs
      have gives : service.mapping.GivesGroup (cleanIdentity identity) (Text.lowercase group) := by
        rw [Settings.givesGroup_iff holds deep permitted, holds,
          built.lowercase_of_mem_directGroups isDirect, ← holds]
        exact ⟨isGroup, length, holds ▸ chain⟩
      have kept := (Settings.mem_groupRoles holds deep permitted maps group).mpr
        ⟨definition, defined, ⟨identity, listed, filled, gives⟩, rfl⟩
      exact ⟨group, isDirect, List.mem_map.mpr ⟨_, kept, Text.lowercase_lowercase _⟩⟩

/-- Two groups that are members of each other under changing spellings, and an account in one. -/
def circle : Catalog :=
  ((((({} : Catalog).withGroup "CN=Staff").withNested "CN=Staff" ["CN=Ops"]).withNested "cn=ops"
    ["CN=STAFF"]).withUserGroups "bob" ["CN=OPS"])

/-- A mapping file that lists the first group of the circle. -/
def circleFile : String := "Admin: [CN=Staff]\n"

/-- A service for the circle whose depth is the number of its names. -/
def circleService : Service := ⟨.rehearsal, ⟨circle.toDirectory, [], true, ⟨2, 2⟩⟩⟩

private theorem ofContent_circleFile : Definitions.ofContent (some (Text.utf8 circleFile)) =
    .ok [⟨"Admin", ["CN=Staff"]⟩] := by
  apply Definitions.ofContent_of_lists
  decide +kernel

/-- In the circle, the account has the role of the listed group and is a member of it, although it
is a direct member of the other group only. -/
theorem membership_algorithms_agree_of_circle :
    circle.Built ∧ circleService.mapping.directory = circle.toDirectory ∧ circle.failing = [] ∧
      Definitions.ofContent (some (Text.utf8 circleFile)) = .ok [⟨"Admin", ["CN=Staff"]⟩] ∧
      circle.toDirectory.related.ncard ≤ 2 ∧ 2 ≤ Groups.permitLimit ∧ "bob" ≠ "" ∧
      Principal.stripRealm true "bob" = "bob" ∧
      ∃ snapshot user, circleService.mapping.Maps [⟨"Admin", ["CN=Staff"]⟩] snapshot ∧
        snapshot.principals.rows.lookup "bob" = none ∧
        snapshot.authenticate (.negotiated ⟨"bob", none, ["cn=ops"]⟩) = .ok user ∧
        "admin" ∈ user.roles.toList ∧
        (circleService.isMember "bob" "CN=Staff").Yields (.ok true) := by
  have built : circle.Built := (((Catalog.Built.empty.entry _).nested _ _).nested _ _).userGroups _ _
  have deep : circle.toDirectory.related.ncard ≤ 2 := circle.ncard_related_le.trans (by decide +kernel)
  have permitted : 2 ≤ Groups.permitLimit := by decide
  have stripped : Principal.stripRealm true "bob" = "bob" := by decide +kernel
  have clean : cleanIdentity "CN=Staff" = "CN=Staff" := by decide +kernel
  refine ⟨built, rfl, rfl, ofContent_circleFile, deep, permitted, by decide, stripped, ?_⟩
  obtain ⟨groups, direct, rebuilt, agree⟩ := membership_algorithms_agree circleService circle built
    rfl rfl _ _ ofContent_circleFile deep permitted "bob" (by decide) stripped
  have directGroups : circle.toDirectory.userGroups "bob" = .ok ["cn=ops"] := by rfl
  obtain rfl := Except.ok.inj (direct.symm.trans directGroups)
  obtain ⟨trace, snapshot, -, -, -, maps⟩ := rebuilt 0
  have unlisted : snapshot.principals.rows.lookup "bob" = none := by
    refine Settings.lookup_principals_eq_none rfl deep permitted maps ?_
    rintro definition defined identity listed ⟨entry, account, answer, user, -⟩
    obtain rfl := List.mem_singleton.mp defined
    obtain rfl := List.mem_singleton.mp listed
    rw [clean] at answer
    obtain rfl := Option.some.inj (Except.ok.inj answer)
    exact absurd user (by decide)
  obtain ⟨user, authenticated, -, roles⟩ := agree snapshot maps unlisted none
  have belongs : (circleService.isMember "bob" "CN=Staff").Yields (.ok true) := by
    rw [yields_isMember_iff rfl rfl stripped, Catalog.isMember_iff rfl]
    have nests : circle.toDirectory.Nests "cn=staff" "cn=ops" :=
      (Catalog.nests_iff_mem_children rfl (by decide)).mpr (by decide)
    exact ⟨"cn=ops", by decide, 1, Chain.root.deeper nests⟩
  refine ⟨snapshot, user, maps, unlisted, authenticated, ?_, belongs⟩
  rw [roles]
  refine ⟨_, List.mem_cons_self, by decide, "CN=Staff", List.mem_cons_self, ?_⟩
  rw [clean]
  exact ⟨by decide, ⟨_, rfl, by decide⟩, belongs⟩

end Service

end SpnegoRealm
