import SpnegoRealm.Ldap.Client
import SpnegoRealm.Proofs.Directory.Membership
import SpnegoRealm.Proofs.Except
import SpnegoRealm.Proofs.Mapping.Roles

/-! # Names that groups have their roles under

A listed group has its role under the name that the mapping file gives it, in any case of its letters
(`SpnegoRealm.Mapping.Settings.Loads.mem_groupRoles_of_listed`), and not under the name that the
directory gives it. Members of the group present that second name. They have the role if the two names
are the same up to the case of their letters, as they are in every catalog, or if another listing of
the role leads to the second name (`SpnegoRealm.Mapping.Settings.listed_groups_keep_their_spelling`).
A directory server finds objects under other spellings as well, for example with blanks after the
commas; such a spelling in a mapping file gives the role to nobody
(`SpnegoRealm.Mapping.Settings.spaced_group_gives_nothing`).
-/

namespace SpnegoRealm

/-! ## Catalogs -/

namespace Directory.Catalog

variable {catalog : Catalog} {entry : Entry} {dn : String}

private theorem Built.key_of_mem_entries (built : catalog.Built) :
    ∀ row ∈ catalog.entries, row.1 = Text.lowercase row.2.distinguishedName := by
  induction built with
  | empty =>
      intro row listed
      cases listed
  | entry _ entry ih =>
      intro row listed
      rcases List.mem_cons.mp listed with rfl | older
      · rfl
      · exact ih row older
  | nested _ _ _ ih => exact ih
  | userGroups _ _ _ ih => exact ih
  | failing _ _ ih => exact ih
  | latency _ _ ih => exact ih

/-- An object of a catalog is found under its own name, in any case of its letters. -/
theorem Built.lowercase_distinguishedName (built : catalog.Built)
    (found : catalog.toDirectory.objectAttributes dn = .ok (some entry)) :
    Text.lowercase entry.distinguishedName = Text.lowercase dn := by
  unfold toDirectory at found
  obtain ⟨_, -, answer⟩ := bind_eq_ok_iff.mp found
  obtain ⟨before, after, split, -⟩ := List.lookup_eq_some_iff.mp (Except.ok.inj answer)
  refine (built.key_of_mem_entries (Text.lowercase dn, entry) ?_).symm
  rw [split]
  exact List.mem_append_right _ List.mem_cons_self

end Directory.Catalog

namespace Mapping.Settings

variable {settings : Settings} {definitions : Definitions} {snapshot : Snapshot}
  {listing : Listing} {grants : List Grant} {name role : String}

/-! ## Names below a listed group -/

/-- A name is found below an identity, in a search by itself or in some order of it. -/
def Leads (settings : Settings) (identity name : String) : Prop :=
  ∃ nested, (nested = settings.nested identity ∨ settings.Searched identity nested) ∧
    name ∈ nested.map Text.lowercase

/-- A listing that comes to something for groups stands for a group, and comes to its role for that
group and for what was found below it. -/
theorem groupPairs_of_comesTo (comes : settings.ComesTo listing grants) :
    grants.filterMap Grant.groupPair? = [] ∧ ¬settings.Expands listing ∨
      settings.Expands listing ∧ ∃ nested,
        (nested = settings.nested listing.identity ∨ settings.Searched listing.identity nested) ∧
          grants.filterMap Grant.groupPair? =
            (listing.identity :: nested).map fun dn => (Text.lowercase dn, listing.role) := by
  have direct (found : settings.direct? listing = some grants) :
      grants.filterMap Grant.groupPair? = [] ∧ ¬settings.Expands listing := by
    constructor
    · obtain rfl | ⟨name, rfl⟩ := of_direct?_eq_some found
      · rfl
      · rfl
    · intro expands
      cases found.symm.trans (direct?_eq_none_iff.mpr expands)
  rcases comes with rfl | gives
  · rw [grantsFor_eq] at direct ⊢
    cases found : settings.direct? listing with
    | some grants =>
        rw [found, Option.getD_some] at direct
        exact Or.inl (direct rfl)
    | none =>
        refine Or.inr ⟨direct?_eq_none_iff.mp found, _, Or.inl rfl, ?_⟩
        rw [Option.getD_none, groupPairs_group]
  · cases gives with
    | direct found => exact Or.inl (direct found)
    | group found searched =>
        exact Or.inr ⟨direct?_eq_none_iff.mp found, _, Or.inr searched, groupPairs_group _ _⟩

/-- The names that a load gives a role are those that its parts give it. -/
theorem mem_groupRoles_ofGrants {parts : List (Listing × List Grant)} :
    role ∈ (Snapshot.ofGrants (parts.flatMap Prod.snd)).groupRoles name ↔
      ∃ part ∈ parts, (Text.lowercase name, role) ∈ part.2.filterMap Grant.groupPair? := by
  rw [Snapshot.groupRoles, Snapshot.groups_ofGrants, RoleTable.mem_roles_ofPairs,
    List.filterMap_flatMap, List.mem_flatMap]

/-- **A listed group has its role under the name that is listed, in any case of its letters.** -/
theorem Loads.mem_groupRoles_of_listed (loads : settings.Loads definitions snapshot)
    (listed : listing ∈ definitions.listings) (expands : settings.Expands listing)
    (same : Text.lowercase name = Text.lowercase listing.identity) :
    listing.role ∈ snapshot.groupRoles name := by
  obtain ⟨parts, listings, comes, rfl⟩ := loads.exists_parts
  rw [← listings] at listed
  obtain ⟨part, isPart, rfl⟩ := List.mem_map.mp listed
  refine mem_groupRoles_ofGrants.mpr ⟨part, isPart, ?_⟩
  rcases groupPairs_of_comesTo (comes part isPart) with ⟨-, plain⟩ | ⟨-, nested, -, pairs⟩
  · exact (plain expands).elim
  · rw [pairs, same]
    exact List.mem_cons_self

/-- A name has a role only if some listing of the role stands for a group that has this name, or below
which it is found. -/
theorem Loads.exists_listed_of_mem_groupRoles (loads : settings.Loads definitions snapshot)
    (given : role ∈ snapshot.groupRoles name) :
    ∃ listing ∈ definitions.listings, listing.role = role ∧ settings.Expands listing ∧
      (Text.lowercase name = Text.lowercase listing.identity ∨
        settings.Leads listing.identity (Text.lowercase name)) := by
  obtain ⟨parts, listings, comes, rfl⟩ := loads.exists_parts
  obtain ⟨part, isPart, granted⟩ := mem_groupRoles_ofGrants.mp given
  have listed : part.1 ∈ definitions.listings := listings ▸ List.mem_map_of_mem isPart
  rcases groupPairs_of_comesTo (comes part isPart) with
    ⟨none, -⟩ | ⟨expands, nested, found, pairs⟩
  · rw [none] at granted
    cases granted
  · rw [pairs, List.map_cons, List.mem_cons] at granted
    rcases granted with own | below
    · obtain ⟨same, role⟩ := Prod.mk.inj own
      exact ⟨part.1, listed, role.symm, expands, Or.inl same⟩
    · obtain ⟨dn, inNested, same⟩ := List.mem_map.mp below
      obtain ⟨lower, role⟩ := Prod.mk.inj same
      refine ⟨part.1, listed, role, expands, Or.inr ⟨nested, found, ?_⟩⟩
      rw [← lower]
      exact List.mem_map_of_mem inNested

/-! ## Names that members present -/

/-- **Listed groups keep their spelling.** In every load of a mapping file, a listed identity that
stands for a group has its role under that identity, in any case of its letters. Under the name that
the directory gives the group, it has the role only if a listing of the role stands for a group that
has this name up to the case of its letters, or below which this name is found. If the name is that of
the identity up to the case of its letters, as in every catalog, whoever has the group among its
direct groups has the role. -/
theorem listed_groups_keep_their_spelling (settings : Settings) (definitions : Definitions)
    (snapshot : Snapshot) (loads : settings.Loads definitions snapshot) (definition : Definition)
    (defined : definition ∈ definitions) (identity : String)
    (listed : identity ∈ definition.identities) (filled : cleanIdentity identity ≠ "")
    (entry : Directory.Entry)
    (found : settings.directory.objectAttributes (cleanIdentity identity) = .ok (some entry))
    (group : entry.isGroup = true) :
    let role := Text.lowercase definition.role
    (∀ name, Text.lowercase name = Text.lowercase (cleanIdentity identity) →
      role ∈ snapshot.groupRoles name) ∧
    (role ∈ snapshot.groupRoles entry.distinguishedName →
      ∃ other ∈ definitions, Text.lowercase other.role = role ∧
        ∃ spelling ∈ other.identities, cleanIdentity spelling ≠ "" ∧
          (∃ object, settings.directory.objectAttributes (cleanIdentity spelling) =
            .ok (some object) ∧ object.isGroup = true) ∧
          (Text.lowercase entry.distinguishedName = Text.lowercase (cleanIdentity spelling) ∨
            settings.Leads (cleanIdentity spelling) (Text.lowercase entry.distinguishedName))) ∧
    (Text.lowercase entry.distinguishedName = Text.lowercase (cleanIdentity identity) →
      ∀ known : Identity, known.principal ≠ "" →
        Text.lowercase entry.distinguishedName ∈ known.directGroups →
          ∃ user, snapshot.authenticate (.negotiated known) = .ok user ∧ role ∈ user.roles.toList) ∧
    ∀ catalog : Directory.Catalog, catalog.Built → settings.directory = catalog.toDirectory →
      Text.lowercase entry.distinguishedName = Text.lowercase (cleanIdentity identity) := by
  intro role
  have inListings : ⟨role, cleanIdentity identity⟩ ∈ definitions.listings :=
    List.mem_flatMap.mpr ⟨definition, defined,
      Definitions.mem_listings.mpr ⟨rfl, identity, listed, filled, rfl⟩⟩
  have own (name : String)
      (same : Text.lowercase name = Text.lowercase (cleanIdentity identity)) :
      role ∈ snapshot.groupRoles name :=
    loads.mem_groupRoles_of_listed inListings ⟨entry, found, group⟩ same
  refine ⟨own, ?named, ?known, ?catalogs⟩
  case named =>
    intro given
    obtain ⟨listing, inOthers, same, expands, leads⟩ := loads.exists_listed_of_mem_groupRoles given
    obtain ⟨other, isOther, part⟩ := List.mem_flatMap.mp inOthers
    obtain ⟨named, spelling, spelled, nonempty, clean⟩ := Definitions.mem_listings.mp part
    unfold Expands at expands
    rw [clean] at expands leads
    exact ⟨other, isOther, named.symm.trans same, spelling, spelled, nonempty, expands, leads⟩
  case known =>
    intro same known principal direct
    refine ⟨_, Snapshot.authenticate_eq_ok_iff.mpr ⟨principal, rfl⟩, ?_⟩
    refine (loads.namedBy.mem_rolesOf _ _ _).mpr (Or.inr ⟨_, direct, own _ ?_⟩)
    rw [Text.lowercase_lowercase, same]
  case catalogs =>
    intro catalog built holds
    rw [holds] at found
    exact built.lowercase_distinguishedName found

/-- Settings with a catalog of one group. -/
def hut : Settings :=
  ⟨(({} : Directory.Catalog).withGroup "CN=Ops").toDirectory, [], true, ⟨15, 50⟩⟩

private theorem ofContent_hutFile : Definitions.ofContent (some (Text.utf8 "Ops: ['cn=OPS']\n")) =
    .ok [⟨"Ops", ["cn=OPS"]⟩] := by
  apply Definitions.ofContent_of_lists
  decide +kernel

/-- In the hut, the file and the directory differ in case alone. -/
theorem listed_groups_keep_their_spelling_in_hut :
    ∃ snapshot entry user, hut.Loads [⟨"Ops", ["cn=OPS"]⟩] snapshot ∧
      hut.directory.objectAttributes (cleanIdentity "cn=OPS") = .ok (some entry) ∧
      entry.isGroup = true ∧ entry.distinguishedName = "CN=Ops" ∧
      "ops" ∈ snapshot.groupRoles "CN=Ops" ∧
      snapshot.authenticate (.negotiated ⟨"alice", none, ["cn=ops"]⟩) = .ok user ∧
      "ops" ∈ user.roles.toList := by
  have permitted : hut.limits.maxWorkers ≤ Groups.permitLimit := by decide
  have filled : cleanIdentity "cn=OPS" ≠ "" := by decide +kernel
  have same : Text.lowercase "CN=Ops" = Text.lowercase (cleanIdentity "cn=OPS") := by
    decide +kernel
  have lower : Text.lowercase "CN=Ops" = "cn=ops" := by decide +kernel
  have role : Text.lowercase "Ops" = "ops" := by decide +kernel
  have found : hut.directory.objectAttributes (cleanIdentity "cn=OPS") = .ok (some
      { distinguishedName := "CN=Ops"
        objectClass := ["top", "group"]
        objectSid := some Directory.Catalog.groupSid }) := by decide +kernel
  have loads := loads_mappingOf permitted ofContent_hutFile
  obtain ⟨own, -, known, -⟩ := listed_groups_keep_their_spelling hut _ _ loads _
    List.mem_cons_self "cn=OPS" List.mem_cons_self filled _ found (by decide)
  obtain ⟨user, answers, has⟩ := known same ⟨"alice", none, ["cn=ops"]⟩ (by decide)
    (lower ▸ List.mem_cons_self)
  exact ⟨_, _, user, loads, found, by decide, rfl, role ▸ own _ same, answers, role ▸ has⟩

/-! ## A spelling that the directory understands -/

/-- Nothing is found below a group without members. -/
theorem nested_of_leaf {identity : String}
    (leaf : settings.directory.memberGroups identity = .ok []) : settings.nested identity = [] := by
  have members (search : Groups.Search) (same : search.directory = settings.directory) :
      search.members identity = [] := by
    unfold Groups.Search.members
    rw [same, leaf]
    rfl
  unfold nested Groups.visitsFrom Groups.found
  simp [Groups.Search.visits, Groups.Search.visit, members, Groups.claim]

/-- A server with one group and one user. It finds the group also if a blank follows the comma. -/
def annexServer : Ldap.Server where
  refusal := none
  bind _ _ := some {}
  search search :=
    if search.base ∈ ["CN=Ops,DC=x", "CN=Ops, DC=x"] then
      some ([⟨"CN=Ops,DC=x", [("objectClass", [Text.utf8 "group"])]⟩], {})
    else if search.filter = Ldap.Filter.userAccount "alice" then
      some ([⟨"CN=Alice,DC=x", [("memberOf", [Text.utf8 "CN=Ops,DC=x"])]⟩], {})
    else some ([], {})

/-- Settings with a client of that server. -/
def annex : Settings := ⟨Ldap.Client.toDirectory ⟨{}, annexServer⟩, [], true, ⟨15, 50⟩⟩

private theorem ofContent_annexFile :
    Definitions.ofContent (some (Text.utf8 "Ops: ['CN=Ops, DC=x']\n")) =
      .ok [⟨"Ops", ["CN=Ops, DC=x"]⟩] := by
  apply Definitions.ofContent_of_lists
  decide +kernel

/-- A rebuild succeeds, and the directory finds the listed group. Its member has the group among its
direct groups, and no role. -/
theorem spaced_group_gives_nothing :
    ∃ trace snapshot entry,
      Definitions.ofContent (some (Text.utf8 "Ops: ['CN=Ops, DC=x']\n")) =
        .ok [⟨"Ops", ["CN=Ops, DC=x"]⟩] ∧
      annex.rebuild (some (Text.utf8 "Ops: ['CN=Ops, DC=x']\n")) 0 = .ok trace ∧
      trace.value = .ok snapshot ∧ cleanIdentity "CN=Ops, DC=x" ≠ "" ∧
      annex.directory.objectAttributes (cleanIdentity "CN=Ops, DC=x") = .ok (some entry) ∧
      entry.isGroup = true ∧ entry.distinguishedName = "CN=Ops,DC=x" ∧
      snapshot.groupRoles entry.distinguishedName = [] ∧
      snapshot.groupRoles "CN=Ops, DC=x" = ["ops"] ∧
      annex.directory.userGroups "alice" = .ok [Text.lowercase entry.distinguishedName] ∧
      snapshot.authenticate
          (.negotiated ⟨"alice", none, [Text.lowercase entry.distinguishedName]⟩) =
        .ok ⟨"alice", .empty⟩ := by
  have permitted : annex.limits.maxWorkers ≤ Groups.permitLimit := by decide
  have filled : cleanIdentity "CN=Ops, DC=x" ≠ "" := by decide +kernel
  have clean : cleanIdentity "CN=Ops, DC=x" = "CN=Ops, DC=x" := by decide +kernel
  have found : annex.directory.objectAttributes "CN=Ops, DC=x" = .ok (some
      { distinguishedName := "CN=Ops,DC=x", objectClass := ["group"] }) := by decide +kernel
  have leaf : annex.directory.memberGroups "CN=Ops, DC=x" = .ok [] := by decide +kernel
  have direct : annex.directory.userGroups "alice" = .ok ["cn=ops,dc=x"] := by decide +kernel
  have lower : Text.lowercase "CN=Ops,DC=x" = "cn=ops,dc=x" := by decide +kernel
  obtain ⟨trace, run, value⟩ :=
    yields_rebuild permitted (some (Text.utf8 "Ops: ['CN=Ops, DC=x']\n")) 0
  have listings : Definitions.listings [⟨"Ops", ["CN=Ops, DC=x"]⟩] =
      [⟨"ops", "CN=Ops, DC=x"⟩] := by decide +kernel
  have grants : annex.grantsFor ⟨"ops", "CN=Ops, DC=x"⟩ = [.group "CN=Ops, DC=x" "ops"] := by
    rw [grantsFor_of_group found (by decide), nested_of_leaf leaf]
    rfl
  have snapshot : annex.mappingOf [⟨"Ops", ["CN=Ops, DC=x"]⟩] =
      .ofGrants [.group "CN=Ops, DC=x" "ops"] := by
    rw [mappingOf, listings, List.flatMap_singleton, grants]
  have answers : annex.answer (some (Text.utf8 "Ops: ['CN=Ops, DC=x']\n")) =
      .ok (.ofGrants [.group "CN=Ops, DC=x" "ops"]) :=
    answer_eq_ok_iff.mpr ⟨_, ofContent_annexFile, snapshot.symm⟩
  refine ⟨trace, _, _, ofContent_annexFile, run, value.trans answers, filled, clean ▸ found, ?_, rfl,
    ?_, ?_, ?_, ?_⟩
  · decide
  · decide +kernel
  · decide +kernel
  · rw [lower]
    exact direct
  · decide +kernel

end Mapping.Settings

end SpnegoRealm
