import SpnegoRealm.Proofs.Groups.Completion
import SpnegoRealm.Proofs.Mapping.Rebuild

/-! # Complete mappings

What a listed group gives can depend on the order in which the search below it goes on. A mapping of
some definitions is complete when every listing gave what it can give in some order of its search
(`SpnegoRealm.Mapping.Settings.Maps`). The rebuild of a file ends with a complete mapping
(`SpnegoRealm.Mapping.Settings.maps_rebuild`), and where all orders of the searches find the same
names there is no other one (`SpnegoRealm.Mapping.Settings.Maps.eq_rebuild`).
-/

namespace SpnegoRealm

namespace Mapping

namespace Settings

variable {settings : Settings} {listing : Listing} {identity : String} {nested : List String}
  {grants : List Grant} {definitions : Definitions} {snapshot : Snapshot}

/-- What some order of the search below an identity finds. -/
def Searched (settings : Settings) (identity : String) (nested : List String) : Prop :=
  ∃ first last, Groups.Run.launch settings.limits identity = .ok first ∧
    Groups.Run.Reaches settings.directory settings.limits.maxDepth first last ∧
      last.IsComplete ∧ nested = last.found identity

/-- What a listing gives without a search, unless it is a group. -/
def direct? (settings : Settings) (listing : Listing) : Option (List Grant) :=
  match settings.directory.objectAttributes listing.identity with
  | .ok (some entry) =>
    if entry.isGroup then none
    else
      match entry.userPrincipalName with
      | some account =>
        some [.principal (Principal.stripRealm settings.stripRealm account) listing.role]
      | none => some []
  | .ok none => some []
  | .error _ => some []

/-- A listing needs a search if and only if it is expanded. -/
theorem direct?_eq_none_iff : settings.direct? listing = none ↔ settings.Expands listing := by
  unfold direct? Expands
  cases settings.directory.objectAttributes listing.identity with
  | error fault => simp
  | ok object =>
      cases object with
      | none => simp
      | some entry =>
          by_cases group : entry.isGroup = true
          · simp [group]
          · cases principal : entry.userPrincipalName <;> simp [group, principal]

/-- Without a search, a listing gives its role to one principal or to nobody. -/
theorem of_direct?_eq_some (found : settings.direct? listing = some grants) :
    grants = [] ∨ ∃ name, grants = [.principal name listing.role] := by
  unfold direct? at found
  split at found
  next =>
    split at found
    next => cases found
    next =>
      split at found
      next => exact Or.inr ⟨_, (Option.some.inj found).symm⟩
      next => exact Or.inl (Option.some.inj found).symm
  next => exact Or.inl (Option.some.inj found).symm
  next => exact Or.inl (Option.some.inj found).symm

/-- What a listing can give. -/
inductive Gives (settings : Settings) (listing : Listing) : List Grant → Prop
  | direct {grants : List Grant} (found : settings.direct? listing = some grants) :
    Gives settings listing grants
  | group {nested : List String} (found : settings.direct? listing = none)
    (searched : settings.Searched listing.identity nested) :
    Gives settings listing ((listing.identity :: nested).map (Grant.group · listing.role))

/-- A listing and what it gave. -/
structure Part (settings : Settings) where
  listing : Listing
  grants : List Grant
  given : settings.Gives listing grants

/-- A snapshot holds what every listing of some definitions gave, in their order, and nothing else. -/
def Maps (settings : Settings) (definitions : Definitions) (snapshot : Snapshot) : Prop :=
  ∃ parts : List settings.Part, parts.map Part.listing = definitions.listings ∧
    snapshot = Snapshot.ofGrants (parts.flatMap Part.grants)

/-! ## The mapping of a rebuild -/

/-- What a listing gives by itself is what it gives without a search or, for a group, what it gives
to itself and its nested groups. -/
theorem grantsFor_eq (settings : Settings) (listing : Listing) :
    settings.grantsFor listing = (settings.direct? listing).getD
      ((listing.identity :: settings.nested listing.identity).map
        (Grant.group · listing.role)) := by
  unfold grantsFor direct?
  cases settings.directory.objectAttributes listing.identity with
  | error fault => rfl
  | ok object =>
      cases object with
      | none => rfl
      | some entry =>
          by_cases group : entry.isGroup = true
          · simp only [group, ↓reduceIte, Option.getD_none]
          · simp only [group, Bool.false_eq_true, ↓reduceIte]
            cases entry.userPrincipalName with
            | some account => rfl
            | none => rfl

/-- What a search by itself finds is what some order of that search finds. -/
theorem searched_nested (folds : settings.directory.FoldsCase)
    (permitted : settings.limits.maxWorkers ≤ Groups.permitLimit) (identity : String) :
    settings.Searched identity (settings.nested identity) := by
  obtain ⟨last, reaches, complete, same⟩ :=
    Groups.Run.exists_sequential folds settings.limits identity 0
  exact ⟨_, last, Groups.Run.launch_of_permitted permitted, reaches, complete, same.symm⟩

private theorem gives_grantsFor (folds : settings.directory.FoldsCase)
    (permitted : settings.limits.maxWorkers ≤ Groups.permitLimit) (listing : Listing) :
    settings.Gives listing (settings.grantsFor listing) := by
  rw [grantsFor_eq]
  cases found : settings.direct? listing with
  | some grants => exact .direct found
  | none => exact .group found (searched_nested folds permitted listing.identity)

/-- A rebuild ends with a complete mapping. -/
theorem maps_rebuild (folds : settings.directory.FoldsCase)
    (permitted : settings.limits.maxWorkers ≤ Groups.permitLimit) (definitions : Definitions) :
    settings.Maps definitions
      (Snapshot.ofGrants (definitions.listings.flatMap settings.grantsFor)) := by
  refine ⟨definitions.listings.map fun listing =>
    ⟨listing, settings.grantsFor listing, gives_grantsFor folds permitted listing⟩, ?_, ?_⟩
  · rw [List.map_map]
    exact List.map_id _
  · rw [List.flatMap_map]

/-! ## Searches whose order does not matter -/

/-- In every order, a search that is as deep as there are names below its identity finds them all. -/
theorem Searched.mem_names_iff (searched : settings.Searched identity nested)
    (folds : settings.directory.FoldsCase)
    (finite : (settings.directory.below (Text.lowercase identity)).Finite)
    (deep : (settings.directory.below (Text.lowercase identity)).ncard ≤ settings.limits.maxDepth)
    (name : String) : name ∈ nested.map Text.lowercase ↔
      name ∈ settings.directory.below (Text.lowercase identity) := by
  obtain ⟨first, last, launched, reaches, complete, rfl⟩ := searched
  obtain rfl := Groups.Run.eq_initial_of_launch launched
  have balanced := Groups.Run.Balanced.of_reaches reaches
  have charted := Groups.Run.Charted.of_reaches folds reaches
  rw [Groups.Run.mem_names_found_iff]
  constructor
  · rintro ⟨other, recorded⟩
    exact (charted.mem_insert_below balanced recorded).resolve_left other
  · intro below
    exact ⟨below.1, charted.mem_known_of_below finite balanced complete deep below⟩

/-- Every order of the search below an identity finds the same names. -/
def Decided (settings : Settings) (identity : String) : Prop :=
  ∀ nested, settings.Searched identity nested →
    ∀ name, name ∈ nested.map Text.lowercase ↔
      name ∈ (settings.nested identity).map Text.lowercase

/-- Below an identity with no more groups than the depth, every order finds the same. -/
theorem decided_of_deep (folds : settings.directory.FoldsCase)
    (finite : (settings.directory.below (Text.lowercase identity)).Finite)
    (deep : (settings.directory.below (Text.lowercase identity)).ncard ≤ settings.limits.maxDepth)
    (permitted : settings.limits.maxWorkers ≤ Groups.permitLimit) : settings.Decided identity := by
  intro nested searched name
  rw [searched.mem_names_iff folds finite deep,
    (searched_nested folds permitted identity).mem_names_iff folds finite deep]

/-- What grants to groups give to groups, each under its lowercased name. -/
theorem groupPairs_group (role : String) (dns : List String) :
    (dns.map (Grant.group · role)).filterMap Grant.groupPair? =
      dns.map fun dn => (Text.lowercase dn, role) := by
  rw [List.filterMap_map]
  exact congrFun List.filterMap_eq_map dns

/-- Grants to groups give nothing to principals. -/
theorem principalPairs_group (role : String) (dns : List String) :
    (dns.map (Grant.group · role)).filterMap Grant.principalPair? = [] := by
  rw [List.filterMap_map, List.filterMap_eq_nil_iff]
  exact fun _ _ => rfl

namespace Part

/-- What a listing gives to principals does not depend on the order of its search. -/
theorem principalPairs_eq (part : settings.Part) :
    part.grants.filterMap Grant.principalPair? =
      (settings.grantsFor part.listing).filterMap Grant.principalPair? := by
  obtain ⟨listing, grants, given⟩ := part
  rw [grantsFor_eq]
  cases given with
  | direct found => rw [found, Option.getD_some]
  | group found searched =>
      rw [found, Option.getD_none, principalPairs_group, principalPairs_group]

/-- What a decided listing gives to groups does not depend on the order of its search. -/
theorem mem_groupPairs_iff (part : settings.Part)
    (decided : settings.Decided part.listing.identity) (pair : String × String) :
    pair ∈ part.grants.filterMap Grant.groupPair? ↔
      pair ∈ (settings.grantsFor part.listing).filterMap Grant.groupPair? := by
  obtain ⟨listing, grants, given⟩ := part
  rw [grantsFor_eq]
  cases given with
  | direct found => rw [found, Option.getD_some]
  | @group nested found searched =>
      have same := decided nested searched pair.1
      rw [found, Option.getD_none, groupPairs_group, groupPairs_group]
      simp only [List.mem_map] at same
      simp only [List.map_cons, List.mem_cons, List.mem_map, Prod.ext_iff]
      constructor
      · rintro (own | ⟨dn, below, name, role⟩)
        · exact Or.inl own
        · obtain ⟨other, found, name'⟩ := same.mp ⟨dn, below, name⟩
          exact Or.inr ⟨other, found, name', role⟩
      · rintro (own | ⟨dn, below, name, role⟩)
        · exact Or.inl own
        · obtain ⟨other, found, name'⟩ := same.mpr ⟨dn, below, name⟩
          exact Or.inr ⟨other, found, name', role⟩

end Part

open Classical in
/-- If what listings gave are the same pairs as those of a rebuild, the tables are the same. -/
theorem ofPairs_parts {pair? : Grant → Option (String × String)}
    (own : ∀ listing name role, (name, role) ∈ (settings.grantsFor listing).filterMap pair? →
      role = listing.role)
    (alike : ∀ (part : settings.Part) (pair : String × String),
      pair ∈ part.grants.filterMap pair? ↔
        pair ∈ (settings.grantsFor part.listing).filterMap pair?)
    (parts : List settings.Part) :
    RoleTable.ofPairs ((parts.flatMap Part.grants).filterMap pair?) =
      RoleTable.ofPairs
        (((parts.map Part.listing).flatMap settings.grantsFor).filterMap pair?) := by
  refine RoleTable.ext_of_sorted (RoleTable.sorted_ofPairs _) (RoleTable.sorted_ofPairs _) ?_
  intro name
  have byPart (grants : settings.Part → List Grant) :
      RoleTable.granted name ((parts.flatMap grants).filterMap pair?) =
        parts.flatMap fun part => RoleTable.granted name ((grants part).filterMap pair?) := by
    unfold RoleTable.granted
    rw [List.filterMap_flatMap, List.filter_flatMap, List.map_flatMap]
  have given (part : settings.Part) (role : String) :
      (name, role) ∈ (settings.grantsFor part.listing).filterMap pair? ↔
        role = part.listing.role ∧
          (name, part.listing.role) ∈ (settings.grantsFor part.listing).filterMap pair? := by
    constructor
    · intro member
      obtain rfl := own part.listing name role member
      exact ⟨rfl, member⟩
    · rintro ⟨rfl, member⟩
      exact member
  have first := RoleTable.eraseDups_flatMap (fun (part : settings.Part) role =>
    RoleTable.mem_granted.trans ((alike part (name, role)).trans (given part role))) parts
  have second := RoleTable.eraseDups_flatMap (fun (part : settings.Part) role =>
    RoleTable.mem_granted.trans (given part role)) parts
  rw [RoleTable.lookup_ofPairs, RoleTable.lookup_ofPairs, List.flatMap_map, byPart, byPart,
    first, second]

/-- In every order of the searches the principals are those of a rebuild. -/
theorem Maps.principals_eq (maps : settings.Maps definitions snapshot) : snapshot.principals =
    (Snapshot.ofGrants (definitions.listings.flatMap settings.grantsFor)).principals := by
  obtain ⟨parts, listed, rfl⟩ := maps
  rw [← listed, Snapshot.principals_ofGrants, Snapshot.principals_ofGrants]
  apply ofPairs_parts
  · exact fun listing name role given =>
      ((settings.mem_principalPairs listing name role).mp given).1
  · exact fun part pair => by rw [part.principalPairs_eq]

/-- **Where the order of the searches does not matter, a complete mapping is that of a rebuild.** -/
theorem Maps.eq_rebuild (permitted : settings.limits.maxWorkers ≤ Groups.permitLimit)
    (decided : ∀ identity, settings.Decided identity) (maps : settings.Maps definitions snapshot) :
    snapshot = Snapshot.ofGrants (definitions.listings.flatMap settings.grantsFor) := by
  have principals := maps.principals_eq
  obtain ⟨parts, listed, rfl⟩ := maps
  rw [← listed] at principals ⊢
  have groups : (Snapshot.ofGrants (parts.flatMap Part.grants)).groups =
      (Snapshot.ofGrants ((parts.map Part.listing).flatMap settings.grantsFor)).groups := by
    rw [Snapshot.groups_ofGrants, Snapshot.groups_ofGrants]
    apply ofPairs_parts
    · exact fun listing name role given => ((mem_groupPairs permitted listing name role).mp given).1
    · exact fun part pair => part.mem_groupPairs_iff (decided _) pair
  exact congrArg₂ Snapshot.mk principals groups

end Settings

end Mapping

end SpnegoRealm
