import SpnegoRealm.Proofs.Groups.Failures
import SpnegoRealm.Proofs.Mapping.Roles

/-! # Mappings where questions fail

A rebuild survives every failure of its directory. A question that fails can only take grants away:
all that a listing gives where more questions fail, it gives where fewer do
(`SpnegoRealm.Mapping.Settings.Gives.pairs_subset`). And a listing gives the same wherever no
question fails that its own lookup and search could ask, whatever fails elsewhere
(`SpnegoRealm.Mapping.Settings.lookUp_failingAt`). Together this is
`SpnegoRealm.Mapping.Settings.failures_only_take_roles_away`.
-/

namespace SpnegoRealm

/-! ## Snapshots that give no more -/

/-- Everybody has at most the roles that another snapshot gives. -/
structure Snapshot.GivesNoMore (snapshot other : Snapshot) : Prop where
  principals : ∀ name, snapshot.principalRoles name ⊆ other.principalRoles name
  groups : ∀ name, snapshot.groupRoles name ⊆ other.groupRoles name

private theorem Snapshot.givesNoMore_ofGrants {grants others : List Grant}
    (principals : grants.filterMap Grant.principalPair? ⊆ others.filterMap Grant.principalPair?)
    (groups : grants.filterMap Grant.groupPair? ⊆ others.filterMap Grant.groupPair?) :
    (ofGrants grants).GivesNoMore (ofGrants others) where
  principals name role given := by
    rw [principalRoles, principals_ofGrants, RoleTable.mem_roles_ofPairs] at given ⊢
    exact principals given
  groups name role given := by
    rw [groupRoles, groups_ofGrants, RoleTable.mem_roles_ofPairs] at given ⊢
    exact groups given

/-- What follows a question can depend on the answer only. -/
theorem Activity.ask_bind {α β : Type} (request : Directory.Request) (answer : α)
    (next : α → Activity β) :
    Activity.ask request answer >>= next = Activity.ask request () >>= fun _ => next answer :=
  rfl

/-- No failing key is in the way of an identity: neither its own name nor, if it is a group, the name
of a group about which the search below it could ask. -/
structure Directory.Catalog.Untouched (catalog : Catalog) (maxDepth : ℕ) (keys : List String)
    (identity : String) : Prop where
  own : Text.lowercase identity ∉ keys
  near : ∀ entry, (catalog.failingAt []).toDirectory.objectAttributes identity = .ok (some entry) →
    entry.isGroup = true → ∀ name,
      (catalog.failingAt []).toDirectory.distance (Text.lowercase identity) name ≤
        (max maxDepth 1 - 1 : ℕ) → name ∉ keys

namespace Mapping.Settings

variable {settings : Settings} {catalog : Directory.Catalog} {keys more : List String}
  {listing : Listing} {grants : List Grant} {identity name : String} {nested : List String}
  {entry : Directory.Entry}

/-! ## Listings that are looked up alike -/

private theorem direct?_eq {other : Settings} (sameRealm : settings.stripRealm = other.stripRealm)
    (sameAnswer : settings.directory.objectAttributes listing.identity =
      other.directory.objectAttributes listing.identity) :
    settings.direct? listing = other.direct? listing := by
  unfold direct?
  rw [sameAnswer, sameRealm]

private theorem grantsOf_eq {other : Settings} (sameRealm : settings.stripRealm = other.stripRealm)
    (sameSearch : entry.isGroup = true →
      Groups.resolve settings.directory settings.limits listing.identity =
        Groups.resolve other.directory other.limits listing.identity) :
    settings.grantsOf listing entry = other.grantsOf listing entry := by
  unfold grantsOf
  rw [sameRealm]
  by_cases group : entry.isGroup = true
  · rw [if_pos group, if_pos group, sameSearch group]
  · rw [if_neg group, if_neg group]

/-- A listing is looked up alike wherever its identity and, if it is a group, the search below it
are answered alike. -/
theorem lookUp_eq {other : Settings} (sameRealm : settings.stripRealm = other.stripRealm)
    (sameAnswer : settings.directory.objectAttributes listing.identity =
      other.directory.objectAttributes listing.identity)
    (sameSearch : ∀ entry,
      settings.directory.objectAttributes listing.identity = .ok (some entry) →
        entry.isGroup = true →
          Groups.resolve settings.directory settings.limits listing.identity =
            Groups.resolve other.directory other.limits listing.identity) :
    settings.lookUp listing = other.lookUp listing := by
  unfold lookUp
  rw [← sameAnswer, Activity.ask_bind, Activity.ask_bind]
  cases answer : settings.directory.objectAttributes listing.identity with
  | error fault => rfl
  | ok object =>
      cases object with
      | none => rfl
      | some entry =>
          have same : settings.grantsOf listing entry = other.grantsOf listing entry :=
            grantsOf_eq sameRealm (sameSearch entry answer)
          exact congrArg (Activity.ask (.objectAttributes listing.identity) () >>= fun _ => ·) same

/-- A search that gets the same answers can find the same groups. -/
theorem Searched.of_agreeWithin {other : Settings} (folds : settings.directory.FoldsCase)
    (sameLimits : settings.limits = other.limits)
    (agree : settings.directory.AgreeWithin other.directory (Text.lowercase identity)
      (max settings.limits.maxDepth 1))
    (searched : settings.Searched identity nested) : other.Searched identity nested := by
  obtain ⟨first, last, launched, reaches, complete, rfl⟩ := searched
  obtain rfl := Groups.Run.eq_initial_of_launch launched
  refine ⟨_, last, sameLimits ▸ launched, ?_, complete, rfl⟩
  rw [← sameLimits]
  exact reaches.of_agreeWithin folds agree

/-- What a listing can give depends only on the answers about its identity and, if it is a group,
about the groups within the depth. -/
theorem Gives.of_agreeWithin {other : Settings} (folds : settings.directory.FoldsCase)
    (sameLimits : settings.limits = other.limits)
    (sameDirect : settings.direct? listing = other.direct? listing)
    (agree : settings.direct? listing = none →
      settings.directory.AgreeWithin other.directory (Text.lowercase listing.identity)
        (max settings.limits.maxDepth 1))
    (gives : settings.Gives listing grants) : other.Gives listing grants := by
  cases gives with
  | direct found => exact .direct (sameDirect ▸ found)
  | group found searched =>
      have searched' := searched.of_agreeWithin folds sameLimits (agree found)
      exact .group (sameDirect ▸ found) searched'

/-! ## Failing keys -/

/-- The same settings for a catalog where questions about some keys fail. -/
def failingAt (settings : Settings) (catalog : Directory.Catalog) (keys : List String) : Settings :=
  { settings with directory := (catalog.failingAt keys).toDirectory }

private theorem objectAttributes_failingAt (fewer : keys ⊆ more)
    (answers : Text.lowercase identity ∉ more) :
    (settings.failingAt catalog keys).directory.objectAttributes identity =
      (settings.failingAt catalog more).directory.objectAttributes identity := by
  have answers' : Text.lowercase identity ∉ keys := fun failing => answers (fewer failing)
  exact (Directory.Catalog.objectAttributes_failingAt answers').trans
    (Directory.Catalog.objectAttributes_failingAt answers).symm

/-- A listing whose own lookup fails gives nothing by itself; any other one gives the same. -/
theorem direct?_failingAt (fewer : keys ⊆ more) (settings : Settings) (listing : Listing) :
    (settings.failingAt catalog more).direct? listing = some [] ∨
      (settings.failingAt catalog more).direct? listing =
        (settings.failingAt catalog keys).direct? listing := by
  by_cases failing : Text.lowercase listing.identity ∈ more
  · refine Or.inl ?_
    cases answer : (settings.failingAt catalog more).directory.objectAttributes
      listing.identity with
    | error fault =>
        unfold direct?
        rw [answer]
    | ok object => exact (Directory.Catalog.not_mem_of_objectAttributes answer failing).elim
  · exact Or.inr (direct?_eq rfl (objectAttributes_failingAt fewer failing).symm)

/-- Where more questions fail, no order of a search finds a group that the search does not find where
fewer fail. -/
theorem Searched.subset_nested (fewer : keys ⊆ more)
    (searched : (settings.failingAt catalog more).Searched identity nested) :
    nested.map Text.lowercase ⊆
      ((settings.failingAt catalog keys).nested identity).map Text.lowercase := by
  obtain ⟨first, last, launched, reaches, -, rfl⟩ := searched
  obtain rfl := Groups.Run.eq_initial_of_launch launched
  have folds := (catalog.failingAt more).toDirectory_foldsCase
  intro name listed
  obtain ⟨other, recorded⟩ := (Groups.Run.mem_names_found_iff name).mp listed
  have near := (Groups.Run.Charted.of_reaches folds reaches).nearer
    (Groups.Run.Balanced.of_reaches reaches) recorded
  have covers : (catalog.failingAt keys).toDirectory.Covers (catalog.failingAt more).toDirectory :=
    Directory.Catalog.failingAt_covers fewer
  refine (Groups.mem_found_iff (catalog.failingAt keys).toDirectory_foldsCase name).mpr ?_
  exact ⟨other, covers.nearer near⟩

/-- Whatever a listing gives where more questions fail, it gives where fewer fail. -/
theorem Gives.pairs_subset (fewer : keys ⊆ more)
    (gives : (settings.failingAt catalog more).Gives listing grants) :
    grants.filterMap Grant.principalPair? ⊆
        ((settings.failingAt catalog keys).grantsFor listing).filterMap Grant.principalPair? ∧
      grants.filterMap Grant.groupPair? ⊆
        ((settings.failingAt catalog keys).grantsFor listing).filterMap Grant.groupPair? := by
  rw [grantsFor_eq]
  have own : (settings.failingAt catalog more).direct? listing = some [] ∨
      (settings.failingAt catalog more).direct? listing =
        (settings.failingAt catalog keys).direct? listing := direct?_failingAt fewer settings listing
  rcases own with nothing | same
  · cases gives with
    | direct found =>
        obtain rfl := Option.some.inj (found.symm.trans nothing)
        exact ⟨List.nil_subset _, List.nil_subset _⟩
    | group found searched => cases found.symm.trans nothing
  · rw [← same]
    cases gives with
    | direct found =>
        rw [found, Option.getD_some]
        exact ⟨List.Subset.refl _, List.Subset.refl _⟩
    | @group nested found searched =>
        rw [found, Option.getD_none, principalPairs_group, groupPairs_group, groupPairs_group]
        refine ⟨List.nil_subset _, ?_⟩
        have below : nested.map (fun dn => (Text.lowercase dn, listing.role)) ⊆
            ((settings.failingAt catalog keys).nested listing.identity).map
              fun dn => (Text.lowercase dn, listing.role) := by
          have names := List.map_subset (·, listing.role) (searched.subset_nested fewer)
          rwa [List.map_map, List.map_map] at names
        exact List.cons_subset_cons _ below

/-- In every order of the searches, more failures give nobody a role that fewer failures do not. -/
theorem Maps.givesNoMore (fewer : keys ⊆ more) {definitions : Definitions} {snapshot : Snapshot}
    (maps : (settings.failingAt catalog more).Maps definitions snapshot) :
    snapshot.GivesNoMore ((settings.failingAt catalog keys).mappingOf definitions) := by
  obtain ⟨parts, listed, rfl⟩ := maps
  have byListing (pair? : Grant → Option (String × String))
      (subset : ∀ part : (settings.failingAt catalog more).Part, part.grants.filterMap pair? ⊆
        ((settings.failingAt catalog keys).grantsFor part.listing).filterMap pair?) :
      (parts.flatMap Part.grants).filterMap pair? ⊆
        (definitions.listings.flatMap (settings.failingAt catalog keys).grantsFor).filterMap
          pair? := by
    rw [← listed, List.flatMap_map, List.filterMap_flatMap, List.filterMap_flatMap]
    intro pair given
    obtain ⟨part, isPart, given⟩ := List.mem_flatMap.mp given
    exact List.mem_flatMap.mpr ⟨part, isPart, subset part given⟩
  apply Snapshot.givesNoMore_ofGrants
  · exact byListing Grant.principalPair? fun part => (part.given.pairs_subset fewer).1
  · exact byListing Grant.groupPair? fun part => (part.given.pairs_subset fewer).2

private theorem yields_lookUp_failingAt (settings : Settings) (catalog : Directory.Catalog)
    (keys : List String) (permitted : settings.limits.maxWorkers ≤ Groups.permitLimit)
    (listing : Listing) : ((settings.failingAt catalog keys).lookUp listing).Yields
      ((settings.failingAt catalog keys).grantsFor listing) := by
  apply yields_lookUp
  exact permitted

/-! ## Identities that no failure touches -/

section Untouched

variable (untouched : catalog.Untouched settings.limits.maxDepth more listing.identity)

include untouched

private theorem agreeWithin_of_untouched (fewer : keys ⊆ more)
    (answer : (settings.failingAt catalog more).directory.objectAttributes listing.identity =
      .ok (some entry)) (group : entry.isGroup = true) :
    (settings.failingAt catalog keys).directory.AgreeWithin
        (settings.failingAt catalog more).directory (Text.lowercase listing.identity)
        (max settings.limits.maxDepth 1) ∧
      (settings.failingAt catalog more).directory.AgreeWithin
        (settings.failingAt catalog keys).directory (Text.lowercase listing.identity)
        (max settings.limits.maxDepth 1) := by
  refine Directory.Catalog.agreeWithin_failingAt fewer fun name near => ?_
  have unfailing : (settings.failingAt catalog []).directory.objectAttributes listing.identity =
      .ok (some entry) :=
    (objectAttributes_failingAt (List.nil_subset more) untouched.own).trans answer
  refine untouched.near entry unfailing group name (Directory.distance_le_iff.mpr ?_)
  rwa [Nat.sub_add_cancel (le_max_right _ _)]

/-- An identity that no failure touches is looked up with the same questions, answers and grants. -/
theorem lookUp_failingAt (fewer : keys ⊆ more) :
    (settings.failingAt catalog keys).lookUp listing =
      (settings.failingAt catalog more).lookUp listing := by
  have same : (settings.failingAt catalog keys).directory.objectAttributes listing.identity =
      (settings.failingAt catalog more).directory.objectAttributes listing.identity :=
    objectAttributes_failingAt fewer untouched.own
  refine lookUp_eq rfl same fun entry answer group => ?_
  have agree := (agreeWithin_of_untouched untouched fewer (same.symm.trans answer) group).1
  exact Groups.resolve_eq_of_agreeWithin (catalog.failingAt keys).toDirectory_foldsCase rfl agree

/-- An identity that no failure touches gives the same in a rebuild by itself. -/
theorem grantsFor_failingAt (fewer : keys ⊆ more)
    (permitted : settings.limits.maxWorkers ≤ Groups.permitLimit) :
    (settings.failingAt catalog keys).grantsFor listing =
      (settings.failingAt catalog more).grantsFor listing := by
  obtain ⟨trace, run, value⟩ := yields_lookUp_failingAt settings catalog keys permitted listing 0
  obtain ⟨trace', run', value'⟩ := yields_lookUp_failingAt settings catalog more permitted listing 0
  rw [lookUp_failingAt untouched fewer, run'] at run
  obtain rfl := Except.ok.inj run
  exact value.symm.trans value'

/-- An identity that no failure touches can give the same in the orders of its search. -/
theorem gives_failingAt (fewer : keys ⊆ more) :
    (settings.failingAt catalog keys).Gives listing grants ↔
      (settings.failingAt catalog more).Gives listing grants := by
  have sameDirect : (settings.failingAt catalog keys).direct? listing =
      (settings.failingAt catalog more).direct? listing :=
    direct?_eq rfl (objectAttributes_failingAt fewer untouched.own)
  have agree (found : (settings.failingAt catalog more).direct? listing = none) :=
    (direct?_eq_none_iff.mp found).elim fun entry isGroup =>
      agreeWithin_of_untouched untouched fewer isGroup.1 isGroup.2
  constructor
  · refine Gives.of_agreeWithin (catalog.failingAt keys).toDirectory_foldsCase rfl sameDirect ?_
    exact fun found => (agree (sameDirect.symm.trans found)).1
  · refine Gives.of_agreeWithin (catalog.failingAt more).toDirectory_foldsCase rfl
      sameDirect.symm ?_
    exact fun found => (agree found).2

end Untouched

/-- **Failures of a directory are contained, and only take roles away.** A mapping file that can be
read is rebuilt from a catalog where questions about some keys fail, and from the same catalog where
questions about more keys fail. Both rebuilds succeed and publish what their listings give; where
more questions fail, nobody has a role that is not published where fewer fail, in whatever order the
searches go on. An identity with no failing key in its way is looked up alike in both, with the same
events and the same grants, and can give the same in every order of its search. -/
theorem failures_only_take_roles_away (settings : Settings) (catalog : Directory.Catalog)
    (keys more : List String) (fewer : keys ⊆ more) (content : Option Bytes)
    (definitions : Definitions) (read : Definitions.ofContent content = .ok definitions)
    (permitted : settings.limits.maxWorkers ≤ Groups.permitLimit) (start later : Instant) :
    ∃ snapshot trace snapshot' trace',
      (settings.failingAt catalog keys).rebuild content start = .ok trace ∧
      trace.value = .ok snapshot ∧ (∀ current, published current trace.events = snapshot) ∧
      (settings.failingAt catalog more).rebuild content later = .ok trace' ∧
      trace'.value = .ok snapshot' ∧ (∀ current, published current trace'.events = snapshot') ∧
      snapshot = Snapshot.ofGrants
        (definitions.listings.flatMap (settings.failingAt catalog keys).grantsFor) ∧
      snapshot' = Snapshot.ofGrants
        (definitions.listings.flatMap (settings.failingAt catalog more).grantsFor) ∧
      snapshot'.GivesNoMore snapshot ∧
      (∀ other, (settings.failingAt catalog more).Maps definitions other →
        other.GivesNoMore snapshot) ∧
      ∀ listing, catalog.Untouched settings.limits.maxDepth more listing.identity →
        (settings.failingAt catalog keys).lookUp listing =
          (settings.failingAt catalog more).lookUp listing ∧
        ((settings.failingAt catalog keys).lookUp listing).Yields
          ((settings.failingAt catalog keys).grantsFor listing) ∧
        (settings.failingAt catalog keys).grantsFor listing =
          (settings.failingAt catalog more).grantsFor listing ∧
        ∀ grants, (settings.failingAt catalog keys).Gives listing grants ↔
          (settings.failingAt catalog more).Gives listing grants := by
  obtain ⟨finish, events, run⟩ := (settings.failingAt catalog keys).rebuild_eq read permitted start
  obtain ⟨finish', events', run'⟩ :=
    (settings.failingAt catalog more).rebuild_eq read permitted later
  have mapped : (settings.failingAt catalog more).Maps definitions
      (Snapshot.ofGrants
        (definitions.listings.flatMap (settings.failingAt catalog more).grantsFor)) := by
    apply maps_rebuild
    · exact (catalog.failingAt more).toDirectory_foldsCase
    · exact permitted
  refine ⟨_, _, _, _, run, rfl, ?current, run', rfl, ?current', rfl, rfl, ?less, ?orders, ?alike⟩
  case current => exact fun current => published_append_published current _ events finish
  case current' => exact fun current => published_append_published current _ events' finish'
  case less => exact mapped.givesNoMore fewer
  case orders => exact fun other maps => maps.givesNoMore fewer
  case alike =>
    intro listing untouched
    exact ⟨lookUp_failingAt untouched fewer,
      yields_lookUp_failingAt settings catalog keys permitted listing,
      grantsFor_failingAt untouched fewer permitted, fun grants => gives_failingAt untouched fewer⟩

/-- In the office the failure of a group is not in the way of a user that is listed beside it. -/
theorem untouched_office : office.Untouched 3 ["cn=f", "cn=a"] "CN=U" where
  own := by decide
  near entry answer group := by
    have user : (office.failingAt []).toDirectory.objectAttributes "CN=U" = .ok (some
      { distinguishedName := "CN=U"
        objectClass := ["top", "person", "organizationalPerson", "user"]
        userPrincipalName := some "u@REALM" }) := rfl
    obtain rfl := Option.some.inj (Except.ok.inj (user.symm.trans answer))
    exact absurd group (by decide)

/-- The office where its first group fails as well: no more roles are given, and the user is looked
up as before. -/
theorem failures_only_take_roles_away_in_office :
    ["cn=f"] ⊆ ["cn=f", "cn=a"] ∧
      Definitions.ofContent (some (Text.utf8 officeFile)) = .ok officeDefinitions ∧
      2 ≤ Groups.permitLimit ∧
      ∃ snapshot trace snapshot' trace',
        (failingAt ⟨office.toDirectory, [], true, ⟨3, 2⟩⟩ office ["cn=f"]).rebuild
          (some (Text.utf8 officeFile)) 0 = .ok trace ∧ trace.value = .ok snapshot ∧
        (failingAt ⟨office.toDirectory, [], true, ⟨3, 2⟩⟩ office ["cn=f", "cn=a"]).rebuild
          (some (Text.utf8 officeFile)) 7 = .ok trace' ∧ trace'.value = .ok snapshot' ∧
        snapshot'.GivesNoMore snapshot ∧
        (failingAt ⟨office.toDirectory, [], true, ⟨3, 2⟩⟩ office ["cn=f"]).lookUp
            ⟨"admin", "CN=U"⟩ =
          (failingAt ⟨office.toDirectory, [], true, ⟨3, 2⟩⟩ office ["cn=f", "cn=a"]).lookUp
            ⟨"admin", "CN=U"⟩ := by
  have fewer : ["cn=f"] ⊆ ["cn=f", "cn=a"] := List.subset_append_left ["cn=f"] ["cn=a"]
  have permitted : 2 ≤ Groups.permitLimit := by decide
  obtain ⟨snapshot, trace, snapshot', trace', run, value, -, run', value', -, -, -, less, -, alike⟩ :=
    failures_only_take_roles_away ⟨office.toDirectory, [], true, ⟨3, 2⟩⟩ office ["cn=f"]
      ["cn=f", "cn=a"] fewer _ _ ofContent_officeFile permitted 0 7
  exact ⟨fewer, ofContent_officeFile, permitted, snapshot, trace, snapshot', trace', run, value,
    run', value', less, (alike ⟨"admin", "CN=U"⟩ untouched_office).1⟩

end Mapping.Settings

end SpnegoRealm
