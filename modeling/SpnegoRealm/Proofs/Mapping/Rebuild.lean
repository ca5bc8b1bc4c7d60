import SpnegoRealm.Mapping.Rebuild
import SpnegoRealm.Proofs.Groups.BreadthFirst
import SpnegoRealm.Proofs.Mapping.Snapshot
import SpnegoRealm.Proofs.Time.Yields

/-! # What a rebuild publishes

An identity of a mapping file gives the role that it is listed under to groups
(`SpnegoRealm.Mapping.Settings.GivesGroup`) or to a principal
(`SpnegoRealm.Mapping.Settings.GivesPrincipal`), or to nobody. A rebuild publishes exactly the roles
that are given: each name has the roles that list an identity for it, in the order of the raw role
names (`SpnegoRealm.Mapping.rebuild_publishes_given_roles`).
-/

namespace SpnegoRealm.Mapping

/-! ## The order of definitions -/

namespace Definitions

private theorem roles_lastOfEach_subset (definitions : Definitions) :
    (lastOfEach definitions).map Definition.role ⊆ definitions.map Definition.role := by
  induction definitions with
  | nil => exact List.Subset.refl _
  | cons definition rest ih =>
      unfold lastOfEach
      split
      next => exact List.subset_cons_of_subset _ ih
      next => exact List.cons_subset_cons _ ih

private theorem nodup_roles_lastOfEach (definitions : Definitions) :
    ((lastOfEach definitions).map Definition.role).Nodup := by
  induction definitions with
  | nil => exact List.nodup_nil
  | cons definition rest ih =>
      unfold lastOfEach
      split
      next => exact ih
      next unique =>
        refine List.nodup_cons.mpr ⟨fun repeated => unique ?_, ih⟩
        obtain ⟨other, listed, same⟩ := List.mem_map.mp (roles_lastOfEach_subset rest repeated)
        exact List.any_eq_true.mpr ⟨other, listed, beq_iff_eq.mpr same⟩

/-- The definitions in the order of the file, those of a repeated role as often as they stand
there. -/
def listed? (text : String) : Option Definitions :=
  ((Yaml.Lenient.read? text).bind Yaml.Lenient.entries?).bind (·.mapM definition?)

private theorem ofText?_of_not_blank {text : String} (filled : Text.isBlankText text = false) :
    ofText? text = (listed? text).map fun listed =>
      (lastOfEach listed).mergeSort fun first second => decide (first.role ≤ second.role) := by
  unfold ofText? listed?
  rw [filled, if_neg Bool.false_ne_true, Option.map_bind, Option.bind_assoc]
  refine congrArg _ (funext fun node => congrArg _ (funext fun entries => ?_))
  exact Option.map_eq_bind.symm

/-- A text lists some roles, each once and in the order of the role names. -/
def Lists (text : String) (definitions : Definitions) : Prop :=
  Text.ofUtf8? (Text.utf8 text) = some text ∧ Text.isBlankText text = false ∧
    listed? text = some definitions ∧ lastOfEach definitions = definitions ∧
    definitions.Pairwise fun first second => decide (first.role ≤ second.role) = true

instance (text : String) (definitions : Definitions) : Decidable (Lists text definitions) :=
  inferInstanceAs (Decidable (_ ∧ _ ∧ _ ∧ _ ∧ _))

/-- A file that lists each role once, in the order of the role names, is read as it is. -/
theorem ofContent_of_lists {text : String} {definitions : Definitions}
    (lists : Lists text definitions) : ofContent (some (Text.utf8 text)) = .ok definitions := by
  obtain ⟨encoded, filled, listed, last, sorted⟩ := lists
  have read : ofText? text = some definitions := by
    rw [ofText?_of_not_blank filled, listed, Option.map_some, last,
      List.mergeSort_of_pairwise sorted]
  simp only [ofContent, encoded, read]

/-- A mapping file is read into definitions in strictly increasing order of the role names. -/
theorem sorted_ofText? {text : String} {definitions : Definitions}
    (read : ofText? text = some definitions) :
    definitions.Pairwise fun first second => first.role < second.role := by
  by_cases blank : Text.isBlankText text = true
  · unfold ofText? at read
    rw [if_pos blank] at read
    obtain rfl := Option.some.inj read
    exact .nil
  · rw [ofText?_of_not_blank (Bool.eq_false_iff.mpr blank)] at read
    obtain ⟨listed, _, rfl⟩ := Option.map_eq_some_iff.mp read
    have ordered : ((lastOfEach listed).mergeSort fun first second =>
        decide (first.role ≤ second.role)).Pairwise fun first second =>
          first.role ≤ second.role :=
      List.pairwise_mergeSort' (Order.Preimage Definition.role (· ≤ ·)) _
    have distinct : ((lastOfEach listed).mergeSort fun first second =>
        decide (first.role ≤ second.role)).Pairwise fun first second =>
          first.role ≠ second.role := by
      refine List.pairwise_map.mp ?_
      exact ((List.mergeSort_perm _ _).map Definition.role).nodup_iff.mpr
        (nodup_roles_lastOfEach listed)
    refine (ordered.and distinct).imp ?_
    rintro first second ⟨atMost, different⟩
    exact lt_of_le_of_ne atMost different

/-- The definitions of a file stand in the strict byte order of their roles. -/
theorem sorted_ofContent {content : Option Bytes} {definitions : Definitions}
    (read : ofContent content = .ok definitions) :
    definitions.Pairwise fun first second => first.role < second.role := by
  unfold ofContent at read
  split at read
  next => cases read
  next =>
    split at read
    next => cases read
    next =>
      split at read
      next => cases read
      next _ found =>
        obtain rfl := Except.ok.inj read
        exact sorted_ofText? found

end Definitions

/-! ## What identities give -/

namespace Settings

variable {settings : Settings} {listing : Listing} {identity name : String}

/-- An identity stands for a group, and a name is its lowercased form or that of a group below. -/
def GivesGroup (settings : Settings) (identity name : String) : Prop :=
  ∃ entry, settings.directory.objectAttributes identity = .ok (some entry) ∧
    entry.isGroup = true ∧
      (name = Text.lowercase identity ∨ ∃ start trace,
        Groups.resolve settings.directory settings.limits identity start = .ok trace ∧
          name ∈ trace.value.map Text.lowercase)

/-- An identity stands for a user, and a name is the user's principal. -/
def GivesPrincipal (settings : Settings) (identity name : String) : Prop :=
  ∃ entry account, settings.directory.objectAttributes identity = .ok (some entry) ∧
    entry.isGroup = false ∧ entry.userPrincipalName = some account ∧
      name = Principal.stripRealm settings.stripRealm account

/-- The groups that a search below an identity finds. -/
def nested (settings : Settings) (identity : String) : List String :=
  Groups.found (Groups.visitsFrom settings.directory settings.limits identity 0)

/-- A search that is allowed more workers than there can be permits does not take place. -/
theorem yieldsUnless_resolve (settings : Settings) (identity : String) :
    (Groups.resolve settings.directory settings.limits identity).YieldsUnless
      (Groups.permitLimit < settings.limits.maxWorkers) .tooManyWorkers
      (settings.nested identity) := by
  constructor
  case stops => exact fun excessive start => if_neg (Nat.not_le.mpr excessive)
  case yields =>
    intro permitted start
    exact ⟨_, Groups.resolve_of_permitted (Nat.not_lt.mp permitted),
      Groups.found_visitsFrom_eq rfl rfl identity start 0⟩

private theorem yields_resolve (permitted : settings.limits.maxWorkers ≤ Groups.permitLimit)
    (identity : String) :
    (Groups.resolve settings.directory settings.limits identity).Yields
      (settings.nested identity) :=
  (settings.yieldsUnless_resolve identity).yields (Nat.not_lt.mpr permitted)

/-- The grants of a listing. -/
def grantsFor (settings : Settings) (listing : Listing) : List Grant :=
  match settings.directory.objectAttributes listing.identity with
  | .ok (some entry) =>
    if entry.isGroup then
      (listing.identity :: settings.nested listing.identity).map (Grant.group · listing.role)
    else
      match entry.userPrincipalName with
      | some account =>
        [.principal (Principal.stripRealm settings.stripRealm account) listing.role]
      | none => []
  | .ok none => []
  | .error _ => []

/-- A listed identity stands for a group, so a rebuild searches below it. -/
def Expands (settings : Settings) (listing : Listing) : Prop :=
  ∃ entry, settings.directory.objectAttributes listing.identity = .ok (some entry) ∧
    entry.isGroup = true

/-- A rebuild searches below a listed identity with more workers than there can be permits. -/
def Oversteps (settings : Settings) (listing : Listing) : Prop :=
  Groups.permitLimit < settings.limits.maxWorkers ∧ settings.Expands listing

/-- Looking up a listing comes to its grants, unless its search asks for too many permits. -/
theorem yieldsUnless_lookUp (settings : Settings) (listing : Listing) :
    (settings.lookUp listing).YieldsUnless (settings.Oversteps listing) .tooManyWorkers
      (settings.grantsFor listing) := by
  refine (Activity.yields_ask _ _).bind_yieldsUnless ?_
  have safe {run : Activity (List Grant)} {grants : List Grant} (yields : run.Yields grants)
      (plain : ¬settings.Expands listing) :
      run.YieldsUnless (settings.Oversteps listing) .tooManyWorkers grants :=
    yields.yieldsUnless (fun oversteps => plain oversteps.2) _
  unfold grantsFor
  cases answer : settings.directory.objectAttributes listing.identity with
  | error fault =>
      refine safe ((Activity.yields_warn _).bind (Timed.yields_pure _)) ?_
      simp [Expands, answer]
  | ok object =>
      cases object with
      | none =>
          refine safe ((Activity.yields_warn _).bind (Timed.yields_pure _)) ?_
          simp [Expands, answer]
      | some entry =>
          by_cases group : entry.isGroup = true
          · simp only [grantsOf, group, ↓reduceIte]
            refine Timed.YieldsUnless.of_iff ?_
              ((settings.yieldsUnless_resolve listing.identity).bind_yields (Timed.yields_pure _))
            exact and_iff_left ⟨entry, answer, group⟩
          · have plain : ¬settings.Expands listing := by simp [Expands, answer, group]
            simp only [grantsOf, group, Bool.false_eq_true, ↓reduceIte]
            cases entry.userPrincipalName with
            | some account => exact safe (Timed.yields_pure _) plain
            | none => exact safe ((Activity.yields_warn _).bind (Timed.yields_pure _)) plain

/-- Where there are permits for all workers, looking up a listing comes to its grants. -/
theorem yields_lookUp (permitted : settings.limits.maxWorkers ≤ Groups.permitLimit)
    (listing : Listing) : (settings.lookUp listing).Yields (settings.grantsFor listing) :=
  (settings.yieldsUnless_lookUp listing).yields fun oversteps =>
    Nat.not_lt.mpr permitted oversteps.1

/-- Looking up listings one after the other comes to the grants of all in their order, unless the
search of one asks for too many permits. -/
theorem yieldsUnless_lookUpAll (settings : Settings) (listings : List Listing) :
    (settings.lookUpAll listings).YieldsUnless (∃ listing ∈ listings, settings.Oversteps listing)
      .tooManyWorkers (listings.flatMap settings.grantsFor) := by
  induction listings with
  | nil => exact (Timed.yields_pure _).yieldsUnless (by simp) _
  | cons listing rest ih =>
      refine Timed.YieldsUnless.of_iff (List.exists_mem_cons_iff _ _ _)
        ((settings.yieldsUnless_lookUp listing).bind (ih.bind_yields (Timed.yields_pure _)))

private theorem yields_lookUpAll (permitted : settings.limits.maxWorkers ≤ Groups.permitLimit)
    (listings : List Listing) :
    (settings.lookUpAll listings).Yields (listings.flatMap settings.grantsFor) := by
  refine (settings.yieldsUnless_lookUpAll listings).yields ?_
  rintro ⟨_, _, oversteps⟩
  exact Nat.not_lt.mpr permitted oversteps.1

/-- A rebuild of a file that can be read publishes the snapshot of all grants at its end. -/
theorem rebuild_eq {content : Option Bytes} {definitions : Definitions}
    (read : Definitions.ofContent content = .ok definitions)
    (permitted : settings.limits.maxWorkers ≤ Groups.permitLimit) (start : Instant) :
    ∃ finish events, settings.rebuild content start = .ok {
      value := .ok (Snapshot.ofGrants (definitions.listings.flatMap settings.grantsFor))
      finish := finish
      events := events ++ [(finish, .published
        (Snapshot.ofGrants (definitions.listings.flatMap settings.grantsFor)))] } := by
  obtain ⟨trace, run, value⟩ := yields_lookUpAll permitted definitions.listings start
  refine ⟨trace.finish, trace.events, ?_⟩
  unfold rebuild
  rw [read, ← value]
  exact Timed.bind_eq_ok run rfl

/-- A name is nested below an identity if and only if some search by itself answers it. -/
theorem mem_nested (permitted : settings.limits.maxWorkers ≤ Groups.permitLimit) :
    name ∈ (settings.nested identity).map Text.lowercase ↔ ∃ start trace,
      Groups.resolve settings.directory settings.limits identity start = .ok trace ∧
        name ∈ trace.value.map Text.lowercase := by
  constructor
  · intro member
    obtain ⟨trace, run, value⟩ := yields_resolve permitted identity 0
    exact ⟨0, trace, run, value ▸ member⟩
  · rintro ⟨start, trace, run, member⟩
    obtain ⟨other, run', value⟩ := yields_resolve permitted identity start
    obtain rfl := Except.ok.inj (run.symm.trans run')
    exact value ▸ member

/-- A listed group gives its role to itself, as it is spelled in the file, and to its nested
groups. -/
theorem grantsFor_of_group {entry : Directory.Entry}
    (answer : settings.directory.objectAttributes listing.identity = .ok (some entry))
    (group : entry.isGroup = true) : settings.grantsFor listing =
      (listing.identity :: settings.nested listing.identity).map (Grant.group · listing.role) := by
  unfold grantsFor
  rw [answer]
  exact if_pos group

/-- A listing grants its role to the groups that its identity gives it to. -/
theorem mem_groupPairs (permitted : settings.limits.maxWorkers ≤ Groups.permitLimit)
    (listing : Listing) (name role : String) :
    (name, role) ∈ (settings.grantsFor listing).filterMap Grant.groupPair? ↔
      role = listing.role ∧ settings.GivesGroup listing.identity name := by
  rw [List.mem_filterMap]
  constructor
  · rintro ⟨grant, granted, pair⟩
    unfold grantsFor at granted
    split at granted
    next entry answer =>
      split at granted
      next group =>
        obtain ⟨dn, listed, rfl⟩ := List.mem_map.mp granted
        obtain ⟨rfl, rfl⟩ := Prod.mk.inj (Option.some.inj pair)
        refine ⟨rfl, entry, answer, group, ?_⟩
        rcases List.mem_cons.mp listed with rfl | below
        · exact Or.inl rfl
        · exact Or.inr ((mem_nested permitted).mp (List.mem_map_of_mem below))
      next =>
        split at granted
        next =>
          obtain rfl := List.mem_singleton.mp granted
          cases pair
        next => cases granted
    next => cases granted
    next => cases granted
  · rintro ⟨rfl, entry, answer, group, given⟩
    rw [grantsFor_of_group answer group]
    rcases given with rfl | below
    · exact ⟨_, List.mem_map_of_mem List.mem_cons_self, rfl⟩
    · obtain ⟨dn, listed, rfl⟩ := List.mem_map.mp ((mem_nested permitted).mpr below)
      exact ⟨_, List.mem_map_of_mem (List.mem_cons_of_mem _ listed), rfl⟩

/-- A listing gives a role to a principal if and only if the role is its own and its identity gives
it to that principal. -/
theorem mem_principalPairs (settings : Settings) (listing : Listing) (name role : String) :
    (name, role) ∈ (settings.grantsFor listing).filterMap Grant.principalPair? ↔
      role = listing.role ∧ settings.GivesPrincipal listing.identity name := by
  rw [List.mem_filterMap]
  constructor
  · rintro ⟨grant, granted, pair⟩
    unfold grantsFor at granted
    split at granted
    next entry answer =>
      split at granted
      next =>
        obtain ⟨dn, _, rfl⟩ := List.mem_map.mp granted
        cases pair
      next user =>
        split at granted
        next account found =>
          obtain rfl := List.mem_singleton.mp granted
          obtain ⟨rfl, rfl⟩ := Prod.mk.inj (Option.some.inj pair)
          exact ⟨rfl, entry, account, answer, Bool.eq_false_iff.mpr user, found, rfl⟩
        next => cases granted
    next => cases granted
    next => cases granted
  · rintro ⟨rfl, entry, account, answer, user, found, rfl⟩
    refine ⟨.principal _ listing.role, ?_, rfl⟩
    unfold grantsFor
    rw [answer]
    simp only [user, found, Bool.false_eq_true, ↓reduceIte, List.mem_singleton]

end Settings

/-! ## What definitions give -/

namespace Definitions

open Classical in
/-- The lowercased names of the roles under which an identity is listed that gives something, each
once, in the order of the definitions. -/
noncomputable def rolesGiving (definitions : Definitions) (gives : String → Prop) : List String :=
  ((definitions.filter fun definition => ∃ identity ∈ definition.identities,
    cleanIdentity identity ≠ "" ∧ gives (cleanIdentity identity)).map fun definition =>
      Text.lowercase definition.role).eraseDups

/-- A role is given if and only if a definition of it lists an identity that is not empty and gives
it. -/
theorem mem_rolesGiving {definitions : Definitions} {gives : String → Prop} {role : String} :
    role ∈ definitions.rolesGiving gives ↔ ∃ definition ∈ definitions,
      (∃ identity ∈ definition.identities,
        cleanIdentity identity ≠ "" ∧ gives (cleanIdentity identity)) ∧
      role = Text.lowercase definition.role := by
  simp only [rolesGiving, List.mem_eraseDups, List.mem_map, List.mem_filter, decide_eq_true_eq]
  constructor
  · rintro ⟨definition, ⟨listed, given⟩, rfl⟩
    exact ⟨definition, listed, given, rfl⟩
  · rintro ⟨definition, listed, given, rfl⟩
    exact ⟨definition, ⟨listed, given⟩, rfl⟩

/-- A definition lists its cleaned identities that are not empty, under its lowercased role. -/
theorem mem_listings {definition : Definition} {listing : Listing} :
    listing ∈ definition.listings ↔ listing.role = Text.lowercase definition.role ∧
      ∃ identity ∈ definition.identities,
        cleanIdentity identity ≠ "" ∧ listing.identity = cleanIdentity identity := by
  simp only [Definition.listings, List.mem_map, List.mem_filter, bne_iff_ne]
  constructor
  · rintro ⟨_, ⟨⟨identity, listed, rfl⟩, filled⟩, rfl⟩
    exact ⟨rfl, identity, listed, filled, rfl⟩
  · rintro ⟨role, identity, listed, filled, same⟩
    exact ⟨_, ⟨⟨identity, listed, rfl⟩, filled⟩, by rw [← role, ← same]⟩

/-- If each listing grants its role to the names that its identity gives it to, each name is granted
the roles that give it something. -/
theorem eraseDups_granted {grantsFor : Listing → List Grant}
    {pair? : Grant → Option (String × String)} {gives : String → String → Prop}
    (exact : ∀ listing name role, (name, role) ∈ (grantsFor listing).filterMap pair? ↔
      role = listing.role ∧ gives listing.identity name)
    (definitions : Definitions) (name : String) :
    (RoleTable.granted name ((definitions.listings.flatMap grantsFor).filterMap pair?)).eraseDups =
      definitions.rolesGiving (gives · name) := by
  classical
  have parts : RoleTable.granted name ((definitions.listings.flatMap grantsFor).filterMap pair?) =
      definitions.flatMap fun definition =>
        RoleTable.granted name ((definition.listings.flatMap grantsFor).filterMap pair?) := by
    unfold RoleTable.granted listings
    rw [List.flatMap_assoc, List.filterMap_flatMap, List.filter_flatMap, List.map_flatMap]
  rw [parts]
  unfold rolesGiving
  refine RoleTable.eraseDups_flatMap (fun definition other => ?_) definitions
  simp only [RoleTable.granted, List.mem_map, List.mem_filter, decide_eq_true_eq]
  constructor
  · rintro ⟨⟨_, role⟩, ⟨member, rfl⟩, rfl⟩
    rw [List.filterMap_flatMap] at member
    obtain ⟨listing, listed, granted⟩ := List.mem_flatMap.mp member
    obtain ⟨rfl, given⟩ := (exact listing _ role).mp granted
    obtain ⟨role, identity, inDefinition, filled, same⟩ := mem_listings.mp listed
    exact ⟨role, identity, inDefinition, filled, same ▸ given⟩
  · rintro ⟨rfl, identity, listed, filled, given⟩
    refine ⟨(name, _), ⟨?_, rfl⟩, rfl⟩
    rw [List.filterMap_flatMap]
    refine List.mem_flatMap.mpr ⟨⟨Text.lowercase definition.role, cleanIdentity identity⟩, ?_, ?_⟩
    · exact mem_listings.mpr ⟨rfl, identity, listed, filled, rfl⟩
    · exact (exact _ name _).mpr ⟨rfl, given⟩

end Definitions

/-- A publication that comes last is the snapshot that stays. -/
theorem published_append_published (current snapshot : Snapshot) (events : List (Instant × Event))
    (instant : Instant) : published current (events ++ [(instant, .published snapshot)]) = snapshot := by
  unfold published
  rw [List.foldl_append]
  rfl

/-- **A rebuild publishes exactly the roles that are given.** The rebuild of a mapping file that can
be read succeeds with a snapshot that is current from then on, whatever was current before. The
definitions are in the order of the bytes of their role names. In the snapshot a group has the
lowercased names of the roles that list an identity for it, each once and in the order of the
definitions, and so has a principal; a name is in its table if there is such a role. -/
theorem rebuild_publishes_given_roles (settings : Settings) (content : Option Bytes)
    (definitions : Definitions) (read : Definitions.ofContent content = .ok definitions)
    (permitted : settings.limits.maxWorkers ≤ Groups.permitLimit) (start : Instant) :
    ∃ snapshot trace, settings.rebuild content start = .ok trace ∧ trace.value = .ok snapshot ∧
      (∀ current, published current trace.events = snapshot) ∧
      definitions.Pairwise (fun first second => Text.utf8 first.role < Text.utf8 second.role) ∧
      (snapshot.groups.rows.map Prod.fst).Pairwise (· < ·) ∧
      (∀ name, snapshot.groups.rows.lookup name =
        RoleTable.present (definitions.rolesGiving (settings.GivesGroup · name))) ∧
      (snapshot.principals.rows.map Prod.fst).Pairwise (· < ·) ∧
      ∀ name, snapshot.principals.rows.lookup name =
        RoleTable.present (definitions.rolesGiving (settings.GivesPrincipal · name)) := by
  obtain ⟨finish, events, run⟩ := settings.rebuild_eq read permitted start
  refine ⟨_, _, run, rfl, ?current, ?ordered, ?groupOrder, ?groups, ?principalOrder, ?principals⟩
  case current =>
    intro current
    exact published_append_published current _ events finish
  case ordered =>
    exact (Definitions.sorted_ofContent read).imp fun before => Text.utf8_lt_utf8_iff.mpr before
  case groupOrder =>
    rw [Snapshot.groups_ofGrants]
    exact RoleTable.sorted_ofPairs _
  case groups =>
    intro name
    rw [Snapshot.groups_ofGrants, RoleTable.lookup_ofPairs,
      Definitions.eraseDups_granted (Settings.mem_groupPairs permitted)]
  case principalOrder =>
    rw [Snapshot.principals_ofGrants]
    exact RoleTable.sorted_ofPairs _
  case principals =>
    intro name
    rw [Snapshot.principals_ofGrants, RoleTable.lookup_ofPairs,
      Definitions.eraseDups_granted settings.mem_principalPairs]

/-- A user and a group with a group below it, and a name that cannot be asked about. -/
def office : Directory.Catalog :=
  ((({ failing := ["cn=f"] } : Directory.Catalog).withGroup "CN=A").withNested "CN=A"
    ["CN=B"]).withUser "CN=U" "u@REALM"

/-- Two spellings of a role, quotes, an identity that is not in the directory and one whose lookup
fails. -/
def officeFile : String := "Admin: ['CN=A']\nadmin: [CN=U, CN=A, CN=Z, CN=F]\n"

/-- The definitions of that file, with the spellings of the role as they stand there. -/
def officeDefinitions : Definitions :=
  [⟨"Admin", ["CN=A"]⟩, ⟨"admin", ["CN=U", "CN=A", "CN=Z", "CN=F"]⟩]

/-- What a load reads in that file. -/
theorem ofContent_officeFile :
    Definitions.ofContent (some (Text.utf8 officeFile)) = .ok officeDefinitions := by
  apply Definitions.ofContent_of_lists
  decide +kernel

/-- The office with a depth of three and two workers: its first group and its user get the role,
whose two spellings are one. -/
theorem rebuild_publishes_given_roles_of_office :
    Definitions.ofContent (some (Text.utf8 officeFile)) = .ok officeDefinitions ∧
      2 ≤ Groups.permitLimit ∧
      ∃ snapshot trace,
        Settings.rebuild ⟨office.toDirectory, [], true, ⟨3, 2⟩⟩ (some (Text.utf8 officeFile)) 0 =
          .ok trace ∧
        trace.value = .ok snapshot ∧ (∀ current, published current trace.events = snapshot) ∧
        "admin" ∈ snapshot.groups.roles "cn=a" ∧ "admin" ∈ snapshot.principals.roles "u" := by
  have permitted : 2 ≤ Groups.permitLimit := by decide
  obtain ⟨snapshot, trace, run, value, current, -, -, groups, -, principals⟩ :=
    rebuild_publishes_given_roles ⟨office.toDirectory, [], true, ⟨3, 2⟩⟩ _ _ ofContent_officeFile
      permitted 0
  refine ⟨ofContent_officeFile, permitted, snapshot, trace, run, value, current, ?_, ?_⟩
  · have clean : cleanIdentity "CN=A" = "CN=A" := by decide +kernel
    rw [RoleTable.roles, groups, RoleTable.getD_present, Definitions.mem_rolesGiving]
    refine ⟨⟨"Admin", ["CN=A"]⟩, List.mem_cons_self, ⟨"CN=A", List.mem_cons_self, ?_, ?_⟩, ?_⟩
    · decide +kernel
    · rw [clean]
      exact ⟨_, rfl, by decide, Or.inl (by decide)⟩
    · decide
  · have clean : cleanIdentity "CN=U" = "CN=U" := by decide +kernel
    rw [RoleTable.roles, principals, RoleTable.getD_present, Definitions.mem_rolesGiving]
    refine ⟨_, List.mem_cons_of_mem _ List.mem_cons_self, ⟨"CN=U", List.mem_cons_self, ?_, ?_⟩, ?_⟩
    · decide +kernel
    · rw [clean]
      exact ⟨_, "u@REALM", rfl, by decide, rfl, by decide +kernel⟩
    · decide

end SpnegoRealm.Mapping
