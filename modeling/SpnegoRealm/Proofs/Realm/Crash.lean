import SpnegoRealm.Proofs.Negotiation.Gate
import SpnegoRealm.Proofs.Realm.Start

/-! # What brings a realm down

A search for nested groups does not take place with more workers than there can be permits; it stops
the run that it is part of, and nothing else stops a run. The check of a configuration wants at least
one worker and sets no upper bound. So a realm with too many workers comes down as soon as its mapping
file lists a group, and no other realm does (`SpnegoRealm.Realm.comes_down_iff_too_many_workers`).
-/

namespace SpnegoRealm

open Mapping

namespace Service

variable (service : Service)

private theorem exists_yields_negotiate (header : Option String) :
    ∃ answer, (service.negotiate header).Yields answer := by
  obtain ⟨answer, yields⟩ := Negotiation.exists_yields_negotiate service.engine header
  exact ⟨_, yields.bind (Timed.yields_pure _)⟩

private theorem exists_yields_isMember (principal group : String) :
    ∃ answer, (service.isMember principal group).Yields answer :=
  ⟨_, (Activity.yields_ask _ _).bind (Timed.yields_pure _)⟩

end Service

/-- Only a credential without a principal is refused. -/
theorem Snapshot.exists_authenticate_error_iff {snapshot : Snapshot} {credential : Credential} :
    (∃ fault, snapshot.authenticate credential = .error fault) ↔
      ∃ identity, credential = .negotiated identity ∧ identity.principal = "" := by
  cases credential with
  | liveness => simp [authenticate]
  | negotiated identity =>
      by_cases nameless : identity.principal = ""
      · simp [authenticate, nameless]
      · simp [authenticate, nameless]

namespace Mapping.Settings

/-- A mapping file makes a load overstep if it lists a group under some spelling. -/
theorem overstepsWith_iff {settings : Settings} {content : Option Bytes} :
    settings.OverstepsWith content ↔ Groups.permitLimit < settings.limits.maxWorkers ∧
      ∃ definitions, Definitions.ofContent content = .ok definitions ∧
        ∃ definition ∈ definitions, ∃ identity ∈ definition.identities,
          cleanIdentity identity ≠ "" ∧ ∃ entry, settings.directory.objectAttributes
            (cleanIdentity identity) = .ok (some entry) ∧ entry.isGroup = true := by
  constructor
  · rintro ⟨definitions, reads, listing, listed, excessive, entry, found, group⟩
    obtain ⟨definition, defined, part⟩ := List.mem_flatMap.mp listed
    obtain ⟨-, identity, named, filled, same⟩ := Definitions.mem_listings.mp part
    rw [same] at found
    exact ⟨excessive, definitions, reads, definition, defined, identity, named, filled, entry,
      found, group⟩
  · rintro ⟨excessive, definitions, reads, definition, defined, identity, named, filled, entry,
      found, group⟩
    have part : ⟨Text.lowercase definition.role, cleanIdentity identity⟩ ∈ definition.listings :=
      Definitions.mem_listings.mpr ⟨rfl, identity, named, filled, rfl⟩
    exact ⟨definitions, reads, _, List.mem_flatMap.mpr ⟨definition, defined, part⟩, excessive,
      entry, found, group⟩

end Mapping.Settings

namespace Realm

/-- **A realm comes down by too many workers, and by nothing else.** A start, a rebuild and a refresh
are stopped if they search below a group that the mapping file lists, with more workers than there can
be permits; otherwise each comes to its answer. A start gets as far as that if its configuration is
accepted and something can judge tokens. Negotiations and questions for memberships always come to an
answer, and only a credential without a principal is refused. -/
theorem comes_down_iff_too_many_workers (config : Config) (access : Config.FileAccess)
    (source : DirectorySource) (mechanism : Option Mechanism) (content : Option Bytes) :
    let settings := mappingSettings config (source.directory config.ldap)
    (Realm.start config access source mechanism content).YieldsUnless
        (config.validate access = .ok () ∧
          (config.mockMode = true ∨ ∃ supplied, mechanism = some supplied) ∧
          settings.OverstepsWith content)
        .tooManyWorkers (outcome config access source mechanism content) ∧
      (∀ file, (settings.rebuild file).YieldsUnless (settings.OverstepsWith file) .tooManyWorkers
        (settings.answer file)) ∧
      (∀ file, (settings.refresh file).YieldsUnless (settings.OverstepsWith file) .tooManyWorkers
        ()) ∧
      (∀ file, settings.OverstepsWith file ↔ Groups.permitLimit < config.maxNestedGroupWorkers ∧
        ∃ definitions, Definitions.ofContent file = .ok definitions ∧
          ∃ definition ∈ definitions, ∃ identity ∈ definition.identities,
            cleanIdentity identity ≠ "" ∧ ∃ entry,
              (source.directory config.ldap).objectAttributes (cleanIdentity identity) =
                .ok (some entry) ∧ entry.isGroup = true) ∧
      (∀ mode,
        (∀ header, ∃ answer, (Service.negotiate ⟨mode, settings⟩ header).Yields answer) ∧
        (∀ header, ∃ answer, (Service.negotiateForClient ⟨mode, settings⟩ header).Yields answer) ∧
        ∀ principal group, ∃ answer,
          (Service.isMember ⟨mode, settings⟩ principal group).Yields answer) ∧
      ∀ (snapshot : Snapshot) (credential : Credential),
        (∃ fault, snapshot.authenticate credential = .error fault) ↔
          ∃ identity, credential = .negotiated identity ∧ identity.principal = "" := by
  intro settings
  refine ⟨?start, settings.yieldsUnless_rebuild, settings.yieldsUnless_refresh, ?oversteps,
    ?answers, fun _ _ => Snapshot.exists_authenticate_error_iff⟩
  case start => exact yieldsUnless_start config access source mechanism content
  case oversteps => exact fun file => Settings.overstepsWith_iff
  case answers =>
    intro mode
    refine ⟨Service.exists_yields_negotiate _, ?_, Service.exists_yields_isMember _⟩
    intro header
    obtain ⟨answer, yields⟩ := Negotiation.exists_yields_negotiateForClient ⟨mode, settings⟩ header
    exact ⟨_, yields⟩

/-- A configuration with more workers than there can be permits. -/
def crowded : Config := { mockMode := true, maxNestedGroupWorkers := 2 ^ 61 }

/-- A directory whose only object is a group. -/
def club : Directory := (({} : Directory.Catalog).withGroup "CN=A").toDirectory

/-- The configuration is accepted. Its first search brings the realm down, in the start, in a rebuild
and in a refresh. -/
theorem crowded_comes_down :
    crowded.validate (fun _ => .ok ()) = .ok () ∧
      Realm.start crowded (fun _ => .ok ()) (.supplied club) none
        (some (Text.utf8 "ops: [CN=A]\n")) 0 = .error .tooManyWorkers ∧
      (mappingSettings crowded club).rebuild (some (Text.utf8 "ops: [CN=A]\n")) 0 =
        .error .tooManyWorkers ∧
      (mappingSettings crowded club).refresh (some (Text.utf8 "ops: [CN=A]\n")) 0 =
        .error .tooManyWorkers := by
  have accepted : crowded.validate (fun _ => .ok ()) = .ok () := by decide +kernel
  have reads : Definitions.ofContent (some (Text.utf8 "ops: [CN=A]\n")) =
      .ok [⟨"ops", ["CN=A"]⟩] := by
    apply Definitions.ofContent_of_lists
    decide +kernel
  have oversteps : (mappingSettings crowded club).OverstepsWith
      (some (Text.utf8 "ops: [CN=A]\n")) := by
    refine Settings.overstepsWith_iff.mpr ⟨by decide, _, reads, _, List.mem_cons_self, "CN=A",
      List.mem_cons_self, by decide +kernel, ?_⟩
    have clean : cleanIdentity "CN=A" = "CN=A" := by decide +kernel
    rw [clean]
    exact ⟨_, rfl, rfl⟩
  refine ⟨accepted, ?_, ?_, ?_⟩
  · exact (yieldsUnless_start _ _ (.supplied club) none _).stops
      ⟨accepted, Or.inl rfl, oversteps⟩ 0
  · exact (Settings.yieldsUnless_rebuild _ _).stops oversteps 0
  · exact (Settings.yieldsUnless_refresh _ _).stops oversteps 0

end Realm

end SpnegoRealm
