import SpnegoRealm.Proofs.Mapping.Roles
import SpnegoRealm.Proofs.Negotiation.Gate
import SpnegoRealm.Proofs.Principal
import SpnegoRealm.Proofs.Realm.Start

/-! # One name for a principal

The name of a principal passes through a realm twice: a context tells it when the principal
authenticates, and the directory tells it when a load looks up a user that the mapping file lists. A
realm strips both in the same way, so the roles that wait under a user's account are found by whoever
authenticates under that account, and by nobody else
(`SpnegoRealm.Realm.negotiated_names_meet_mapped_names`).

Identities that clean to the empty text are never looked up. So the directory cannot give anything to a
principal through such an identity, not even if it knows an object with the empty name
(`SpnegoRealm.Realm.empty_identity_is_owed_nothing`).
-/

namespace SpnegoRealm

open Mapping Negotiation

private theorem Service.yields_negotiate (acceptor : Mechanism) (mapping : Settings)
    (header : Option String) :
    (Service.negotiate ⟨.acceptor acceptor, mapping⟩ header).Yields
      ((answerOf acceptor mapping.stripRealm mapping.directory header).mapError .negotiation) :=
  (Negotiation.yields_negotiate acceptor mapping.stripRealm mapping.directory header).bind
    (Timed.yields_pure _)

/-- Whom a service authenticates, a context named in answer to the token of the request. -/
theorem Service.exists_name_of_authenticated {acceptor : Mechanism} {mapping : Settings}
    {header : Option String} {instant : Instant} {round : Trace Event (Except RealmError Outcome)}
    {identity : Identity}
    (run : Service.negotiate ⟨.acceptor acceptor, mapping⟩ header instant = .ok round)
    (authenticated : round.value = .ok (.authenticated identity)) :
    ∃ text token context out name, header = some text ∧ decodeHeader text = .ok token ∧
      acceptor.openContext = .ok context ∧
      context.accept token = .ok (.established out (.ok (some name))) ∧ name ≠ "" ∧
      identity.principal = Principal.stripRealm mapping.stripRealm name := by
  rw [(Service.yields_negotiate acceptor mapping header).tells instant round run] at authenticated
  cases answered : answerOf acceptor mapping.stripRealm mapping.directory header with
  | error fault =>
      rw [answered] at authenticated
      cases authenticated
  | ok outcome =>
      rw [answered] at authenticated
      obtain rfl : outcome = .authenticated identity := Except.ok.inj authenticated
      obtain ⟨text, name, out, presented, decided, rfl⟩ := answerOf_eq_authenticated_iff.mp answered
      obtain ⟨token, context, decoded, opened, told, filled⟩ :=
        decision_eq_established_iff.mp decided
      exact ⟨text, token, context, out, name, presented, decoded, opened, told, filled, rfl⟩

namespace Realm

/-- **Negotiation and mapping name principals alike.** Let a realm be started outside of the rehearsal
mode. Its first snapshot is the empty one or a load of its mapping file. Whoever it authenticates has a
principal that is not empty: the name that a context told, stripped as configured. With any load, that
principal is authenticated under the same name, and has the roles of its own entry and of its direct
groups. To its own entry it owes exactly the lowercased names of the roles that list an identity, not
empty when cleaned, under which the directory knows a user whose account name is stripped to the same
principal. If realms are stripped, names that do not start with an at sign are stripped to the same
principal if and only if they agree before their first at signs; otherwise only equal names are. -/
theorem negotiated_names_meet_mapped_names (config : Config) (access : Config.FileAccess)
    (source : DirectorySource) (mechanism : Option Mechanism) (content : Option Bytes)
    (start : Instant) (trace : Trace Event (Except StartError (Service × Snapshot)))
    (service : Service) (first : Snapshot) (earnest : config.mockMode = false)
    (run : Realm.start config access source mechanism content start = .ok trace)
    (started : trace.value = .ok (service, first)) :
    (first = .empty ∨ ∃ definitions, Definitions.ofContent content = .ok definitions ∧
      service.mapping.Loads definitions first) ∧
    (∀ header instant round identity, service.negotiate header instant = .ok round →
      round.value = .ok (.authenticated identity) →
      ∃ acceptor text token context out name, mechanism = some acceptor ∧ header = some text ∧
        decodeHeader text = .ok token ∧ acceptor.openContext = .ok context ∧
        context.accept token = .ok (.established out (.ok (some name))) ∧
        identity.principal = Principal.stripRealm config.stripRealm name ∧
        identity.principal ≠ "" ∧
        ∀ definitions snapshot, service.mapping.Loads definitions snapshot →
          ∃ user, snapshot.authenticate (.negotiated identity) = .ok user ∧
            user.principal = identity.principal ∧
            (∀ role, role ∈ user.roles.toList ↔ role ∈ snapshot.principalRoles user.principal ∨
              ∃ group ∈ identity.directGroups, role ∈ snapshot.groupRoles group) ∧
            ∀ role, role ∈ snapshot.principalRoles user.principal ↔
              ∃ definition ∈ definitions, (∃ listed ∈ definition.identities,
                cleanIdentity listed ≠ "" ∧ ∃ entry account,
                  (source.directory config.ldap).objectAttributes (cleanIdentity listed) =
                    .ok (some entry) ∧
                  entry.isGroup = false ∧ entry.userPrincipalName = some account ∧
                  Principal.stripRealm config.stripRealm account =
                    Principal.stripRealm config.stripRealm name) ∧
              role = Text.lowercase definition.role) ∧
    (config.stripRealm = true → ∀ account name : String, account.toList.head? ≠ some '@' →
      name.toList.head? ≠ some '@' →
        (Principal.stripRealm config.stripRealm account =
            Principal.stripRealm config.stripRealm name ↔
          Principal.beforeAt account = Principal.beforeAt name)) ∧
    (config.stripRealm = false → ∀ account name : String,
      Principal.stripRealm config.stripRealm account =
        Principal.stripRealm config.stripRealm name ↔ account = name) := by
  obtain ⟨mode, instant, loaded, judges, rfl, loads, rfl⟩ := of_start run started
  refine ⟨?first, ?rounds, ?stripped, ?whole⟩
  case first =>
    cases answered : loaded.value with
    | error fault => exact Or.inl rfl
    | ok snapshot =>
        have told := answered
        rw [Settings.tells_rebuild _ content instant loaded loads] at told
        obtain ⟨definitions, reads, -⟩ := Settings.answer_eq_ok_iff.mp told
        exact Or.inr ⟨definitions, reads, Or.inl ⟨content, instant, loaded, reads, loads, answered⟩⟩
  case rounds =>
    intro header instant round identity negotiates authenticated
    unfold judging at judges
    rw [earnest] at judges
    obtain ⟨acceptor, supplied, rfl⟩ := Option.map_eq_some_iff.mp judges
    obtain ⟨text, token, context, out, name, presented, decoded, opened, told, filled, principal⟩ :=
      Service.exists_name_of_authenticated negotiates authenticated
    have named : identity.principal ≠ "" :=
      principal ▸ Principal.stripRealm_ne_empty config.stripRealm filled
    refine ⟨acceptor, text, token, context, out, name, supplied, presented, decoded, opened, told,
      principal, named, fun definitions snapshot loads => ⟨_, if_neg named, rfl, ?_, ?_⟩⟩
    · exact fun role => loads.namedBy.mem_rolesOf identity.principal role identity.directGroups
    · intro role
      rw [loads.mem_principalRoles, principal]
      simp only [Settings.GivesPrincipal, mappingSettings,
        eq_comm (a := Principal.stripRealm config.stripRealm name)]
  case stripped =>
    intro strips account name plain plain'
    rw [strips]
    exact Principal.stripRealm_eq_iff plain plain'
  case whole =>
    intro keeps account name
    rw [keeps]
    rfl

/-! ## A realm with one user -/

/-- A configuration that leaves everything but the acceptor at its default. -/
def lobby : Config :=
  { acceptorPrincipal := some "HTTP/web", acceptorKeytabPath := some (Text.utf8 "keytab") }

/-- A mechanism whose contexts take any token for that of one peer. -/
def doorman : Mechanism :=
  .answering (.ok (.established none (.ok (some "alice@EXAMPLE.COM")))) false

/-- A directory whose only object is the account of that peer. -/
def register (dn : String) : Directory :=
  (({} : Directory.Catalog).withUser dn "alice@EXAMPLE.COM").toDirectory

private theorem answerOf_doorman (dn : String) :
    answerOf doorman true (register dn) (some "Negotiate dGlja2V0") =
      .ok (.authenticated ⟨"alice", none, []⟩) := by
  have decoded : decodeHeader "Negotiate dGlja2V0" = .ok (Text.utf8 "ticket") := by decide +kernel
  have stripped : Principal.stripRealm true "alice@EXAMPLE.COM" = "alice" := by decide +kernel
  refine answerOf_eq_authenticated_iff.mpr ⟨_, "alice@EXAMPLE.COM", none, rfl, ?_, ?_⟩
  · exact decision_eq_established_iff.mpr ⟨_, _, decoded, rfl, rfl, by decide⟩
  · rw [stripped]
    rfl

/-- The realm with this user starts, maps its file and authenticates the peer. -/
theorem exists_lobby (dn : String) {content : Bytes} {definitions : Definitions}
    (reads : Definitions.ofContent (some content) = .ok definitions) :
    let settings := mappingSettings lobby (register dn)
    ∃ trace service round,
      Realm.start lobby (fun _ => .ok ()) (.supplied (register dn)) (some doorman) (some content) 0 =
        .ok trace ∧
      trace.value = .ok (service, settings.mappingOf definitions) ∧
      service.mapping.Loads definitions (settings.mappingOf definitions) ∧
      service.negotiate (some "Negotiate dGlja2V0") 0 = .ok round ∧
      round.value = .ok (.authenticated ⟨"alice", none, []⟩) := by
  intro settings
  have accepted : lobby.validate (fun _ => .ok ()) = .ok () := by decide +kernel
  have permitted : lobby.maxNestedGroupWorkers ≤ Groups.permitLimit := by decide
  have judges : judging lobby (some doorman) = some (.acceptor doorman) := rfl
  have answers : settings.answer (some content) = .ok (settings.mappingOf definitions) :=
    Settings.answer_eq_ok_iff.mpr ⟨definitions, reads, rfl⟩
  obtain ⟨trace, run, value⟩ :=
    yields_start accepted judges permitted (.supplied (register dn)) (some content) 0
  obtain ⟨round, negotiates, answered⟩ :=
    Service.yields_negotiate doorman settings (some "Negotiate dGlja2V0") 0
  have first : firstSnapshot (settings.answer (some content)) = settings.mappingOf definitions :=
    congrArg firstSnapshot answers
  refine ⟨trace, _, round, run, value.trans ?_, ?_, negotiates, answered.trans ?_⟩
  · exact congrArg (fun snapshot => Except.ok (_, snapshot)) first
  · exact Settings.loads_mappingOf permitted reads
  · exact congrArg (Except.mapError RealmError.negotiation) (answerOf_doorman dn)

/-- What a load reads in a file that lists the account. -/
theorem ofContent_listed :
    Definitions.ofContent (some (Text.utf8 "Ops: [CN=U]\n")) = .ok [⟨"Ops", ["CN=U"]⟩] := by
  apply Definitions.ofContent_of_lists
  decide +kernel

/-- The peer is authenticated under the name to which the mapping file gave a role. -/
theorem negotiated_names_meet_mapped_names_of_alice :
    lobby.mockMode = false ∧ ∃ trace service first round identity user,
      Realm.start lobby (fun _ => .ok ()) (.supplied (register "CN=U")) (some doorman)
        (some (Text.utf8 "Ops: [CN=U]\n")) 0 = .ok trace ∧
      trace.value = .ok (service, first) ∧
      service.negotiate (some "Negotiate dGlja2V0") 0 = .ok round ∧
      round.value = .ok (.authenticated identity) ∧
      first.authenticate (.negotiated identity) = .ok user ∧ user.principal = "alice" ∧
      "ops" ∈ user.roles.toList := by
  obtain ⟨trace, service, round, run, value, loads, negotiates, authenticated⟩ :=
    exists_lobby "CN=U" ofContent_listed
  obtain ⟨-, rounds, -, -⟩ :=
    negotiated_names_meet_mapped_names lobby _ _ _ _ _ _ _ _ rfl run value
  obtain ⟨_, _, _, context, _, name, supplied, -, -, opened, told, -, -, known⟩ :=
    rounds _ _ _ _ negotiates authenticated
  obtain ⟨user, answers, named, has, owes⟩ := known _ _ loads
  refine ⟨rfl, trace, service, _, round, _, user, run, value, negotiates, authenticated, answers,
    named, ?_⟩
  obtain rfl := Option.some.inj supplied
  obtain rfl := Except.ok.inj opened
  obtain ⟨-, told⟩ := Acceptance.established.inj (Except.ok.inj told)
  obtain rfl := Option.some.inj (Except.ok.inj told)
  have clean : cleanIdentity "CN=U" = "CN=U" := by decide +kernel
  refine (has "ops").mpr (Or.inl ((owes "ops").mpr ⟨_, List.mem_cons_self, ?_, by decide +kernel⟩))
  refine ⟨"CN=U", List.mem_cons_self, by decide +kernel, ?_⟩
  rw [clean]
  exact ⟨_, "alice@EXAMPLE.COM", rfl, by decide, rfl, rfl⟩

private theorem ofContent_unnamed :
    Definitions.ofContent (some (Text.utf8 "Admin: ['']\n")) = .ok [⟨"Admin", [""]⟩] := by
  apply Definitions.ofContent_of_lists
  decide +kernel

/-- The directory knows the account of the peer under the empty name, and the mapping file lists the
empty identity. The peer is authenticated and has no role. -/
theorem empty_identity_is_owed_nothing :
    lobby.mockMode = false ∧ ∃ trace service first round identity entry,
      Realm.start lobby (fun _ => .ok ()) (.supplied (register "")) (some doorman)
        (some (Text.utf8 "Admin: ['']\n")) 0 = .ok trace ∧
      trace.value = .ok (service, first) ∧
      Definitions.ofContent (some (Text.utf8 "Admin: ['']\n")) = .ok [⟨"Admin", [""]⟩] ∧
      service.mapping.Loads [⟨"Admin", [""]⟩] first ∧
      service.negotiate (some "Negotiate dGlja2V0") 0 = .ok round ∧
      round.value = .ok (.authenticated identity) ∧
      (register "").objectAttributes (cleanIdentity "") = .ok (some entry) ∧
      entry.isGroup = false ∧ entry.userPrincipalName = some "alice@EXAMPLE.COM" ∧
      Principal.stripRealm lobby.stripRealm "alice@EXAMPLE.COM" = identity.principal ∧
      first.principalRoles identity.principal = [] ∧
      first.authenticate (.negotiated identity) = .ok ⟨identity.principal, .empty⟩ := by
  obtain ⟨trace, service, round, run, value, loads, negotiates, authenticated⟩ :=
    exists_lobby "" ofContent_unnamed
  have nothing : (mappingSettings lobby (register "")).mappingOf [⟨"Admin", [""]⟩] = .empty := by
    have skipped : Definitions.listings [⟨"Admin", [""]⟩] = [] := by decide +kernel
    unfold Settings.mappingOf
    rw [skipped]
    rfl
  have known : ∃ entry, (register "").objectAttributes (cleanIdentity "") = .ok (some entry) ∧
      entry.isGroup = false ∧ entry.userPrincipalName = some "alice@EXAMPLE.COM" := by
    have clean : cleanIdentity "" = "" := by decide +kernel
    rw [clean]
    exact ⟨_, rfl, by decide, rfl⟩
  have stripped : Principal.stripRealm lobby.stripRealm "alice@EXAMPLE.COM" = "alice" := by
    decide +kernel
  obtain ⟨entry, found, user, account⟩ := known
  rw [nothing] at value loads
  exact ⟨rfl, trace, service, _, round, _, entry, run, value, ofContent_unnamed, loads, negotiates,
    authenticated, found, user, account, stripped, rfl, rfl⟩

end Realm

end SpnegoRealm
