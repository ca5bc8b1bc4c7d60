import SpnegoRealm.Proofs.Negotiation.Disposal
import SpnegoRealm.Proofs.Overlap.Life
import SpnegoRealm.Proofs.Realm.Names
import SpnegoRealm.Proofs.Refresh.Upkeep

/-! # Realms from start to stop

Whether a realm starts is decided by its configuration and by whether there is something that can
judge tokens (`SpnegoRealm.Realm.exists_started_iff`). A start that fails only warns. A realm that
starts lives by its configuration until it is stopped (`SpnegoRealm.Realm.LivesBy`): it loads its
mapping once, lets nobody pass without a context of the supplied mechanism, or never uses one if it
only rehearses, and once stopping has returned it does nothing by itself
(`SpnegoRealm.Realm.lives_from_start_to_stop`).
-/

namespace SpnegoRealm

open Mapping Negotiation

/-! ## Rounds -/

namespace Service

variable {service : Service} {mapping : Settings} {mechanism : Mechanism} {header : Option String}
  {instant : Instant} {outcome : Outcome}

private theorem negotiate_acceptor_eq_atOnce (mechanism : Mechanism) (mapping : Settings)
    (header : Option String) : Service.negotiate ⟨.acceptor mechanism, mapping⟩ header =
      .atOnce ((answerOf mechanism mapping.stripRealm mapping.directory header).mapError .negotiation)
        (eventsOf mechanism mapping.stripRealm mapping.directory header) := by
  have engine := Negotiation.negotiate_eq_atOnce mechanism mapping.stripRealm mapping.directory header
  unfold Service.negotiate Service.engine
  rw [engine]
  exact Timed.atOnce_bind_pure _ _ _

/-- What a rehearsal answers to the credential of a request. -/
def rehearsed : Option String → Except NegotiationError Outcome
  | none => .ok .absent
  | some header => rehearse header

private theorem negotiate_rehearsal_eq_atOnce (mapping : Settings) (header : Option String) :
    Service.negotiate ⟨.rehearsal, mapping⟩ header =
      .atOnce ((rehearsed header).mapError .negotiation) [] := by
  have engine : Engine.negotiate ⟨.rehearsal, mapping.stripRealm, mapping.directory⟩ header =
      .atOnce (rehearsed header) [] := by
    cases header with
    | none => rfl
    | some text => exact Timed.pure_eq_atOnce _
  unfold Service.negotiate Service.engine
  rw [engine]
  exact Timed.atOnce_bind_pure _ _ _

/-- A client is told what the service answers, in other words if it is an error. -/
theorem of_negotiateForClient {told : Trace Event (Except ClientError Outcome)}
    (run : service.negotiateForClient header instant = .ok told) :
    ∃ round, service.negotiate header instant = .ok round ∧ told.events = round.events ∧
      told.value = round.value.mapError RealmError.toClient := by
  obtain ⟨round, later, runs, ends, rfl⟩ := Timed.of_bind_eq_ok run
  obtain rfl := Except.ok.inj ends
  exact ⟨round, runs, List.append_nil _, rfl⟩

/-- An outcome that a context of a mechanism brought about: the context was opened for the request,
was fed the token of its credential, and asked for another round or established the peer. -/
def ByContext (mechanism : Mechanism) (header : Option String) (events : List (Instant × Event))
    (outcome : Outcome) : Prop :=
  ∃ text token context rest, header = some text ∧ decodeHeader text = .ok token ∧
    mechanism.openContext = .ok context ∧
    contextSteps events = .opened :: .accepted token :: rest ∧
    ((∃ out, context.accept token = .ok (.pending out) ∧ outcome = .pending (Token.binary out)) ∨
      ∃ out name identity, context.accept token = .ok (.established out (.ok (some name))) ∧
        outcome = .authenticated identity ∧ identity.token = out.map Token.binary)

private theorem contextSteps_of_open {text : String} {token : Bytes} {context : SecurityContext}
    (decoded : decodeHeader text = .ok token) (opened : mechanism.openContext = .ok context)
    (stripRealm : Bool) (directory : Directory) (instant : Instant) :
    ∃ rest, contextSteps ((eventsOf mechanism stripRealm directory (some text)).map (instant, ·)) =
      .opened :: .accepted token :: rest := by
  refine ⟨(if establishes context token then [.askedForName] else []) ++ [.disposed], ?_⟩
  rw [contextSteps_atOnce, eventsOf, lifeOfContext_of_open decoded opened, List.filterMap_append,
    filterMap_contextStep_questions, List.append_nil]
  simp only [List.filterMap_cons, Event.contextStep?, List.filterMap_append,
    filterMap_contextStep_judging, filterMap_contextStep_disposal, List.cons_append]

/-- With an acceptor, every answer to a credential is brought about by a context. -/
theorem byContext_of_negotiate {round : Trace Event (Except RealmError Outcome)}
    (run : Service.negotiate ⟨.acceptor mechanism, mapping⟩ header instant = .ok round)
    (answered : round.value = .ok outcome) (presented : outcome ≠ .absent) :
    ByContext mechanism header round.events outcome := by
  rw [negotiate_acceptor_eq_atOnce] at run
  obtain rfl := Except.ok.inj run
  cases told : answerOf mechanism mapping.stripRealm mapping.directory header with
  | error fault =>
      rw [told] at answered
      cases answered
  | ok other =>
      rw [told] at answered
      obtain rfl : other = outcome := Except.ok.inj answered
      cases other with
      | absent => exact (presented rfl).elim
      | pending sent =>
          obtain ⟨text, out, rfl, decided, rfl⟩ := answerOf_eq_pending_iff.mp told
          obtain ⟨token, context, decoded, opened, judged⟩ := decision_eq_ok_iff.mp decided
          obtain ⟨rest, steps⟩ := contextSteps_of_open decoded opened mapping.stripRealm
            mapping.directory instant
          exact ⟨text, token, context, rest, rfl, decoded, opened, steps,
            Or.inl ⟨out, verdict_eq_pending_iff.mp judged, rfl⟩⟩
      | authenticated identity =>
          obtain ⟨text, name, out, rfl, decided, rfl⟩ := answerOf_eq_authenticated_iff.mp told
          obtain ⟨token, context, decoded, opened, accepted, -⟩ :=
            decision_eq_established_iff.mp decided
          obtain ⟨rest, steps⟩ := contextSteps_of_open decoded opened mapping.stripRealm
            mapping.directory instant
          exact ⟨text, token, context, rest, rfl, decoded, opened, steps,
            Or.inr ⟨out, name, _, accepted, rfl, rfl⟩⟩

private theorem contextSteps_of_rehearsal {round : Trace Event (Except RealmError Outcome)}
    (run : Service.negotiate ⟨.rehearsal, mapping⟩ header instant = .ok round) :
    contextSteps round.events = [] := by
  rw [negotiate_rehearsal_eq_atOnce] at run
  obtain rfl := Except.ok.inj run
  rfl

private theorem value_of_mapError {told : Except RealmError Outcome}
    (answered : told.mapError RealmError.toClient = .ok outcome) : told = .ok outcome := by
  cases told with
  | error fault => cases answered
  | ok other => exact congrArg Except.ok (Except.ok.inj answered)

end Service

/-! ## Starts -/

namespace Realm

variable {config : Config} {access : Config.FileAccess} {source : DirectorySource}
  {mechanism : Option Mechanism} {content : Option Bytes} {start : Instant}
  {trace : Trace Event (Except StartError (Service × Snapshot))} {service : Service}
  {first : Snapshot}

/-- **A realm starts if its configuration is accepted and something can judge tokens.** -/
theorem exists_started_iff :
    (∃ service first, outcome config access source mechanism content = .ok (service, first)) ↔
      config.validate access = .ok () ∧
        (config.mockMode = true ∨ ∃ supplied, mechanism = some supplied) := by
  rw [← exists_judging_iff]
  constructor
  · rintro ⟨service, first, started⟩
    obtain ⟨accepted, mode, judges, -⟩ := outcome_eq_ok_iff.mp started
    exact ⟨accepted, mode, judges⟩
  · rintro ⟨accepted, mode, judges⟩
    exact ⟨_, _, outcome_eq_ok_iff.mpr ⟨accepted, mode, judges, rfl, rfl⟩⟩

/-- A rehearsal does not look at the mechanism. -/
theorem start_of_mockMode (mock : config.mockMode = true) (access : Config.FileAccess)
    (source : DirectorySource) (mechanism other : Option Mechanism) (content : Option Bytes) :
    Realm.start config access source mechanism content =
      Realm.start config access source other content := by
  unfold Realm.start mode?
  rw [mock]
  rfl

private theorem silent_of_cautions {events : List (Instant × Event)}
    (cautions : ∀ event ∈ events, event.2.Cautions) : ∀ event ∈ events, event.2.Silent := by
  rintro ⟨instant, event⟩ happens
  have warns := cautions _ happens
  cases event with
  | warned => trivial
  | _ => exact warns.elim

/-- Warnings are neither questions nor steps of contexts. -/
theorem nothing_of_cautions {events : List (Instant × Event)}
    (cautions : ∀ event ∈ events, event.2.Cautions) :
    Questions.asked events = [] ∧ contextSteps events = [] := by
  refine ⟨List.filterMap_eq_nil_iff.mpr ?_, List.filterMap_eq_nil_iff.mpr ?_⟩
  all_goals
    rintro ⟨instant, event⟩ happens
    have warns := cautions _ happens
    cases event with
    | warned => rfl
    | _ => exact warns.elim

/-- What a first load publishes is the first snapshot. -/
theorem published_of_load {settings : Settings} {loaded : Trace Event (Except RealmError Snapshot)}
    (loads : settings.rebuild content start = .ok loaded) :
    published .empty loaded.events = firstSnapshot loaded.value := by
  obtain ⟨fault, -, rfl⟩ | ⟨definitions, events, finish, -, -, -, rfl⟩ :=
    Settings.rebuild_cases loads
  · rfl
  · exact published_append_published _ _ _ _

private theorem firstSnapshot_of_load {settings : Settings}
    {loaded : Trace Event (Except RealmError Snapshot)}
    (loads : settings.rebuild content start = .ok loaded) :
    firstSnapshot loaded.value =
      match Definitions.ofContent content with
      | .ok definitions => settings.mappingOf definitions
      | .error _ => .empty := by
  rw [settings.tells_rebuild content start loaded loads]
  unfold Settings.answer
  cases Definitions.ofContent content <;> rfl

open Overlap in
/-- A realm that has started lives by its configuration. -/
structure LivesBy (config : Config) (source : DirectorySource) (mechanism : Option Mechanism)
    (content : Option Bytes) (trace : Trace Event (Except StartError (Service × Snapshot)))
    (service : Service) (first : Snapshot) : Prop where
  mapping : service.mapping = mappingSettings config (source.directory config.ldap)
  /-- The start consists of one load of the mapping file, and of warnings before and after it. -/
  loadedOnce : ∃ instant loaded opening closing, service.rebuild content instant = .ok loaded ∧
    trace.events = opening ++ loaded.events ++ closing ∧
    (∀ event ∈ opening, event.2.Cautions) ∧ ∀ event ∈ closing, event.2.Cautions
  loaded : first = match Definitions.ofContent content with
    | .ok definitions => service.mapping.mappingOf definitions
    | .error _ => .empty
  current : published .empty trace.events = first
  /-- Outside of the rehearsal mode, all answers come from contexts of the supplied mechanism. -/
  earnest : config.mockMode = false → ∃ supplied, mechanism = some supplied ∧
    (∀ header instant round outcome, service.negotiate header instant = .ok round →
      round.value = .ok outcome → outcome ≠ .absent →
        Service.ByContext supplied header round.events outcome) ∧
    ∀ header instant told outcome, service.negotiateForClient header instant = .ok told →
      told.value = .ok outcome → outcome ≠ .absent →
        Service.ByContext supplied header told.events outcome
  /-- In the rehearsal mode, no context is opened or fed a token. -/
  rehearsed : config.mockMode = true →
    (∀ header instant round, service.negotiate header instant = .ok round →
      contextSteps round.events = []) ∧
    ∀ header instant told, service.negotiateForClient header instant = .ok told →
      contextSteps told.events = []
  /-- Once stopping has returned, whatever happens then, both loops are over, and only a rebuild from
  outside changes the current snapshot. -/
  stopped : ∀ watched file life later,
    Life.Reaches service config.cacheRefreshInterval.milliseconds
      (Life.opened config.cacheRefreshInterval.milliseconds watched file trace.finish trace.value)
      life →
    life.stopped = true →
    Life.Reaches service config.cacheRefreshInterval.milliseconds life later →
      (∀ trigger, later.loops trigger = .ended) ∧ ∀ action next,
        Life.Step service config.cacheRefreshInterval.milliseconds later action next →
          action.isOwn = false ∧ (next.world.current = later.world.current ∨
            ∃ snapshot, Life.Publishes action snapshot ∧ next.world.current = snapshot)
  /-- Stopping can always return, and leaves the world as it is. -/
  stops : ∀ watched file life,
    Life.Reaches service config.cacheRefreshInterval.milliseconds
      (Life.opened config.cacheRefreshInterval.milliseconds watched file trace.finish trace.value)
      life →
    life.stopping = true → ∃ later,
      Life.Reaches service config.cacheRefreshInterval.milliseconds life later ∧
        later.stopped = true ∧ later.world = life.world
  /-- What the realm does by itself ends when it is stopped. -/
  upkeep : ∀ file stopped, trace.finish ≤ stopped →
    ∃ events, Realm.upkeep config (source.directory config.ldap) file trace.finish stopped =
      .ok events ∧ ∀ event ∈ events, Refresh.InTime stopped event

/-- A start that succeeds brings up a realm that lives by its configuration. -/
theorem livesBy_of_start (permitted : config.maxNestedGroupWorkers ≤ Groups.permitLimit)
    (run : Realm.start config access source mechanism content start = .ok trace)
    (started : trace.value = .ok (service, first)) :
    LivesBy config source mechanism content trace service first := by
  have course := course_of_start run
  unfold Course at course
  rw [started] at course
  obtain ⟨mode, instant, loaded, opening, closing, judges, rfl, loads, value, events, before, after⟩ :=
    course
  refine ⟨rfl, ?loadedOnce, ?loaded, ?current, ?earnest, ?rehearsed, ?stopped, ?stops, ?upkeep⟩
  case loadedOnce => exact ⟨instant, loaded, opening, closing, loads, events, before, after⟩
  case loaded => exact value.trans (firstSnapshot_of_load loads)
  case current =>
    rw [events, published_append, published_append,
      published_of_silent (silent_of_cautions before), published_of_load loads,
      published_of_silent (silent_of_cautions after), value]
  case earnest =>
    intro earnest
    unfold judging at judges
    rw [earnest] at judges
    obtain ⟨supplied, rfl, rfl⟩ := Option.map_eq_some_iff.mp judges
    refine ⟨supplied, rfl, ?_, ?_⟩
    · exact fun header instant round outcome negotiates => Service.byContext_of_negotiate negotiates
    · intro header instant told outcome negotiates answered
      obtain ⟨round, runs, sameEvents, sameValue⟩ := Service.of_negotiateForClient negotiates
      rw [sameEvents]
      exact Service.byContext_of_negotiate runs
        (Service.value_of_mapError (sameValue.symm.trans answered))
  case rehearsed =>
    intro mock
    unfold judging at judges
    rw [mock] at judges
    obtain rfl := Option.some.inj judges
    refine ⟨fun header instant round negotiates => Service.contextSteps_of_rehearsal negotiates, ?_⟩
    intro header instant told negotiates
    obtain ⟨round, runs, sameEvents, -⟩ := Service.of_negotiateForClient negotiates
    rw [sameEvents]
    exact Service.contextSteps_of_rehearsal runs
  case stopped =>
    exact fun watched file life later reaches stopped => Overlap.Life.of_stopped reaches stopped
  case stops =>
    exact fun watched file life reaches told =>
      (reaches.sound Overlap.Life.sound_opened).exists_stopped told _ _
  case upkeep =>
    intro file stopped forward
    have allowed : (mappingSettings config (source.directory config.ldap)).limits.maxWorkers ≤
      Groups.permitLimit := permitted
    exact Refresh.exists_upkeep allowed _ file forward

open Overlap in
/-- **A realm lives as it is configured, from its start to its stop.** A start ends. It succeeds if and
only if the configuration is accepted and the realm rehearses or a mechanism is supplied. A start that
fails asks the directory nothing, opens no context, publishes nothing and leaves no loop behind, and in
the rehearsal mode no start depends on the mechanism. A realm that has started lives by its
configuration. -/
theorem lives_from_start_to_stop (config : Config)
    (permitted : config.maxNestedGroupWorkers ≤ Groups.permitLimit) (access : Config.FileAccess)
    (source : DirectorySource) (mechanism : Option Mechanism) (content : Option Bytes)
    (start : Instant) :
    ∃ trace, Realm.start config access source mechanism content start = .ok trace ∧
      ((∃ service first, trace.value = .ok (service, first)) ↔ config.validate access = .ok () ∧
        (config.mockMode = true ∨ ∃ supplied, mechanism = some supplied)) ∧
      (∀ fault, trace.value = .error fault →
        Questions.asked trace.events = [] ∧ contextSteps trace.events = [] ∧
        (∀ current, published current trace.events = current) ∧
        ∀ service interval watched file life,
          Life.Reaches service interval
            (Life.opened interval watched file trace.finish trace.value) life →
          (∀ trigger, life.loops trigger = .ended) ∧
            ∀ action next, Life.Step service interval life action next → action.isOwn = false) ∧
      (config.mockMode = true → ∀ other, Realm.start config access source other content start =
        Realm.start config access source mechanism content start) ∧
      ∀ service first, trace.value = .ok (service, first) →
        LivesBy config source mechanism content trace service first := by
  obtain ⟨trace, run, value⟩ :=
    yields_outcome permitted access source mechanism content start
  refine ⟨trace, run, ?succeeds, ?failed, ?mock, ?started⟩
  case succeeds =>
    rw [value]
    exact exists_started_iff
  case failed =>
    intro fault fails
    have course := course_of_start run
    unfold Course at course
    rw [fails] at course
    obtain ⟨unasked, unopened⟩ := nothing_of_cautions course
    refine ⟨unasked, unopened, published_of_silent (silent_of_cautions course), ?_⟩
    intro service interval watched file life reaches
    rw [fails] at reaches
    obtain ⟨ended, still⟩ := Life.of_failed reaches
    exact ⟨ended, fun action next step => (still action next step).1⟩
  case mock =>
    intro mock other
    rw [start_of_mockMode mock access source other mechanism content]
  case started => exact fun service first started => livesBy_of_start permitted run started

/-- With a mechanism, the lobby starts with the mapping of its file; without one it does not start, and
asks the directory nothing. -/
theorem lives_from_start_to_stop_in_lobby :
    lobby.maxNestedGroupWorkers ≤ Groups.permitLimit ∧ lobby.mockMode = false ∧
      lobby.validate (fun _ => .ok ()) = .ok () ∧
      (∃ trace service, Realm.start lobby (fun _ => .ok ()) (.supplied (register "CN=U"))
          (some doorman) (some (Text.utf8 "Ops: [CN=U]\n")) 0 = .ok trace ∧
        trace.value = .ok (service, service.mapping.mappingOf [⟨"Ops", ["CN=U"]⟩]) ∧
        LivesBy lobby (.supplied (register "CN=U")) (some doorman)
          (some (Text.utf8 "Ops: [CN=U]\n")) trace service
          (service.mapping.mappingOf [⟨"Ops", ["CN=U"]⟩])) ∧
      ∃ trace fault, Realm.start lobby (fun _ => .ok ()) (.supplied (register "CN=U")) none
          (some (Text.utf8 "Ops: [CN=U]\n")) 0 = .ok trace ∧
        trace.value = .error fault ∧ Questions.asked trace.events = [] := by
  have permitted : lobby.maxNestedGroupWorkers ≤ Groups.permitLimit := by decide
  have accepted : lobby.validate (fun _ => .ok ()) = .ok () := by decide +kernel
  refine ⟨permitted, rfl, accepted, ?withMechanism, ?without⟩
  case withMechanism =>
    obtain ⟨trace, run, succeeds, -, -, lives⟩ := lives_from_start_to_stop lobby permitted
      (fun _ => .ok ()) (.supplied (register "CN=U")) (some doorman)
      (some (Text.utf8 "Ops: [CN=U]\n")) 0
    obtain ⟨service, first, started⟩ := succeeds.mpr ⟨accepted, Or.inr ⟨doorman, rfl⟩⟩
    have living := lives service first started
    have loaded := living.loaded
    rw [ofContent_listed] at loaded
    obtain rfl : first = service.mapping.mappingOf [⟨"Ops", ["CN=U"]⟩] := loaded
    exact ⟨trace, service, run, started, living⟩
  case without =>
    obtain ⟨trace, run, succeeds, fails, -, -⟩ := lives_from_start_to_stop lobby permitted
      (fun _ => .ok ()) (.supplied (register "CN=U")) none (some (Text.utf8 "Ops: [CN=U]\n")) 0
    cases told : trace.value with
    | ok started =>
        obtain ⟨-, mock | ⟨supplied, missing⟩⟩ := succeeds.mp ⟨started.1, started.2, told⟩
        · cases mock
        · cases missing
    | error fault => exact ⟨trace, fault, run, told, (fails fault told).1⟩

end Realm

end SpnegoRealm
