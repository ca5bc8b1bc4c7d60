import SpnegoRealm.Proofs.Mapping.Load
import SpnegoRealm.Realm

/-! # What a start comes to

A start that succeeds gives a service that judges tokens in the mode of the configuration and maps
roles as the configuration says. Its first snapshot is the mapping of the file, or the empty one if
the file cannot be used (`SpnegoRealm.Realm.outcome`). Whether a start succeeds does not depend on
the file (`SpnegoRealm.Realm.yields_start`). A start that fails does nothing but warn, and one that
succeeds loads the mapping file once (`SpnegoRealm.Realm.course_of_start`).
-/

namespace SpnegoRealm

open Mapping

/-- A warning. -/
def Event.Cautions : Event → Prop
  | .warned _ => True
  | _ => False

namespace Realm

variable {config : Config} {access : Config.FileAccess} {source : DirectorySource}
  {mechanism : Option Mechanism} {content : Option Bytes} {settings : Settings} {start : Instant}

/-- How a realm judges tokens, if anything can. -/
def judging (config : Config) (mechanism : Option Mechanism) : Option Negotiation.Mode :=
  if config.mockMode then some .rehearsal else mechanism.map .acceptor

/-- There is a way to judge credentials if and only if they are rehearsed or a mechanism is
supplied. -/
theorem exists_judging_iff : (∃ mode, judging config mechanism = some mode) ↔
    config.mockMode = true ∨ ∃ supplied, mechanism = some supplied := by
  unfold judging
  cases config.mockMode with
  | true => simp
  | false => simp [Option.map_eq_some_iff]

private theorem yields_openDirectory (source : DirectorySource) (ldap : LdapConfig) :
    (source.openDirectory ldap).Yields (source.directory ldap) := by
  unfold DirectorySource.openDirectory
  cases source with
  | supplied directory => exact Timed.yields_pure _
  | server host =>
      by_cases verified : ldap.verifyCertificates = true
      · simp only [verified, Bool.not_true, Bool.false_eq_true, ↓reduceIte]
        exact Timed.yields_pure _
      · simp only [verified, Bool.not_false, ↓reduceIte]
        exact (Activity.yields_warn _).bind (Timed.yields_pure _)

private theorem yields_mode? (config : Config) (mechanism : Option Mechanism) :
    (mode? config mechanism).Yields (judging config mechanism) := by
  unfold mode? judging
  split
  next => exact (Activity.yields_warn _).bind (Timed.yields_pure _)
  next => exact Timed.yields_pure _

/-- The snapshot that a realm starts with, given what its first load answers. -/
def firstSnapshot (answer : Except RealmError Snapshot) : Snapshot := answer.toOption.getD .empty

private theorem yields_afterLoad (answer : Except RealmError Snapshot) :
    Timed.Yields (match answer with
      | .ok snapshot => return snapshot
      | .error _ => do
        Activity.warn .initialLoadFailed
        return .empty : Activity Snapshot) (firstSnapshot answer) := by
  cases answer with
  | ok snapshot => exact Timed.yields_pure _
  | error fault => exact (Activity.yields_warn _).bind (Timed.yields_pure _)

private theorem yieldsUnless_firstLoad (settings : Settings) (content : Option Bytes) :
    (firstLoad settings content).YieldsUnless (settings.OverstepsWith content) .tooManyWorkers
      (firstSnapshot (settings.answer content)) :=
  (settings.yieldsUnless_rebuild content).bind_yields (yields_afterLoad _)

/-- What a start comes to: a service and a first snapshot, or why there is none. -/
def outcome (config : Config) (access : Config.FileAccess) (source : DirectorySource)
    (mechanism : Option Mechanism) (content : Option Bytes) :
    Except StartError (Service × Snapshot) :=
  match config.validate access with
  | .error fault => .error (.invalidConfiguration fault)
  | .ok _ =>
    let settings := mappingSettings config (source.directory config.ldap)
    match judging config mechanism with
    | none => .error .noMechanism
    | some mode => .ok (⟨mode, settings⟩, firstSnapshot (settings.answer content))

/-- A start gets as far as to load a mapping file with which it oversteps. -/
def Oversteps (config : Config) (access : Config.FileAccess) (source : DirectorySource)
    (mechanism : Option Mechanism) (content : Option Bytes) : Prop :=
  config.validate access = .ok () ∧
    (config.mockMode = true ∨ ∃ supplied, mechanism = some supplied) ∧
    (mappingSettings config (source.directory config.ldap)).OverstepsWith content

/-- A start comes to its outcome, unless the first load asks for too many permits. -/
theorem yieldsUnless_start (config : Config) (access : Config.FileAccess)
    (source : DirectorySource) (mechanism : Option Mechanism) (content : Option Bytes) :
    (Realm.start config access source mechanism content).YieldsUnless
      (Oversteps config access source mechanism content) .tooManyWorkers
      (outcome config access source mechanism content) := by
  unfold Realm.start Oversteps outcome
  rw [← exists_judging_iff]
  cases config.validate access with
  | error fault => exact (Timed.yields_pure _).yieldsUnless (by simp) _
  | ok =>
      refine (yields_openDirectory _ _).bind_yieldsUnless
        ((yields_mode? _ _).bind_yieldsUnless ?_)
      cases judging config mechanism with
      | none => exact (Timed.yields_pure _).yieldsUnless (by simp) _
      | some mode =>
          refine Timed.YieldsUnless.of_iff ?_
            ((yieldsUnless_firstLoad _ _).bind_yields (Timed.yields_pure _))
          simp

/-- Where there are permits for all workers, a start comes to its outcome. -/
theorem yields_outcome (permitted : config.maxNestedGroupWorkers ≤ Groups.permitLimit)
    (access : Config.FileAccess) (source : DirectorySource) (mechanism : Option Mechanism)
    (content : Option Bytes) :
    (Realm.start config access source mechanism content).Yields
      (outcome config access source mechanism content) := by
  apply (yieldsUnless_start config access source mechanism content).yields
  rintro ⟨-, -, oversteps⟩
  exact Settings.not_overstepsWith permitted content oversteps

/-- A start succeeds whatever the mapping file is. -/
theorem yields_start {mode : Negotiation.Mode} (accepted : config.validate access = .ok ())
    (judges : judging config mechanism = some mode)
    (permitted : config.maxNestedGroupWorkers ≤ Groups.permitLimit) (source : DirectorySource)
    (content : Option Bytes) :
    let settings := mappingSettings config (source.directory config.ldap)
    (Realm.start config access source mechanism content).Yields
      (.ok (⟨mode, settings⟩, firstSnapshot (settings.answer content))) := by
  intro settings
  have started : outcome config access source mechanism content =
      .ok (⟨mode, settings⟩, firstSnapshot (settings.answer content)) := by
    simp only [outcome, accepted, judges, settings]
  rw [← started]
  exact yields_outcome permitted access source mechanism content

/-- A start succeeds if and only if its configuration is accepted and there is a way to judge
credentials. -/
theorem outcome_eq_ok_iff {service : Service} {first : Snapshot} :
    outcome config access source mechanism content = .ok (service, first) ↔
      config.validate access = .ok () ∧ ∃ mode, judging config mechanism = some mode ∧
        service = ⟨mode, mappingSettings config (source.directory config.ldap)⟩ ∧
        first = firstSnapshot (service.mapping.answer content) := by
  unfold outcome
  cases config.validate access with
  | error fault => simp
  | ok =>
      cases judging config mechanism with
      | none => simp
      | some mode =>
          simp only [Except.ok.injEq, Prod.mk.injEq, Option.some.injEq, exists_eq_left', true_and]
          constructor
          · rintro ⟨rfl, rfl⟩
            exact ⟨rfl, rfl⟩
          · rintro ⟨rfl, rfl⟩
            exact ⟨rfl, rfl⟩

/-! ## What happens in a start -/

private theorem cautions_openDirectory (source : DirectorySource) (ldap : LdapConfig) :
    (source.openDirectory ldap).KeepsTo Event.Cautions := by
  unfold DirectorySource.openDirectory
  cases source with
  | supplied directory => exact Timed.keepsTo_pure _
  | server host =>
      by_cases verified : ldap.verifyCertificates = true
      · simp only [verified, Bool.not_true, Bool.false_eq_true, ↓reduceIte]
        exact Timed.keepsTo_pure _
      · simp only [verified, Bool.not_false, ↓reduceIte]
        exact (Activity.keepsTo_warn trivial).bind fun _ => Timed.keepsTo_pure _

private theorem cautions_mode? (config : Config) (mechanism : Option Mechanism) :
    (mode? config mechanism).KeepsTo Event.Cautions := by
  unfold mode?
  split
  next => exact (Activity.keepsTo_warn trivial).bind fun _ => Timed.keepsTo_pure _
  next => exact Timed.keepsTo_pure _

/-- A first load is a load of the mapping file, and then at most a warning. -/
theorem of_firstLoad {trace : Trace Event Snapshot}
    (run : firstLoad settings content start = .ok trace) :
    ∃ loaded closing, settings.rebuild content start = .ok loaded ∧
      trace.value = firstSnapshot loaded.value ∧ trace.events = loaded.events ++ closing ∧
        ∀ event ∈ closing, event.2.Cautions := by
  obtain ⟨loaded, later, loads, ends, rfl⟩ := Timed.of_bind_eq_ok run
  refine ⟨loaded, later.events, loads, (yields_afterLoad loaded.value).tells _ later ends, rfl, ?_⟩
  cases answered : loaded.value with
  | ok snapshot =>
      rw [answered] at ends
      exact (Timed.keepsTo_pure snapshot _ later ends).allowed
  | error fault =>
      rw [answered] at ends
      have keeps : Timed.KeepsTo Event.Cautions (do
          Activity.warn .initialLoadFailed
          return .empty : Activity Snapshot) :=
        (Activity.keepsTo_warn trivial).bind fun _ => Timed.keepsTo_pure _
      exact (keeps _ later ends).allowed

/-- What a start does: a start that fails only warns, and one that succeeds loads the mapping file once,
between warnings. -/
def Course (config : Config) (source : DirectorySource) (mechanism : Option Mechanism)
    (content : Option Bytes) (trace : Trace Event (Except StartError (Service × Snapshot))) : Prop :=
  match trace.value with
  | .error _ => ∀ event ∈ trace.events, event.2.Cautions
  | .ok (service, first) =>
    ∃ mode instant loaded opening closing, judging config mechanism = some mode ∧
      service = ⟨mode, mappingSettings config (source.directory config.ldap)⟩ ∧
      service.rebuild content instant = .ok loaded ∧ first = firstSnapshot loaded.value ∧
      trace.events = opening ++ loaded.events ++ closing ∧
      (∀ event ∈ opening, event.2.Cautions) ∧ ∀ event ∈ closing, event.2.Cautions

/-- Every start that comes to an end took this course. -/
theorem course_of_start {trace : Trace Event (Except StartError (Service × Snapshot))}
    (run : Realm.start config access source mechanism content start = .ok trace) :
    Course config source mechanism content trace := by
  unfold Realm.start at run
  cases accepted : config.validate access with
  | error fault =>
      rw [accepted] at run
      obtain rfl := Except.ok.inj run
      exact fun _ none => (List.not_mem_nil none).elim
  | ok =>
      rw [accepted] at run
      obtain ⟨opened, after, opens, next, rfl⟩ := Timed.of_bind_eq_ok run
      obtain ⟨judged, rest, asks, last, rfl⟩ := Timed.of_bind_eq_ok next
      have openingCautions := (cautions_openDirectory _ _ _ _ opens).allowed
      have judgingCautions := (cautions_mode? _ _ _ _ asks).allowed
      have cautions : ∀ event ∈ opened.events ++ judged.events, event.2.Cautions := by
        intro event happens
        rcases List.mem_append.mp happens with early | late
        · exact openingCautions event early
        · exact judgingCautions event late
      rw [(yields_openDirectory _ _).tells _ _ opens] at last
      rw [(yields_mode? _ _).tells _ _ asks] at last
      cases judges : judging config mechanism with
      | none =>
          rw [judges] at last
          obtain rfl := Except.ok.inj last
          intro event happens
          exact cautions event (by simpa using happens)
      | some mode =>
          rw [judges] at last
          obtain ⟨loaded, final, loads, ends, rfl⟩ := Timed.of_bind_eq_ok last
          obtain rfl := Except.ok.inj ends
          obtain ⟨read, closing, reads, value, events, closingCautions⟩ := of_firstLoad loads
          refine ⟨mode, _, read, opened.events ++ judged.events, closing, judges, rfl, reads, value,
            ?_, cautions, closingCautions⟩
          simp only [events, List.append_nil, List.append_assoc]

/-- What a start that succeeded made of its configuration. -/
theorem of_start {trace : Trace Event (Except StartError (Service × Snapshot))} {service : Service}
    {first : Snapshot} (run : Realm.start config access source mechanism content start = .ok trace)
    (started : trace.value = .ok (service, first)) :
    ∃ mode instant loaded, judging config mechanism = some mode ∧
      service = ⟨mode, mappingSettings config (source.directory config.ldap)⟩ ∧
      service.rebuild content instant = .ok loaded ∧ first = firstSnapshot loaded.value := by
  have course := course_of_start run
  unfold Course at course
  rw [started] at course
  obtain ⟨mode, instant, loaded, -, -, judges, same, loads, value, -⟩ := course
  exact ⟨mode, instant, loaded, judges, same, loads, value⟩

end Realm

end SpnegoRealm
