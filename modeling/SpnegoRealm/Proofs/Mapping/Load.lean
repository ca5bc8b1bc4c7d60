import SpnegoRealm.Proofs.Mapping.Complete
import SpnegoRealm.Proofs.Time.Window

/-! # Loads of a mapping file

A load reads one content of the mapping file. If the content cannot be used, the load fails at once;
otherwise it goes through the listings without a publication, and publishes at its end what all
listings give (`SpnegoRealm.Mapping.Settings.mappingOf`), unless it is stopped by a fault that nothing
can answer (`SpnegoRealm.Mapping.Settings.rebuild_cases`).

A load that goes on among other things can find other groups, but no other principals. So the
principals of every load are told by its content alone
(`SpnegoRealm.Mapping.Settings.Loads.mem_principalRoles`).
-/

namespace SpnegoRealm

/-- Everything that can be observed but a publication. -/
def Event.Silent : Event → Prop
  | .published _ => False
  | _ => True

/-! ## The window of a search -/

namespace Groups

variable {start : Instant}

/-- Visits start after the arrivals that they come from. -/
theorem Search.window_of_mem_visits (search : Search) {depth : ℕ} {known : List String}
    {finishes : List Instant} {deeper here : List Arrival}
    (later : ∀ arrival ∈ deeper, start ≤ arrival.instant)
    (arrived : ∀ arrival ∈ here, start ≤ arrival.instant) :
    ∀ visit ∈ search.visits depth known finishes deeper here,
      start ≤ visit.start ∧ visit.start ≤ visit.finish := by
  fun_induction Search.visits search depth known finishes deeper here with
  | case1 => exact fun _ none => (List.not_mem_nil none).elim
  | case2 depth known finishes shallow arrival rest ih =>
      exact ih (fun _ none => (List.not_mem_nil none).elim) later
  | case3 => exact fun _ none => (List.not_mem_nil none).elim
  | case4 depth known finishes deeper arrival rest visit waiting ih =>
      have begun : start ≤ visit.start :=
        Nat.le_trans (arrived arrival List.mem_cons_self) (Nat.le_max_left _ _)
      have forward : visit.start ≤ visit.finish := Nat.le_add_right _ _
      have submitted : ∀ child ∈ waiting, start ≤ child.instant := by
        intro child queued
        unfold waiting at queued
        split at queued
        · obtain ⟨group, -, rfl⟩ := List.mem_map.mp queued
          exact Nat.le_trans begun forward
        · cases queued
      intro other listed
      rcases List.mem_cons.mp listed with rfl | further
      · exact ⟨begun, forward⟩
      · refine ih ?_ (fun child here => arrived child (List.mem_cons_of_mem _ here)) other further
        intro child queued
        rcases List.mem_append.mp queued with old | new
        · exact later child old
        · exact submitted child new

private theorem finish_le_foldl_max (visits : List Visit) (start : Instant) :
    start ≤ visits.foldl (fun latest visit => max latest visit.finish) start ∧
      ∀ visit ∈ visits,
        visit.finish ≤ visits.foldl (fun latest visit => max latest visit.finish) start := by
  induction visits generalizing start with
  | nil => exact ⟨Nat.le_refl _, fun _ none => (List.not_mem_nil none).elim⟩
  | cons first rest ih =>
      obtain ⟨begun, ended⟩ := ih (max start first.finish)
      rw [List.foldl_cons]
      refine ⟨Nat.le_trans (Nat.le_max_left _ _) begun, fun visit listed => ?_⟩
      rcases List.mem_cons.mp listed with rfl | later
      · exact Nat.le_trans (Nat.le_max_right _ _) begun
      · exact ended visit later

private theorem Visit.window_of_mem_events {visit : Visit} (forward : visit.start ≤ visit.finish) :
    ∀ event ∈ visit.events,
      visit.start ≤ event.1 ∧ event.1 ≤ visit.finish ∧ event.2.Silent := by
  intro event happens
  unfold Visit.events at happens
  rcases List.mem_append.mp happens with question | failure
  · rcases List.mem_cons.mp question with rfl | answer
    · exact ⟨Nat.le_refl _, forward, trivial⟩
    · obtain rfl := List.mem_singleton.mp answer
      exact ⟨forward, Nat.le_refl _, trivial⟩
  · split at failure
    · obtain rfl := List.mem_singleton.mp failure
      exact ⟨forward, Nat.le_refl _, trivial⟩
    · cases failure

private theorem of_resolve_eq_ok {directory : Directory} {limits : Limits} {seed : String}
    {trace : Trace Event (List String)} (run : resolve directory limits seed start = .ok trace) :
    limits.maxWorkers ≤ permitLimit := by
  unfold resolve at run
  split at run
  next permitted => exact permitted
  next => cases run

private theorem keepsTo_resolve (directory : Directory) (limits : Limits) (seed : String) :
    Timed.KeepsTo Event.Silent (resolve directory limits seed) := by
  intro start trace run
  have whole : resolve directory limits seed start = .ok _ :=
    resolve_of_permitted (of_resolve_eq_ok run)
  obtain rfl := Except.ok.inj (run.symm.trans whole)
  obtain ⟨begun, ended⟩ := finish_le_foldl_max (visitsFrom directory limits seed start) start
  have visited : ∀ visit ∈ visitsFrom directory limits seed start,
      start ≤ visit.start ∧ visit.start ≤ visit.finish := by
    refine Search.window_of_mem_visits _ (fun _ none => (List.not_mem_nil none).elim) ?_
    intro arrival here
    obtain rfl := List.mem_singleton.mp here
    exact Nat.le_refl start
  have inside : ∀ event ∈ (visitsFrom directory limits seed start).flatMap Visit.events,
      ∃ visit ∈ visitsFrom directory limits seed start, start ≤ visit.start ∧
        visit.start ≤ event.1 ∧ event.1 ≤ visit.finish ∧ event.2.Silent := by
    intro event happens
    obtain ⟨visit, listed, part⟩ := List.mem_flatMap.mp happens
    obtain ⟨arrived, forward⟩ := visited visit listed
    exact ⟨visit, listed, arrived, visit.window_of_mem_events forward event part⟩
  refine ⟨begun, ?begun, ?ended, ?allowed⟩
  case begun =>
    intro event happens
    obtain ⟨visit, -, arrived, asked, -⟩ := inside event happens
    exact Nat.le_trans arrived asked
  case ended =>
    intro event happens
    obtain ⟨visit, listed, -, -, answered, -⟩ := inside event happens
    exact Nat.le_trans answered (ended visit listed)
  case allowed =>
    intro event happens
    obtain ⟨_, _, _, _, _, silent⟩ := inside event happens
    exact silent

end Groups

namespace Mapping

/-- Events without a publication leave the snapshot that is current. -/
theorem published_of_silent {events : List (Instant × Event)}
    (silent : ∀ event ∈ events, event.2.Silent) (current : Snapshot) :
    published current events = current := by
  induction events with
  | nil => rfl
  | cons first rest ih =>
      obtain ⟨instant, event⟩ := first
      have still := silent _ List.mem_cons_self
      cases event with
      | published snapshot => exact still.elim
      | _ => exact ih fun event happens => silent event (List.mem_cons_of_mem _ happens)

/-! ## Loads by themselves -/

namespace Settings

variable {settings : Settings} {content : Option Bytes} {definitions : Definitions}
  {snapshot : Snapshot} {start : Instant} {name role : String}

/-- What all listings of some definitions give. -/
def mappingOf (settings : Settings) (definitions : Definitions) : Snapshot :=
  Snapshot.ofGrants (definitions.listings.flatMap settings.grantsFor)

private theorem keepsTo_grantsOf (settings : Settings) (listing : Listing)
    (entry : Directory.Entry) :
    (settings.grantsOf listing entry).KeepsTo Event.Silent := by
  unfold grantsOf
  split
  next =>
    exact (Groups.keepsTo_resolve _ _ _).bind fun _ => Timed.keepsTo_pure _
  next =>
    split
    next => exact Timed.keepsTo_pure _
    next => exact (Activity.keepsTo_warn trivial).bind fun _ => Timed.keepsTo_pure _

private theorem keepsTo_lookUp (settings : Settings) (listing : Listing) :
    (settings.lookUp listing).KeepsTo Event.Silent := by
  refine (Activity.keepsTo_ask trivial trivial _).bind fun answer => ?_
  split
  next entry => exact settings.keepsTo_grantsOf listing entry
  next => exact (Activity.keepsTo_warn trivial).bind fun _ => Timed.keepsTo_pure _
  next => exact (Activity.keepsTo_warn trivial).bind fun _ => Timed.keepsTo_pure _

private theorem keepsTo_lookUpAll (settings : Settings) (listings : List Listing) :
    (settings.lookUpAll listings).KeepsTo Event.Silent := by
  induction listings with
  | nil => exact Timed.keepsTo_pure _
  | cons listing rest ih =>
      exact (settings.keepsTo_lookUp listing).bind fun _ => ih.bind fun _ => Timed.keepsTo_pure _

/-- A load fails at once, or it publishes the mapping of its content at its end. -/
theorem rebuild_cases {trace : Trace Event (Except RealmError Snapshot)}
    (run : settings.rebuild content start = .ok trace) :
    (∃ fault, Definitions.ofContent content = .error fault ∧
      trace = ⟨.error (.mappingLoad (Text.display settings.path) fault.message), start, []⟩) ∨
    ∃ definitions events finish, Definitions.ofContent content = .ok definitions ∧
      start ≤ finish ∧ (∀ event ∈ events, start ≤ event.1 ∧ event.1 ≤ finish ∧ event.2.Silent) ∧
        trace = ⟨.ok (settings.mappingOf definitions), finish,
          events ++ [(finish, .published (settings.mappingOf definitions))]⟩ := by
  unfold rebuild at run
  cases reads : Definitions.ofContent content with
  | error fault =>
      rw [reads] at run
      exact Or.inl ⟨fault, rfl, (Except.ok.inj run).symm⟩
  | ok definitions =>
      rw [reads] at run
      obtain ⟨looked, published, begins, ends, rfl⟩ := Timed.of_bind_eq_ok run
      obtain rfl := Except.ok.inj ends
      have keeps := settings.keepsTo_lookUpAll definitions.listings start looked begins
      have told := (settings.yieldsUnless_lookUpAll definitions.listings).tells start looked begins
      refine Or.inr ⟨definitions, looked.events, looked.finish, rfl, keeps.forward, ?_, ?_⟩
      · exact fun event happens =>
          ⟨keeps.begun event happens, keeps.ended event happens, keeps.allowed event happens⟩
      · rw [told]
        rfl

/-- What a load by itself answers for a content of the mapping file. -/
def answer (settings : Settings) (content : Option Bytes) : Except RealmError Snapshot :=
  match Definitions.ofContent content with
  | .error fault => .error (.mappingLoad (Text.display settings.path) fault.message)
  | .ok definitions => .ok (settings.mappingOf definitions)

/-- A load answers a snapshot if and only if the content can be read and the snapshot is the
mapping of its definitions. -/
theorem answer_eq_ok_iff : settings.answer content = .ok snapshot ↔
    ∃ definitions, Definitions.ofContent content = .ok definitions ∧
      snapshot = settings.mappingOf definitions := by
  unfold answer
  cases Definitions.ofContent content with
  | error fault => simp
  | ok definitions => simp [eq_comm]

/-- A load of a mapping file searches below a group with more workers than there can be permits. -/
def OverstepsWith (settings : Settings) (content : Option Bytes) : Prop :=
  ∃ definitions, Definitions.ofContent content = .ok definitions ∧
    ∃ listing ∈ definitions.listings, settings.Oversteps listing

/-- A rebuild comes to the answer for its content, unless a search asks for too many permits. -/
theorem yieldsUnless_rebuild (settings : Settings) (content : Option Bytes) :
    (settings.rebuild content).YieldsUnless (settings.OverstepsWith content) .tooManyWorkers
      (settings.answer content) := by
  unfold rebuild answer OverstepsWith
  cases reads : Definitions.ofContent content with
  | error fault => exact (Timed.yields_pure _).yieldsUnless (by simp) _
  | ok definitions =>
      have publishes : Timed.Yields (do
          Timed.record (.published (settings.mappingOf definitions))
          return .ok (settings.mappingOf definitions) : Activity (Except RealmError Snapshot))
          (.ok (settings.mappingOf definitions)) :=
        (Timed.yields_record _).bind (Timed.yields_pure _)
      refine Timed.YieldsUnless.of_iff ?_
        ((settings.yieldsUnless_lookUpAll definitions.listings).bind_yields publishes)
      simp

/-- Whenever a rebuild comes to something, it is the answer for its content. -/
theorem tells_rebuild (settings : Settings) (content : Option Bytes) :
    (settings.rebuild content).Tells (settings.answer content) :=
  (settings.yieldsUnless_rebuild content).tells

/-- Where there are permits for all workers, no content asks for more. -/
theorem not_overstepsWith (permitted : settings.limits.maxWorkers ≤ Groups.permitLimit)
    (content : Option Bytes) : ¬settings.OverstepsWith content := by
  rintro ⟨_, _, _, _, oversteps⟩
  exact Nat.not_lt.mpr permitted oversteps.1

/-- Where there are permits for all workers, a rebuild comes to the answer for its content. -/
theorem yields_rebuild (permitted : settings.limits.maxWorkers ≤ Groups.permitLimit)
    (content : Option Bytes) : (settings.rebuild content).Yields (settings.answer content) :=
  (settings.yieldsUnless_rebuild content).yields (not_overstepsWith permitted content)

/-- A refresh comes to its end, unless a search asks for too many permits. -/
theorem yieldsUnless_refresh (settings : Settings) (content : Option Bytes) :
    (settings.refresh content).YieldsUnless (settings.OverstepsWith content) .tooManyWorkers () := by
  refine (settings.yieldsUnless_rebuild content).bind_yields ?_
  cases settings.answer content with
  | ok snapshot => exact Timed.yields_pure _
  | error fault => exact Activity.yields_warn _

/-! ## Loads among other things -/

/-- A load of some definitions comes to a snapshot: by itself, or in some order of its searches. -/
def Loads (settings : Settings) (definitions : Definitions) (snapshot : Snapshot) : Prop :=
  (∃ content start trace, Definitions.ofContent content = .ok definitions ∧
    settings.rebuild content start = .ok trace ∧ trace.value = .ok snapshot) ∨
  settings.Maps definitions snapshot

/-- The mapping of some definitions is what a load of them comes to by itself. -/
theorem loads_mappingOf (permitted : settings.limits.maxWorkers ≤ Groups.permitLimit)
    (reads : Definitions.ofContent content = .ok definitions) :
    settings.Loads definitions (settings.mappingOf definitions) := by
  obtain ⟨trace, run, value⟩ := yields_rebuild permitted content 0
  have answers : settings.answer content = .ok (settings.mappingOf definitions) :=
    answer_eq_ok_iff.mpr ⟨definitions, reads, rfl⟩
  exact Or.inl ⟨content, 0, trace, reads, run, value.trans answers⟩

private theorem Loads.principals_eq (loads : settings.Loads definitions snapshot) :
    snapshot.principals = (settings.mappingOf definitions).principals := by
  obtain ⟨content, start, trace, reads, run, value⟩ | maps := loads
  · rw [settings.tells_rebuild content start trace run] at value
    obtain ⟨others, reads', rfl⟩ := answer_eq_ok_iff.mp value
    rw [Except.ok.inj (reads.symm.trans reads')]
  · exact maps.principals_eq

/-- A principal has the roles under which an identity is listed that stands for it. -/
theorem Loads.mem_principalRoles (loads : settings.Loads definitions snapshot) :
    role ∈ snapshot.principalRoles name ↔ ∃ definition ∈ definitions,
      (∃ identity ∈ definition.identities, cleanIdentity identity ≠ "" ∧
        settings.GivesPrincipal (cleanIdentity identity) name) ∧
      role = Text.lowercase definition.role := by
  rw [Snapshot.principalRoles, RoleTable.roles, loads.principals_eq, mappingOf,
    Snapshot.principals_ofGrants, RoleTable.lookup_ofPairs, RoleTable.getD_present,
    Definitions.eraseDups_granted settings.mem_principalPairs, Definitions.mem_rolesGiving]

end Settings

end Mapping

end SpnegoRealm
