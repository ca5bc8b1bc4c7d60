import SpnegoRealm.Authorization
import SpnegoRealm.Proofs.Mapping.Complete

/-! # Rebuilds and calls step by step

Between any two steps of a rebuild, or of a call that authenticates somebody, other things can happen
in a realm. So both are told here as the steps that they take by themselves, each with what it could
see at that moment (`SpnegoRealm.Overlap.Course`).

A rebuild sees the mapping file. It reads the file once; what it has built at any moment is what the
first listings of that file gave (`SpnegoRealm.Overlap.Rebuild.Stage.Holds`), so what it publishes is
a complete mapping of the file (`SpnegoRealm.Overlap.Rebuild.maps_of_published`). It can be cancelled
as long as it goes on; then it publishes nothing.

A call sees the current snapshot. It loads the snapshot once and answers what this snapshot tells
(`SpnegoRealm.Overlap.Call.exists_seen_of_answered`).
-/

namespace SpnegoRealm.Overlap

open Mapping

/-- The actions of a participant, latest first, each with what could be seen at that moment. -/
inductive Course {σ α ε : Type} (move : ε → σ → α → σ → Prop) (first : σ) :
    List (α × ε) → σ → Prop
  | start : Course move first [] first
  | next {past : List (α × ε)} {state later : σ} {action : α} {seen : ε}
    (course : Course move first past state) (step : move seen state action later) :
    Course move first ((action, seen) :: past) later

/-! ## Rebuilds -/

namespace Rebuild

/-- How far a rebuild has come. -/
inductive Stage where
  | idle
  /-- The mapping file was not read yet. -/
  | called
  | mapping (built : Snapshot) (remaining : List Listing)
  /-- The groups below a listed group are searched. -/
  | searching (built : Snapshot) (listing : Listing) (remaining : List Listing) (run : Groups.Run)
  | published (snapshot : Snapshot)
  | refused (fault : Fault)
  | crashed (crash : Crash)
  | cancelled

namespace Stage

/-- Whether a rebuild was called and has not ended. -/
def isGoing : Stage → Bool
  | called | mapping .. | searching .. => true
  | _ => false

/-- The snapshot that a rebuild has published. -/
def publication? : Stage → Option Snapshot
  | published snapshot => some snapshot
  | _ => none

/-- A rebuild with a publication has published it. -/
theorem eq_published_of_publication? {stage : Stage} {snapshot : Snapshot}
    (publishes : stage.publication? = some snapshot) : stage = published snapshot := by
  cases stage with
  | published other => exact congrArg published (Option.some.inj publishes)
  | _ => cases publishes

end Stage

/-- What a rebuild does, or what is done to it. -/
inductive Action where
  | call
  | read
  | lookUp
  | expand
  | collect
  | publish (snapshot : Snapshot)
  | cancel

/-- The snapshot that an action publishes. -/
def Action.publication? : Action → Option Snapshot
  | publish snapshot => some snapshot
  | _ => none

/-- What a rebuild may do next, given the content of the mapping file. -/
inductive Move (settings : Settings) : Option Bytes → Stage → Action → Stage → Prop
  | call {file : Option Bytes} : Move settings file .idle .call .called
  | read {file : Option Bytes} {definitions : Definitions}
    (reads : Definitions.ofContent file = .ok definitions) :
    Move settings file .called .read (.mapping .empty definitions.listings)
  /-- There is no file, or it cannot be read. -/
  | refuse {file : Option Bytes} {fault : Fault}
    (fails : Definitions.ofContent file = .error fault) :
    Move settings file .called .read (.refused fault)
  /-- The answer about a listed identity tells what it gives. -/
  | settle {file : Option Bytes} {built : Snapshot} {listing : Listing} {remaining : List Listing}
    {grants : List Grant} (found : settings.direct? listing = some grants) :
    Move settings file (.mapping built (listing :: remaining)) .lookUp
      (.mapping (grants.foldl Snapshot.add built) remaining)
  /-- The listed identity is a group: it is added, and the search below it is launched. -/
  | launch {file : Option Bytes} {built : Snapshot} {listing : Listing} {remaining : List Listing}
    {run : Groups.Run} (found : settings.direct? listing = none)
    (launched : Groups.Run.launch settings.limits listing.identity = .ok run) :
    Move settings file (.mapping built (listing :: remaining)) .lookUp
      (.searching (built.add (.group listing.identity listing.role)) listing remaining run)
  | crash {file : Option Bytes} {built : Snapshot} {listing : Listing} {remaining : List Listing}
    {crash : Crash} (found : settings.direct? listing = none)
    (failed : Groups.Run.launch settings.limits listing.identity = .error crash) :
    Move settings file (.mapping built (listing :: remaining)) .lookUp (.crashed crash)
  /-- Some task of the search takes a step. -/
  | expand {file : Option Bytes} {built : Snapshot} {listing : Listing} {remaining : List Listing}
    {run next : Groups.Run}
    (step : Groups.Run.Step settings.directory settings.limits.maxDepth run next) :
    Move settings file (.searching built listing remaining run) .expand
      (.searching built listing remaining next)
  | collect {file : Option Bytes} {built : Snapshot} {listing : Listing} {remaining : List Listing}
    {run : Groups.Run} (complete : run.IsComplete) :
    Move settings file (.searching built listing remaining run) .collect
      (.mapping (((run.found listing.identity).map (Grant.group · listing.role)).foldl
        Snapshot.add built) remaining)
  | publish {file : Option Bytes} {built : Snapshot} :
    Move settings file (.mapping built []) (.publish built) (.published built)
  | cancel {file : Option Bytes} {stage : Stage} (going : stage.isGoing = true) :
    Move settings file stage .cancel .cancelled

variable {settings : Settings} {file content : Option Bytes} {contents : List (Option Bytes)}
  {stage later : Stage} {action : Action} {past : List (Action × Option Bytes)}
  {built snapshot : Snapshot} {listing : Listing} {remaining : List Listing} {grants : List Grant}

/-- The contents of the mapping file that a rebuild has read. -/
def readings (past : List (Action × Option Bytes)) : List (Option Bytes) :=
  past.filterMap fun moment =>
    match moment.1 with
    | .read => some moment.2
    | _ => none

/-- The snapshots that a rebuild has published, latest first. -/
def publications (past : List (Action × Option Bytes)) : List Snapshot :=
  past.filterMap (·.1.publication?)

/-- One file was read, and the listings in it that do not remain gave what is built. -/
def Partly (settings : Settings) (contents : List (Option Bytes)) (built : Snapshot)
    (remaining : List Listing) : Prop :=
  ∃ content definitions, ∃ parts : List settings.Part, contents = [content] ∧
    Definitions.ofContent content = .ok definitions ∧
      definitions.listings = parts.map Settings.Part.listing ++ remaining ∧
        built = Snapshot.ofGrants (parts.flatMap Settings.Part.grants)

/-- What a rebuild that has read some files can rely on. -/
def Stage.Holds (settings : Settings) (contents : List (Option Bytes)) : Stage → Prop
  | idle | called => contents = []
  | mapping built remaining => Partly settings contents built remaining
  | searching built listing remaining run => ∃ before first,
    Partly settings contents before (listing :: remaining) ∧
      built = before.add (.group listing.identity listing.role) ∧
        settings.direct? listing = none ∧
          Groups.Run.launch settings.limits listing.identity = .ok first ∧
            Groups.Run.Reaches settings.directory settings.limits.maxDepth first run
  | published snapshot => Partly settings contents snapshot []
  | refused fault => ∃ content, contents = [content] ∧ Definitions.ofContent content = .error fault
  | crashed _ | cancelled => True

private theorem partly_empty {definitions : Definitions}
    (reads : Definitions.ofContent content = .ok definitions) :
    Partly settings [content] .empty definitions.listings :=
  ⟨content, definitions, [], rfl, reads, rfl, rfl⟩

/-- What the next listing gives is added to what is built. -/
theorem Partly.next (partly : Partly settings contents built (listing :: remaining))
    (given : settings.Gives listing grants) :
    Partly settings contents (grants.foldl Snapshot.add built) remaining := by
  obtain ⟨content, definitions, parts, one, reads, listed, rfl⟩ := partly
  refine ⟨content, definitions, parts ++ [⟨listing, grants, given⟩], one, reads, ?_, ?_⟩
  · rw [listed, List.map_append, List.append_assoc]
    rfl
  · unfold Snapshot.ofGrants
    rw [List.flatMap_append, List.foldl_append, List.flatMap_singleton]

/-- A step of a rebuild keeps what the rebuild relies on. -/
theorem Move.holds (move : Move settings file stage action later)
    (holds : stage.Holds settings (readings past)) :
    later.Holds settings (readings ((action, file) :: past)) := by
  cases move with
  | call => exact holds
  | read reads =>
      have none : readings past = [] := holds
      have one : readings ((.read, file) :: past) = [file] := congrArg (file :: ·) none
      rw [one]
      exact partly_empty reads
  | refuse fails =>
      have none : readings past = [] := holds
      exact ⟨file, congrArg (file :: ·) none, fails⟩
  | settle found => exact Partly.next holds (.direct found)
  | launch found launched => exact ⟨_, _, holds, rfl, found, launched, .refl⟩
  | crash => trivial
  | expand step =>
      obtain ⟨before, first, partly, own, found, launched, reaches⟩ := holds
      exact ⟨before, first, partly, own, found, launched, reaches.tail step⟩
  | collect complete =>
      obtain ⟨before, first, partly, rfl, found, launched, reaches⟩ := holds
      have searched : settings.Searched _ _ := ⟨first, _, launched, reaches, complete, rfl⟩
      exact partly.next (.group found searched)
  | publish => exact holds
  | cancel => trivial

/-- At every stage of a course, a rebuild can rely on what that stage says. -/
theorem holds_of_course (course : Course (Move settings) .idle past stage) :
    stage.Holds settings (readings past) := by
  induction course with
  | start => rfl
  | next _ move ih => exact move.holds ih

/-- **What a rebuild publishes is the complete mapping of the one file that it read.** -/
theorem maps_of_published (course : Course (Move settings) .idle past (.published snapshot)) :
    ∃ content definitions, readings past = [content] ∧
      Definitions.ofContent content = .ok definitions ∧ settings.Maps definitions snapshot := by
  obtain ⟨content, definitions, parts, one, reads, listed, built⟩ := holds_of_course course
  rw [List.append_nil] at listed
  exact ⟨content, definitions, one, reads, parts, listed.symm, built⟩

/-! ### Publications -/

/-- What a step publishes is what the rebuild has published after it. Before it, that was nothing.
-/
theorem Move.publication?_eq (move : Move settings file stage action later) :
    stage.publication? = none ∧ later.publication? = action.publication? := by
  cases move with
  | cancel going =>
      refine ⟨?_, rfl⟩
      cases stage with
      | published => cases going
      | _ => rfl
  | _ => exact ⟨rfl, rfl⟩

private theorem publications_cons (past : List (Action × Option Bytes)) (action : Action)
    (seen : Option Bytes) : publications ((action, seen) :: past) =
      action.publication?.toList ++ publications past := by
  cases action <;> rfl

/-- A rebuild publishes once if it comes to that, and never otherwise. -/
theorem publications_eq (course : Course (Move settings) .idle past stage) :
    publications past = stage.publication?.toList := by
  induction course with
  | start => rfl
  | next course move ih =>
      obtain ⟨before, after⟩ := move.publication?_eq
      rw [publications_cons, ih, before, after]
      exact List.append_nil _

/-- A rebuild that has read a bad file publishes nothing. -/
theorem publications_of_fault (course : Course (Move settings) .idle past stage) {fault : Fault}
    (read : content ∈ readings past) (fails : Definitions.ofContent content = .error fault) :
    publications past = [] := by
  rw [publications_eq course]
  cases stage with
  | published snapshot =>
      obtain ⟨other, definitions, one, reads, -⟩ := maps_of_published course
      rw [one, List.mem_singleton] at read
      rw [read, reads] at fails
      cases fails
  | _ => rfl

private theorem stage_of_cancel (course : Course (Move settings) .idle past stage)
    (cancels : .cancel ∈ past.map Prod.fst) : stage = .cancelled := by
  induction course with
  | start => cases cancels
  | next course move ih =>
      rcases List.mem_cons.mp cancels with now | before
      · cases move with
        | cancel => rfl
        | _ => cases now
      · obtain rfl := ih before
        cases move with
        | cancel going => rfl

/-- A rebuild that was cancelled publishes nothing. -/
theorem publications_of_cancel (course : Course (Move settings) .idle past stage)
    (cancels : .cancel ∈ past.map Prod.fst) : publications past = [] := by
  rw [publications_eq course, stage_of_cancel course cancels]
  rfl

/-! ### A rebuild by itself -/

/-- The steps of a rebuild while the mapping file does not change. -/
abbrev Steps (settings : Settings) (content : Option Bytes) : Stage → Stage → Prop :=
  Relation.ReflTransGen fun stage later => ∃ action, Move settings content stage action later

section Alone

variable (folds : settings.directory.FoldsCase)
  (permitted : settings.limits.maxWorkers ≤ Groups.permitLimit)

include folds permitted

private theorem steps_listing (content : Option Bytes) (built : Snapshot) (listing : Listing)
    (remaining : List Listing) : Steps settings content (.mapping built (listing :: remaining))
      (.mapping ((settings.grantsFor listing).foldl Snapshot.add built) remaining) := by
  rw [settings.grantsFor_eq]
  cases found : settings.direct? listing with
  | some grants => exact .single ⟨_, .settle found⟩
  | none =>
      obtain ⟨first, last, launched, reaches, complete, same⟩ :=
        Settings.searched_nested folds permitted listing.identity
      let searching (run : Groups.Run) : Stage :=
        .searching (built.add (.group listing.identity listing.role)) listing remaining run
      have search : Steps settings content (searching first) (searching last) :=
        reaches.lift searching fun _ _ step => ⟨_, .expand step⟩
      rw [same]
      exact .head ⟨_, .launch found launched⟩ (search.tail ⟨_, .collect complete⟩)

/-- A rebuild that goes on by itself can come through all its listings. -/
theorem steps_listings (content : Option Bytes) (built : Snapshot) (listings : List Listing) :
    Steps settings content (.mapping built listings)
      (.mapping ((listings.flatMap settings.grantsFor).foldl Snapshot.add built) []) := by
  induction listings generalizing built with
  | nil => exact .refl
  | cons listing rest ih =>
      rw [List.flatMap_cons, List.foldl_append]
      exact (steps_listing folds permitted content built listing rest).trans (ih _)

/-- A rebuild can go the way of the function that runs it in one piece, up to the publication. -/
theorem steps_of_rebuild {start : Instant} {trace : Trace Event (Except RealmError Snapshot)}
    (run : settings.rebuild content start = .ok trace) (value : trace.value = .ok snapshot) :
    Steps settings content .idle (.mapping snapshot []) := by
  cases reads : Definitions.ofContent content with
  | error fault =>
      unfold Settings.rebuild at run
      rw [reads] at run
      obtain rfl := Except.ok.inj run
      cases value
  | ok definitions =>
      obtain ⟨finish, events, whole⟩ := settings.rebuild_eq reads permitted start
      obtain rfl := Except.ok.inj (run.symm.trans whole)
      obtain rfl := Except.ok.inj value
      have mapped := steps_listings folds permitted content .empty definitions.listings
      exact .head ⟨_, .call⟩ (.head ⟨_, .read reads⟩ mapped)

end Alone

end Rebuild

/-! ## Calls that authenticate -/

namespace Call

/-- How far a call has come. -/
inductive Stage where
  | idle
  | entered (credential : Credential)
  /-- The roles of the remaining direct groups are still to be added. -/
  | gathering (identity : Identity) (snapshot : Snapshot) (roles : RoleSet)
    (remaining : List String)
  | answered (credential : Credential) (answer : Except RealmError User)

/-- What a call does. -/
inductive Action where
  | enter (credential : Credential)
  | load
  | gather
  | answer

/-- What a call may do next, given the current snapshot. -/
inductive Move : Snapshot → Stage → Action → Stage → Prop
  | enter {current : Snapshot} {credential : Credential} :
    Move current .idle (.enter credential) (.entered credential)
  | liveness {current : Snapshot} :
    Move current (.entered .liveness) .answer (.answered .liveness (.ok User.system))
  | nameless {current : Snapshot} {identity : Identity} (unnamed : identity.principal = "") :
    Move current (.entered (.negotiated identity)) .answer
      (.answered (.negotiated identity) (.error (.negotiation
        (.principalExtractionFailure "authentication token carries no principal"))))
  | load {current : Snapshot} {identity : Identity} (named : identity.principal ≠ "") :
    Move current (.entered (.negotiated identity)) .load
      (.gathering identity current (RoleSet.ofList (current.principalRoles identity.principal))
        identity.directGroups)
  | gather {current snapshot : Snapshot} {identity : Identity} {roles : RoleSet} {group : String}
    {remaining : List String} :
    Move current (.gathering identity snapshot roles (group :: remaining)) .gather
      (.gathering identity snapshot ((snapshot.groupRoles group).foldl RoleSet.insert roles)
        remaining)
  | answer {current snapshot : Snapshot} {identity : Identity} {roles : RoleSet} :
    Move current (.gathering identity snapshot roles []) .answer
      (.answered (.negotiated identity) (.ok ⟨identity.principal, roles⟩))

variable {stage later : Stage} {action : Action} {current : Snapshot}
  {past : List (Action × Snapshot)} {credential : Credential} {answer : Except RealmError User}

/-- What a call that has seen some snapshots can rely on. -/
def Stage.Holds (past : List (Action × Snapshot)) : Stage → Prop
  | idle | entered _ => True
  | gathering identity snapshot roles remaining => (.load, snapshot) ∈ past ∧
    identity.principal ≠ "" ∧ (remaining.flatMap snapshot.groupRoles).foldl RoleSet.insert roles =
      snapshot.rolesOf identity.principal identity.directGroups
  | answered credential answer => ∃ action snapshot, (action, snapshot) ∈ past ∧
    (action = .load ∨ action = .answer) ∧ answer = snapshot.authenticate credential

/-- A step of a call keeps what the call relies on. -/
theorem Move.holds (move : Move current stage action later) (holds : stage.Holds past) :
    later.Holds ((action, current) :: past) := by
  cases move with
  | enter => trivial
  | liveness => exact ⟨_, current, List.mem_cons_self, Or.inr rfl, rfl⟩
  | nameless unnamed => exact ⟨_, current, List.mem_cons_self, Or.inr rfl, (if_pos unnamed).symm⟩
  | load named => exact ⟨List.mem_cons_self, named, rfl⟩
  | gather =>
      obtain ⟨loaded, named, roles⟩ := holds
      rw [List.flatMap_cons, List.foldl_append] at roles
      exact ⟨List.mem_cons_of_mem _ loaded, named, roles⟩
  | @answer snapshot =>
      obtain ⟨loaded, named, rfl⟩ := holds
      refine ⟨_, snapshot, List.mem_cons_of_mem _ loaded, Or.inl rfl, ?_⟩
      exact (if_neg named).symm

private theorem holds_of_course (course : Course Move .idle past stage) : stage.Holds past := by
  induction course with
  | start => trivial
  | next _ move ih => exact move.holds ih

/-- **A call answers what one snapshot tells that was current at one of its steps.** -/
theorem exists_seen_of_answered (course : Course Move .idle past (.answered credential answer)) :
    ∃ action snapshot, (action, snapshot) ∈ past ∧ (action = .load ∨ action = .answer) ∧
      answer = snapshot.authenticate credential :=
  holds_of_course course

end Call

end SpnegoRealm.Overlap
