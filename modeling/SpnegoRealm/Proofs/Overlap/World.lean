import Mathlib.Logic.Function.Basic
import SpnegoRealm.Proofs.Overlap.Participants

/-! # Overlapping rebuilds and calls

Any number of rebuilds and of calls share the mapping file and the current snapshot. They go on in
any order, step by step; in between the file is written and removed, the snapshot is looked at, and
rebuilds are cancelled (`SpnegoRealm.Overlap.Step`). Rebuilds are told apart by numbers; whether the
clock, a change of the file or a caller asked for one makes no difference to its steps. What one
rebuild or call does in such a history is a course of this participant alone
(`SpnegoRealm.Overlap.History.rebuild_course` and `SpnegoRealm.Overlap.History.call_course`).

At every moment the current snapshot is the empty one of the start, or the complete mapping of the one
file that the rebuild read which published last, and every call answers what one such snapshot tells
(`SpnegoRealm.Overlap.current_snapshot_is_whole`).
-/

namespace SpnegoRealm.Overlap

open Mapping

/-- The mapping file, the current snapshot, and everybody who is at work. -/
structure World where
  file : Option Bytes
  current : Snapshot
  rebuilds : ℕ → Rebuild.Stage
  calls : ℕ → Call.Stage

namespace World

/-- Nothing is under way, and nobody has a role. -/
def initial (file : Option Bytes) : World where
  file := file
  current := .empty
  rebuilds := fun _ => .idle
  calls := fun _ => .idle

/-- The mapping file is another one, or missing. -/
def withFile (world : World) (file : Option Bytes) : World := { world with file := file }

/-- A rebuild has come to a stage. What it published is the current snapshot. -/
def withRebuild (world : World) (name : ℕ) (action : Rebuild.Action) (stage : Rebuild.Stage) :
    World :=
  { world with
    current := action.publication?.getD world.current
    rebuilds := Function.update world.rebuilds name stage }

/-- A call has come to a stage. -/
def withCall (world : World) (name : ℕ) (stage : Call.Stage) : World :=
  { world with calls := Function.update world.calls name stage }

end World

/-- What can happen: the file changes, the snapshot is looked at, a rebuild or a call takes a step.
-/
inductive Action where
  | write (content : Bytes)
  | remove
  | look (snapshot : Snapshot)
  | rebuild (name : ℕ) (action : Rebuild.Action)
  | call (name : ℕ) (action : Call.Action)

/-- What an action does to the world. A rebuild sees the file as it is, and a call the snapshot. -/
inductive Step (settings : Settings) : World → Action → World → Prop
  | write {world : World} {content : Bytes} :
    Step settings world (.write content) (world.withFile (some content))
  | remove {world : World} : Step settings world .remove (world.withFile none)
  | look {world : World} : Step settings world (.look world.current) world
  | rebuild {world : World} {name : ℕ} {action : Rebuild.Action} {stage : Rebuild.Stage}
    (move : Rebuild.Move settings world.file (world.rebuilds name) action stage) :
    Step settings world (.rebuild name action) (world.withRebuild name action stage)
  | call {world : World} {name : ℕ} {action : Call.Action} {stage : Call.Stage}
    (move : Call.Move world.current (world.calls name) action stage) :
    Step settings world (.call name action) (world.withCall name stage)

/-- What has happened, latest first, each action with the world before it, and where it led. -/
inductive History (settings : Settings) (file : Option Bytes) :
    List (Action × World) → World → Prop
  | start : History settings file [] (World.initial file)
  | next {past : List (Action × World)} {world later : World} {action : Action}
    (history : History settings file past world) (step : Step settings world action later) :
    History settings file ((action, world) :: past) later

variable {settings : Settings} {file : Option Bytes} {past : List (Action × World)}
  {world later : World} {action : Action}

/-! ## Participants of a history -/

/-- A step of a rebuild, with the mapping file that it could see. -/
def rebuildStep? (name : ℕ) (moment : Action × World) : Option (Rebuild.Action × Option Bytes) :=
  match moment.1 with
  | .rebuild other action => if other = name then some (action, moment.2.file) else none
  | _ => none

/-- A step of a call, with the snapshot that it could see. -/
def callStep? (name : ℕ) (moment : Action × World) : Option (Call.Action × Snapshot) :=
  match moment.1 with
  | .call other action => if other = name then some (action, moment.2.current) else none
  | _ => none

private theorem of_callStep?_eq_some {name : ℕ} {happening : Action} {seen : World}
    {step : Call.Action}
    {snapshot : Snapshot} (taken : callStep? name (happening, seen) = some (step, snapshot)) :
    happening = .call name step ∧ seen.current = snapshot := by
  unfold callStep? at taken
  cases happening with
  | call other action =>
      obtain ⟨rfl, same⟩ := Option.ite_none_right_eq_some.mp taken
      obtain ⟨rfl, rfl⟩ := Prod.mk.inj (Option.some.inj same)
      exact ⟨rfl, rfl⟩
  | _ => cases taken

/-- Among the states of a family, a step of one participant is a step of its own course. -/
theorem Course.update {σ α ε : Type} {move : ε → σ → α → σ → Prop} {first stage : σ} {seen : ε}
    {action : α} {past : List (α × ε)} {states : ℕ → σ} {name other : ℕ}
    (course : Course move first past (states name)) (step : move seen (states other) action stage) :
    Course move first ((if other = name then some (action, seen) else none).toList ++ past)
      (Function.update states other stage name) := by
  by_cases same : other = name
  · subst same
    rw [if_pos rfl, Function.update_self]
    exact course.next step
  · rw [if_neg same, Function.update_of_ne (Ne.symm same)]
    exact course

/-- What a first element comes to, if to anything, stands before the others. -/
theorem filterMap_cons_eq_toList_append {α β : Type} (change : α → Option β) (first : α)
    (rest : List α) :
    (first :: rest).filterMap change = (change first).toList ++ rest.filterMap change := by
  simp only [List.filterMap_eq_flatMap_toList, List.flatMap_cons]

/-- In a history, the steps of one rebuild are a course. -/
theorem History.rebuild_course (history : History settings file past world) (name : ℕ) :
    Course (Rebuild.Move settings) .idle (past.filterMap (rebuildStep? name))
      (world.rebuilds name) := by
  induction history with
  | start => exact .start
  | next _ step ih =>
      cases step with
      | rebuild move =>
          rw [filterMap_cons_eq_toList_append]
          exact ih.update move
      | _ => exact ih

/-- In a history, the steps of one call are a course. -/
theorem History.call_course (history : History settings file past world) (name : ℕ) :
    Course Call.Move .idle (past.filterMap (callStep? name)) (world.calls name) := by
  induction history with
  | start => exact .start
  | next _ step ih =>
      cases step with
      | call move =>
          rw [filterMap_cons_eq_toList_append]
          exact ih.update move
      | _ => exact ih

/-- The world that an action led to, given what happened since and the world now. -/
def after (recent : List (Action × World)) (world : World) : World :=
  match recent.getLast? with
  | some moment => moment.2
  | none => world

private theorem after_cons (first : Action × World) (recent : List (Action × World))
    (world : World) :
    after (first :: recent) world = after recent first.2 := by
  unfold after
  rw [List.getLast?_cons]
  cases recent.getLast? <;> rfl

/-- Every moment of a history has a history of its own, and a step leads on from it. -/
theorem History.split {recent earlier : List (Action × World)} {seen : World}
    (history : History settings file past world)
    (split : past = recent ++ (action, seen) :: earlier) :
    History settings file earlier seen ∧ Step settings seen action (after recent world) := by
  induction history generalizing recent with
  | start => cases recent <;> cases split
  | next history step ih =>
      cases recent with
      | nil =>
          obtain ⟨⟨⟩, rfl⟩ := List.cons.inj split
          exact ⟨history, step⟩
      | cons first recent =>
          obtain ⟨rfl, rest⟩ := List.cons.inj split
          rw [after_cons]
          exact ih rest

/-! ## The current snapshot -/

/-- The rebuild that an action publishes for. -/
def Action.publisher? : Action → Option ℕ
  | rebuild name (.publish _) => some name
  | _ => none

/-- The rebuild that published last. -/
def publisher? (past : List (Action × World)) : Option ℕ :=
  past.findSome? (·.1.publisher?)

/-- The contents that a rebuild has read: those of the mapping file at these moments. -/
def contentsRead (past : List (Action × World)) (name : ℕ) : List (Option Bytes) :=
  Rebuild.readings (past.filterMap (rebuildStep? name))

private theorem publisher?_cons (past : List (Action × World)) (action : Action) (world : World) :
    publisher? ((action, world) :: past) = action.publisher?.or (publisher? past) := by
  unfold publisher?
  rw [List.findSome?_cons]
  cases action.publisher? <;> rfl

/-- Only publications change the current snapshot. -/
theorem Step.current_eq (step : Step settings world action later)
    (silent : action.publisher? = none) : later.current = world.current := by
  cases step with
  | @rebuild name action stage move =>
      cases action with
      | publish snapshot => cases silent
      | _ => rfl
  | _ => rfl

/-- Nobody has published, or the last one to publish is over and its snapshot is current. -/
theorem History.current_eq_or_published (history : History settings file past world) :
    (publisher? past = none ∧ world.current = .empty) ∨
      ∃ name, publisher? past = some name ∧ world.rebuilds name = .published world.current := by
  induction history with
  | start => exact Or.inl ⟨rfl, rfl⟩
  | @next past world later action _ step ih =>
      rw [publisher?_cons]
      cases publishes : action.publisher? with
      | none =>
          rw [Option.none_or, step.current_eq publishes]
          refine ih.imp_right ?_
          rintro ⟨name, last, ended⟩
          refine ⟨name, last, ?_⟩
          cases step with
          | @rebuild other _ _ move =>
              -- A rebuild that has published takes no step.
              have apart : name ≠ other := by
                rintro rfl
                have going := move.publication?_eq.1
                rw [ended] at going
                cases going
              exact (Function.update_of_ne apart _ _).trans ended
          | _ => exact ended
      | some name =>
          refine Or.inr ⟨name, rfl, ?_⟩
          cases step with
          | @rebuild other action stage move =>
              cases action with
              | publish snapshot =>
                  obtain rfl := Option.some.inj publishes
                  have ended : stage = .published snapshot :=
                    Rebuild.Stage.eq_published_of_publication? move.publication?_eq.2
                  exact (Function.update_self _ _ _).trans ended
              | _ => cases publishes
          | _ => cases publishes

/-- A snapshot is the empty one of the start, or the complete mapping of the one content of the
mapping file that the rebuild read which published last. -/
def Whole (settings : Settings) (past : List (Action × World)) (snapshot : Snapshot) : Prop :=
  (publisher? past = none ∧ snapshot = .empty) ∨
    ∃ name content definitions, publisher? past = some name ∧
      contentsRead past name = [content] ∧ Definitions.ofContent content = .ok definitions ∧
        settings.Maps definitions snapshot

/-- At every moment of a history, the current snapshot is whole. -/
theorem History.whole (history : History settings file past world) :
    Whole settings past world.current := by
  refine history.current_eq_or_published.imp_right ?_
  rintro ⟨name, last, ended⟩
  have course := history.rebuild_course name
  rw [ended] at course
  obtain ⟨content, definitions, one, reads, maps⟩ := Rebuild.maps_of_published course
  exact ⟨name, content, definitions, last, one, reads, maps⟩

/-! ## Rebuilds that fail or are cancelled -/

private theorem mem_publications {name : ℕ} {snapshot : Snapshot} {seen : World}
    (published : (.rebuild name (.publish snapshot), seen) ∈ past) :
    snapshot ∈ Rebuild.publications (past.filterMap (rebuildStep? name)) := by
  refine List.mem_filterMap.mpr ⟨(.publish snapshot, seen.file), ?_, rfl⟩
  exact List.mem_filterMap.mpr ⟨_, published, if_pos rfl⟩

/-- A rebuild that read a file which cannot be used, or that was cancelled. -/
def Failed (past : List (Action × World)) (name : ℕ) : Prop :=
  (∃ content ∈ contentsRead past name, ∃ fault, Definitions.ofContent content = .error fault) ∨
    ∃ moment ∈ past, moment.1 = .rebuild name .cancel

/-- A rebuild that failed has published nothing. -/
theorem History.not_published_of_failed (history : History settings file past world) {name : ℕ}
    (failed : Failed past name) {snapshot : Snapshot} {seen : World} :
    (.rebuild name (.publish snapshot), seen) ∉ past := by
  intro published
  have course := history.rebuild_course name
  have silent : Rebuild.publications (past.filterMap (rebuildStep? name)) = [] := by
    rcases failed with ⟨content, read, fault, fails⟩ | ⟨⟨_, seen⟩, present, rfl⟩
    · exact Rebuild.publications_of_fault course read fails
    · refine Rebuild.publications_of_cancel course (List.mem_map.mpr ⟨(.cancel, seen.file), ?_, rfl⟩)
      exact List.mem_filterMap.mpr ⟨_, present, if_pos rfl⟩
  exact List.not_mem_nil (silent ▸ mem_publications published)

/-! ## Rebuilds that run to their end -/

/-- A rebuild can take the steps that it could take by itself while nothing else happens. -/
theorem History.exists_of_steps (history : History settings file past world) {name : ℕ}
    {stage : Rebuild.Stage}
    (steps : Rebuild.Steps settings world.file (world.rebuilds name) stage) :
    ∃ more later, History settings file (more ++ past) later ∧ later.file = world.file ∧
      later.rebuilds name = stage := by
  induction steps with
  | refl => exact ⟨[], world, history, rfl, rfl⟩
  | tail _ step ih =>
      obtain ⟨more, later, longer, sameFile, reached⟩ := ih
      obtain ⟨action, move⟩ := step
      rw [← sameFile, ← reached] at move
      exact ⟨_ :: more, _, longer.next (.rebuild move), sameFile, Function.update_self _ _ _⟩

/-- **In every world a new rebuild can publish what the rebuild function answers.** -/
theorem History.exists_rebuilt (history : History settings file past world)
    (folds : settings.directory.FoldsCase)
    (permitted : settings.limits.maxWorkers ≤ Groups.permitLimit) {name : ℕ}
    (idle : world.rebuilds name = .idle) {start : Instant} {snapshot : Snapshot}
    {trace : Trace Event (Except RealmError Snapshot)}
    (run : settings.rebuild world.file start = .ok trace) (value : trace.value = .ok snapshot) :
    ∃ more later, History settings file (more ++ past) later ∧ later.file = world.file ∧
      publisher? (more ++ past) = some name ∧ later.current = snapshot := by
  have steps := Rebuild.steps_of_rebuild folds permitted run value
  rw [← idle] at steps
  obtain ⟨more, later, longer, sameFile, mapped⟩ := history.exists_of_steps steps
  have publish : Rebuild.Move settings later.file (later.rebuilds name) (.publish snapshot)
      (.published snapshot) := by
    rw [mapped]
    exact .publish
  exact ⟨_ :: more, _, longer.next (.rebuild publish), sameFile, publisher?_cons _ _ _, rfl⟩

/-! ## Every interleaving -/

/-- **The current snapshot is always whole.** In every history of overlapping rebuilds and calls, of
writes and removals of the mapping file, and of cancellations, the current snapshot is the empty one
or the complete mapping of the one content that the rebuild read which published last. If the orders
of the searches do not matter, that is what the rebuild function answers for the content. No step of
a rebuild that read a file which cannot be used, or that was cancelled, changes the current snapshot.
Every call answers what one snapshot tells that was current, and whole, at one of its steps. -/
theorem current_snapshot_is_whole (settings : Settings) (file : Option Bytes)
    (past : List (Action × World)) (world : World) (history : History settings file past world) :
    Whole settings past world.current ∧
      (settings.limits.maxWorkers ≤ Groups.permitLimit →
        (∀ identity, settings.Decided identity) → ∀ name, publisher? past = some name →
          ∃ content, contentsRead past name = [content] ∧ ∀ start, ∃ trace,
            settings.rebuild content start = .ok trace ∧ trace.value = .ok world.current) ∧
      (∀ snapshot recent seen earlier, past = recent ++ (.look snapshot, seen) :: earlier →
        snapshot = seen.current ∧ Whole settings earlier snapshot) ∧
      (∀ name, Failed past name → ∀ recent action seen earlier,
        past = recent ++ (.rebuild name action, seen) :: earlier →
          (after recent world).current = seen.current) ∧
      ∀ name credential answer, world.calls name = .answered credential answer →
        ∃ recent action seen earlier, past = recent ++ (.call name action, seen) :: earlier ∧
          (action = .load ∨ action = .answer) ∧ Whole settings earlier seen.current ∧
            answer = seen.current.authenticate credential := by
  refine ⟨history.whole, ?rebuild, ?looks, ?failed, ?calls⟩
  case rebuild =>
    intro permitted decided name last
    rcases history.whole with ⟨none, -⟩ | ⟨other, content, definitions, last', one, reads, maps⟩
    · cases last.symm.trans none
    · obtain rfl := Option.some.inj (last.symm.trans last')
      refine ⟨content, one, fun start => ?_⟩
      obtain ⟨finish, events, run⟩ := settings.rebuild_eq reads permitted start
      exact ⟨_, run, congrArg Except.ok (maps.eq_rebuild permitted decided).symm⟩
  case looks =>
    intro snapshot recent seen earlier split
    obtain ⟨before, step⟩ := history.split split
    cases step with
    | look => exact ⟨rfl, before.whole⟩
  case failed =>
    intro name failed recent action seen earlier split
    obtain ⟨-, step⟩ := history.split split
    apply step.current_eq
    cases action with
    | publish snapshot =>
        have published : (.rebuild name (.publish snapshot), seen) ∈ past := by
          rw [split]
          exact List.mem_append_right _ List.mem_cons_self
        exact (history.not_published_of_failed failed published).elim
    | _ => rfl
  case calls =>
    intro name credential answer answered
    have course := history.call_course name
    rw [answered] at course
    obtain ⟨action, snapshot, present, reads, rfl⟩ := Call.exists_seen_of_answered course
    obtain ⟨⟨happening, seen⟩, happened, taken⟩ := List.mem_filterMap.mp present
    obtain ⟨rfl, rfl⟩ := of_callStep?_eq_some taken
    obtain ⟨recent, earlier, split⟩ := List.append_of_mem happened
    exact ⟨recent, action, seen, earlier, split, reads, (history.split split).1.whole, rfl⟩

/-- A directory with one user. -/
def hall : Settings :=
  ⟨(({} : Directory.Catalog).withUser "CN=U" "u@REALM").toDirectory, [], true, ⟨2, 2⟩⟩

/-- A mapping file that lists the user of the hall. -/
def hallFile : String := "Ops: [CN=U]\n"

/-- What a rebuild reads in that file. -/
theorem ofContent_hallFile :
    Definitions.ofContent (some (Text.utf8 hallFile)) = .ok [⟨"Ops", ["CN=U"]⟩] := by
  apply Definitions.ofContent_of_lists
  decide +kernel

/-- While one rebuild goes on, the mapping file is removed, a second rebuild finds no file, and a third
one is cancelled; then the first one publishes, and the user is authenticated. -/
theorem current_snapshot_is_whole_of_hall :
    ∃ past world, History hall (some (Text.utf8 hallFile)) past world ∧
      publisher? past = some 0 ∧ Failed past 1 ∧ Failed past 2 ∧ world.current ≠ .empty ∧
      Whole hall past world.current ∧ ∃ answer,
        world.calls 0 = .answered (.negotiated ⟨"u", none, []⟩) answer ∧
        ∃ seen ∈ past, answer = seen.2.current.authenticate (.negotiated ⟨"u", none, []⟩) := by
  have listings : Definitions.listings [⟨"Ops", ["CN=U"]⟩] = [⟨"ops", "CN=U"⟩] := by decide +kernel
  have reads : Rebuild.Move hall (some (Text.utf8 hallFile)) .called .read
      (.mapping .empty [⟨"ops", "CN=U"⟩]) := listings ▸ .read ofContent_hallFile
  have found : hall.direct? ⟨"ops", "CN=U"⟩ = some [.principal "u" "ops"] := by decide +kernel
  have begun : History hall (some (Text.utf8 hallFile)) [] (World.initial _) := .start
  have first := begun.next (.rebuild .call : Step hall _ (.rebuild 0 .call) _)
  have second := first.next (.rebuild .call : Step hall _ (.rebuild 1 .call) _)
  have third := second.next (.rebuild .call : Step hall _ (.rebuild 2 .call) _)
  have read := third.next (.rebuild reads : Step hall _ (.rebuild 0 .read) _)
  have removed := read.next .remove
  have refused := removed.next (.rebuild (.refuse rfl) : Step hall _ (.rebuild 1 .read) _)
  have mapped := refused.next (.rebuild (.settle found) : Step hall _ (.rebuild 0 .lookUp) _)
  have cancelled := mapped.next (.rebuild (.cancel rfl) : Step hall _ (.rebuild 2 .cancel) _)
  have published := cancelled.next (.rebuild .publish : Step hall _ (.rebuild 0 (.publish _)) _)
  have entered := published.next
    (.call .enter : Step hall _ (.call 0 (.enter (.negotiated ⟨"u", none, []⟩))) _)
  have named : "u" ≠ "" := by decide
  have loaded := entered.next (.call (.load named) : Step hall _ (.call 0 .load) _)
  have answered := loaded.next (.call .answer : Step hall _ (.call 0 .answer) _)
  obtain ⟨whole, -, -, -, calls⟩ := current_snapshot_is_whole hall _ _ _ answered
  obtain ⟨recent, action, seen, earlier, split, -, -, told⟩ := calls 0 _ _ rfl
  refine ⟨_, _, answered, rfl, ?_, ?_, ?_, whole, _, rfl, (.call 0 action, seen), ?_, told⟩
  · exact Or.inl ⟨none, List.mem_cons_self, .missing, rfl⟩
  · exact Or.inr ⟨_, .tail _ (.tail _ (.tail _ (.tail _ (.head _)))), rfl⟩
  · decide
  · rw [split]
    exact List.mem_append_right _ List.mem_cons_self

end SpnegoRealm.Overlap
