import SpnegoRealm.Proofs.Overlap.World
import SpnegoRealm.Refresh.Watch

/-! # A watch among writes

A watch takes the reports of its source in their order. A report that concerns the mapping file calls
for a rebuild, and the next report is taken when this rebuild has ended; every other report is dropped.
All the while the mapping file is written and removed, and the source reports further changes until it
is closed. A watch is over when it is cancelled, be it while it listens or while it rebuilds, or when
its source is closed and no report is left (`SpnegoRealm.Overlap.Watcher.Step`).

The rebuilds of a watch are numbered in the order of their reports. Each is a course of its own
(`SpnegoRealm.Overlap.Watcher.History.rebuild_course`), at most the last one goes on
(`SpnegoRealm.Overlap.Watcher.Sound`), and what they publish is what becomes current
(`SpnegoRealm.Overlap.Watcher.History.current_eq`).
-/

namespace SpnegoRealm.Overlap

open Mapping Refresh

/-- What a watch is at. -/
inductive Watcher.Phase where
  | listening
  | rebuilding (name : ℕ)
  | finished

/-- A watch with the world around it, the reports that wait for it and those that it has taken. -/
structure Watcher where
  world : World
  waiting : List Report
  taken : List Report
  /-- Whether nothing more will be reported. -/
  closed : Bool
  phase : Watcher.Phase

namespace Watcher

/-- A watch that has just begun. -/
def initial (file : Option Bytes) (current : Snapshot) : Watcher where
  world := { World.initial file with current := current }
  waiting := []
  taken := []
  closed := false
  phase := .listening

/-- The reports taken that concern the mapping file. -/
def alarms (settings : Settings) (watcher : Watcher) : List Report :=
  watcher.taken.filter (Report.concerns settings.path)

/-- The first report that waits is taken. -/
def take (watcher : Watcher) (report : Report) (rest : List Report) : Watcher :=
  { watcher with waiting := rest, taken := watcher.taken ++ [report] }

/-- A rebuild of the watch has come to a stage. -/
def withRebuild (watcher : Watcher) (name : ℕ) (action : Rebuild.Action) (stage : Rebuild.Stage) :
    Watcher :=
  { watcher with world := watcher.world.withRebuild name action stage }

/-- A rebuild is at the stage to which it has come. -/
theorem rebuilds_withRebuild (watcher : Watcher) (name : ℕ) (action : Rebuild.Action)
    (stage : Rebuild.Stage) : (watcher.withRebuild name action stage).world.rebuilds name = stage := by
  change Function.update watcher.world.rebuilds name stage name = stage
  exact Function.update_self _ _ _

/-- A watch goes on to another phase. -/
def withPhase (watcher : Watcher) (phase : Phase) : Watcher := { watcher with phase := phase }

/-- What can happen around a watch, and what the watch does. -/
inductive Action where
  /-- The mapping file is written or removed. -/
  | edit (content : Option Bytes)
  | hear (report : Report)
  | close
  | ignore (report : Report)
  /-- A report is taken that calls for a rebuild. -/
  | call (name : ℕ) (report : Report)
  | work (name : ℕ) (action : Rebuild.Action)
  | resume
  | leave
  /-- The watch is cancelled while it listens. -/
  | cancel
  /-- The watch is cancelled while it rebuilds. -/
  | interrupt (name : ℕ)

/-- What an action does to a watch. What the watch may do hangs on its phase and on the reports. -/
inductive Step (settings : Settings) : Watcher → Action → Watcher → Prop
  | edit {watcher : Watcher} {content : Option Bytes} :
    Step settings watcher (.edit content) { watcher with world := watcher.world.withFile content }
  | hear {watcher : Watcher} {report : Report} (isOpen : watcher.closed = false) :
    Step settings watcher (.hear report) { watcher with waiting := watcher.waiting ++ [report] }
  | close {watcher : Watcher} (isOpen : watcher.closed = false) :
    Step settings watcher .close { watcher with closed := true }
  | ignore {watcher : Watcher} {report : Report} {rest : List Report}
    (listens : watcher.phase = .listening) (next : watcher.waiting = report :: rest)
    (other : report.concerns settings.path = false) :
    Step settings watcher (.ignore report) (watcher.take report rest)
  | call {watcher : Watcher} {report : Report} {rest : List Report} {name : ℕ}
    (listens : watcher.phase = .listening) (next : watcher.waiting = report :: rest)
    (concerns : report.concerns settings.path = true)
    (counts : name = (watcher.alarms settings).length) :
    Step settings watcher (.call name report)
      (((watcher.take report rest).withRebuild name .call .called).withPhase (.rebuilding name))
  | work {watcher : Watcher} {name : ℕ} {action : Rebuild.Action} {stage : Rebuild.Stage}
    (rebuilds : watcher.phase = .rebuilding name)
    (move : Rebuild.Move settings watcher.world.file (watcher.world.rebuilds name) action stage)
    (goesOn : action ≠ .cancel) :
    Step settings watcher (.work name action) (watcher.withRebuild name action stage)
  /-- The rebuild has published or found that it cannot. -/
  | resume {watcher : Watcher} {name : ℕ} (rebuilds : watcher.phase = .rebuilding name)
    (ended : (∃ snapshot, watcher.world.rebuilds name = .published snapshot) ∨
      ∃ fault, watcher.world.rebuilds name = .refused fault) :
    Step settings watcher .resume (watcher.withPhase .listening)
  | leave {watcher : Watcher} (listens : watcher.phase = .listening)
    (none : watcher.waiting = []) (isClosed : watcher.closed = true) :
    Step settings watcher .leave (watcher.withPhase .finished)
  | cancel {watcher : Watcher} (listens : watcher.phase = .listening) :
    Step settings watcher .cancel (watcher.withPhase .finished)
  | interrupt {watcher : Watcher} {name : ℕ} (rebuilds : watcher.phase = .rebuilding name)
    (going : (watcher.world.rebuilds name).isGoing = true) :
    Step settings watcher (.interrupt name)
      ((watcher.withRebuild name .cancel .cancelled).withPhase .finished)

/-- What has happened, latest first, each action with the watch before it, and where it led. -/
inductive History (settings : Settings) (file : Option Bytes) (current : Snapshot) :
    List (Action × Watcher) → Watcher → Prop
  | start : History settings file current [] (initial file current)
  | next {past : List (Action × Watcher)} {watcher later : Watcher} {action : Action}
    (history : History settings file current past watcher)
    (step : Step settings watcher action later) :
    History settings file current ((action, watcher) :: past) later

variable {settings : Settings} {file : Option Bytes} {current : Snapshot}
  {past : List (Action × Watcher)} {watcher later : Watcher} {action : Action}

/-! ## What has happened -/

namespace Action

/-- The report that the source makes with an action. -/
def heard? : Action → Option Report
  | hear report => some report
  | _ => none

/-- The report for which an action calls for a rebuild, and the number of this rebuild. -/
def called? : Action → Option (Report × ℕ)
  | call name report => some (report, name)
  | _ => none

/-- The report that an action drops. -/
def ignored? : Action → Option Report
  | ignore report => some report
  | _ => none

/-- The snapshot that the watch publishes with an action. -/
def published? : Action → Option Snapshot
  | work _ action => action.publication?
  | _ => none

/-- What an action is to the rebuild that it is a step of. -/
def rebuild? : Action → Option (ℕ × Rebuild.Action)
  | call name _ => some (name, .call)
  | work name action => some (name, action)
  | interrupt name => some (name, .cancel)
  | _ => none

/-- Whether the watch is over with an action. -/
def isEnd : Action → Bool
  | leave | cancel | interrupt _ => true
  | _ => false

/-- Whether an action is one of the watch itself. -/
def isOwn : Action → Bool
  | edit _ | hear _ | close => false
  | _ => true

private theorem published?_of_other {action : Action} (other : action.isOwn = false) :
    action.published? = none := by
  cases action with
  | work => cases other
  | _ => rfl

end Action

/-- The results that actions have, earliest first. -/
def collect {α : Type} (result? : Action → Option α) (past : List (Action × Watcher)) : List α :=
  past.reverse.filterMap fun moment => result? moment.1

private theorem collect_cons {α : Type} (result? : Action → Option α)
    (past : List (Action × Watcher)) :
    collect result? ((action, watcher) :: past) =
      collect result? past ++ (result? action).toList := by
  unfold collect
  rw [List.reverse_cons, List.filterMap_append, filterMap_cons_eq_toList_append, List.filterMap_nil,
    List.append_nil]

private theorem taken_append_waiting {report : Report} {rest : List Report}
    (next : watcher.waiting = report :: rest) :
    (watcher.take report rest).taken ++ rest = watcher.taken ++ watcher.waiting := by
  rw [next]
  exact List.append_assoc _ _ _

/-- **Reports are taken in the order in which they are heard.** -/
theorem History.heard_eq (history : History settings file current past watcher) :
    collect Action.heard? past = watcher.taken ++ watcher.waiting := by
  induction history with
  | start => rfl
  | next _ step ih =>
      rw [collect_cons, ih]
      cases step with
      | hear => exact List.append_assoc _ _ _
      | ignore _ next =>
          rw [← taken_append_waiting next]
          exact List.append_nil _
      | call _ next =>
          rw [← taken_append_waiting next]
          exact List.append_nil _
      | _ => exact List.append_nil _

private theorem alarms_take (settings : Settings) (watcher : Watcher) (report : Report)
    (rest : List Report) : (watcher.take report rest).alarms settings =
      watcher.alarms settings ++ [report].filter (Report.concerns settings.path) :=
  List.filter_append _ _

/-- A report that concerns the mapping file is one more alarm when it is taken. -/
theorem alarms_take_of_concerns {report : Report} (concerns : report.concerns settings.path = true)
    (rest : List Report) :
    (watcher.take report rest).alarms settings = watcher.alarms settings ++ [report] := by
  rw [alarms_take, List.filter_cons_of_pos concerns]
  rfl

private theorem length_alarms_take {report : Report}
    (concerns : report.concerns settings.path = true)
    (rest : List Report) :
    ((watcher.take report rest).alarms settings).length = (watcher.alarms settings).length + 1 := by
  rw [alarms_take_of_concerns concerns, List.length_append, List.length_singleton]

/-- A report that does not concern the mapping file is no alarm. -/
theorem alarms_take_of_other {report : Report} (other : report.concerns settings.path = false)
    (rest : List Report) :
    (watcher.take report rest).alarms settings = watcher.alarms settings := by
  rw [alarms_take, List.filter_cons_of_neg (Bool.eq_false_iff.mp other)]
  exact List.append_nil _

/-- **Each report that concerns the mapping file calls for one rebuild, in their order.** -/
theorem History.called_eq (history : History settings file current past watcher) :
    collect Action.called? past = (watcher.alarms settings).zipIdx := by
  induction history with
  | start => rfl
  | next _ step ih =>
      rw [collect_cons, ih]
      cases step with
      | ignore _ _ other =>
          rw [alarms_take_of_other other]
          exact List.append_nil _
      | @call report rest name _ _ concerns counts =>
          subst counts
          refine Eq.trans ?_ (congrArg List.zipIdx (alarms_take_of_concerns concerns rest)).symm
          rw [List.zipIdx_append, Nat.zero_add]
          rfl
      | _ => exact List.append_nil _

/-- Every other report is dropped. -/
theorem History.ignored_eq (history : History settings file current past watcher) :
    collect Action.ignored? past =
      watcher.taken.filter fun report => !report.concerns settings.path := by
  induction history with
  | start => rfl
  | next _ step ih =>
      rw [collect_cons, ih]
      cases step with
      | ignore _ _ other =>
          refine Eq.trans ?_ (List.filter_append _ _).symm
          rw [List.filter_cons_of_pos (by simp [other]), List.filter_nil]
          rfl
      | call _ _ concerns =>
          refine Eq.trans ?_ (List.filter_append _ _).symm
          rw [List.filter_cons_of_neg (by simp [concerns]), List.filter_nil]
          rfl
      | _ => exact List.append_nil _

/-! ## The rebuilds of a watch -/

/-- What is known of the rebuilds of a watch at any moment: those that were not called for are idle,
and only the last one can be under way. -/
structure Sound (called : ℕ) (rebuilds : ℕ → Rebuild.Stage) (phase : Phase) : Prop where
  fresh : ∀ name, called ≤ name → rebuilds name = .idle
  going : ∀ name, (rebuilds name).isGoing = true → phase = .rebuilding name
  latest : ∀ name, phase = .rebuilding name → name + 1 = called

namespace Sound

variable {called name : ℕ} {rebuilds : ℕ → Rebuild.Stage} {phase : Phase}

private theorem call (sound : Sound called rebuilds .listening) :
    Sound (called + 1) (Function.update rebuilds called .called) (.rebuilding called) where
  fresh other many := by
    rw [Function.update_of_ne (Nat.ne_of_gt many)]
    exact sound.fresh other (Nat.le_of_succ_le many)
  going other going := by
    by_cases same : other = called
    · rw [same]
    · rw [Function.update_of_ne same] at going
      cases sound.going other going
  latest other rebuilds := by
    obtain rfl := Phase.rebuilding.inj rebuilds
    rfl

private theorem work (sound : Sound called rebuilds (.rebuilding name)) (stage : Rebuild.Stage) :
    Sound called (Function.update rebuilds name stage) (.rebuilding name) where
  fresh other many := by
    have behind : name < other := (Nat.le_of_eq (sound.latest name rfl)).trans many
    rw [Function.update_of_ne (Nat.ne_of_gt behind)]
    exact sound.fresh other many
  going other going := by
    by_cases same : other = name
    · rw [same]
    · rw [Function.update_of_ne same] at going
      exact sound.going other going
  latest := sound.latest

private theorem rest (sound : Sound called rebuilds phase)
    (still : ∀ name, phase = .rebuilding name → (rebuilds name).isGoing = false) {next : Phase}
    (other : ∀ name, next ≠ .rebuilding name) : Sound called rebuilds next where
  fresh := sound.fresh
  going name going := by
    rw [still name (sound.going name going)] at going
    cases going
  latest name rebuilds := (other name rebuilds).elim

end Sound

private theorem Step.sound (step : Step settings watcher action later)
    (sound : Sound (watcher.alarms settings).length watcher.world.rebuilds watcher.phase) :
    Sound (later.alarms settings).length later.world.rebuilds later.phase := by
  cases step with
  | edit => exact sound
  | hear => exact sound
  | close => exact sound
  | ignore _ _ other =>
      rw [alarms_take_of_other other]
      exact sound
  | @call report rest _ listens _ concerns counts =>
      rw [listens] at sound
      subst counts
      exact length_alarms_take concerns rest ▸ sound.call
  | @work name _ stage rebuilds =>
      have worked := (rebuilds ▸ sound).work stage
      exact rebuilds ▸ worked
  | @resume name rebuilds ended =>
      refine sound.rest (fun other same => ?_) (fun _ => nofun)
      obtain rfl := Phase.rebuilding.inj (rebuilds.symm.trans same)
      rcases ended with ⟨_, ended⟩ | ⟨_, ended⟩ <;> exact congrArg Rebuild.Stage.isGoing ended
  | leave listens => exact sound.rest (fun _ same => nomatch listens.symm.trans same) (fun _ => nofun)
  | cancel listens => exact sound.rest (fun _ same => nomatch listens.symm.trans same) (fun _ => nofun)
  | @interrupt name rebuilds =>
      have worked := (rebuilds ▸ sound).work .cancelled
      refine worked.rest (fun other same => ?_) (fun _ => nofun)
      obtain rfl := Phase.rebuilding.inj same
      rw [Function.update_self]
      rfl

/-- Every history of a watch is sound. -/
theorem History.sound (history : History settings file current past watcher) :
    Sound (watcher.alarms settings).length watcher.world.rebuilds watcher.phase := by
  induction history with
  | start => exact ⟨fun _ _ => rfl, nofun, nofun⟩
  | next _ step ih => exact step.sound ih

/-- A step of a rebuild, with the mapping file that it could see. -/
def rebuildStep? (name : ℕ) (moment : Action × Watcher) : Option (Rebuild.Action × Option Bytes) :=
  match moment.1.rebuild? with
  | some (other, action) => if other = name then some (action, moment.2.world.file) else none
  | none => none

/-- What a rebuild of the watch did, latest first. -/
def stepsOf (past : List (Action × Watcher)) (name : ℕ) : List (Rebuild.Action × Option Bytes) :=
  past.filterMap (rebuildStep? name)

private theorem stepsOf_cons (past : List (Action × Watcher)) (moment : Action × Watcher)
    (name : ℕ) :
    stepsOf (moment :: past) name = (rebuildStep? name moment).toList ++ stepsOf past name :=
  filterMap_cons_eq_toList_append _ _ _

/-- In the history of a watch, the steps of one rebuild are a course. -/
theorem History.rebuild_course (history : History settings file current past watcher) (name : ℕ) :
    Course (Rebuild.Move settings) .idle (stepsOf past name) (watcher.world.rebuilds name) := by
  induction history with
  | start => exact .start
  | @next past watcher later action history step ih =>
      rw [stepsOf_cons]
      cases step with
      | @call report rest other _ _ _ counts =>
          have idle : watcher.world.rebuilds other = .idle :=
            history.sound.fresh other (Nat.le_of_eq counts.symm)
          have move : Rebuild.Move settings watcher.world.file (watcher.world.rebuilds other) .call
              .called := idle ▸ .call
          exact ih.update move
      | work _ move => exact ih.update move
      | interrupt _ going => exact ih.update (Rebuild.Move.cancel going)
      | _ => exact ih

private theorem mem_stepsOf {name : ℕ} {step : Rebuild.Action} {seen : Watcher}
    (happened : (action, seen) ∈ past) (rebuilds : action.rebuild? = some (name, step)) :
    (step, seen.world.file) ∈ stepsOf past name := by
  refine List.mem_filterMap.mpr ⟨_, happened, ?_⟩
  unfold rebuildStep?
  rw [rebuilds]
  exact if_pos rfl

/-- A rebuild that was interrupted has published nothing. -/
theorem History.not_published_of_interrupted (history : History settings file current past watcher)
    {name : ℕ} {seen other : Watcher} (interrupted : (.interrupt name, seen) ∈ past)
    (snapshot : Snapshot) : (.work name (.publish snapshot), other) ∉ past := by
  intro published
  have course := history.rebuild_course name
  have cancels : .cancel ∈ (stepsOf past name).map Prod.fst :=
    List.mem_map.mpr ⟨_, mem_stepsOf interrupted rfl, rfl⟩
  have publishes : snapshot ∈ Rebuild.publications (stepsOf past name) :=
    List.mem_filterMap.mpr ⟨_, mem_stepsOf published rfl, rfl⟩
  rw [Rebuild.publications_of_cancel course cancels] at publishes
  cases publishes

/-! ## What is current -/

/-- What the first rebuilds have published, in their order. -/
def publications (rebuilds : ℕ → Rebuild.Stage) (called : ℕ) : List Snapshot :=
  (List.range called).filterMap fun name => (rebuilds name).publication?

private theorem publications_succ (rebuilds : ℕ → Rebuild.Stage) (called : ℕ) :
    publications rebuilds (called + 1) =
      publications rebuilds called ++ (rebuilds called).publication?.toList := by
  unfold publications
  rw [List.range_succ, List.filterMap_append, filterMap_cons_eq_toList_append, List.filterMap_nil,
    List.append_nil]

private theorem publications_update (rebuilds : ℕ → Rebuild.Stage) (called : ℕ)
    (stage : Rebuild.Stage) :
    publications (Function.update rebuilds called stage) (called + 1) =
      publications rebuilds called ++ stage.publication?.toList := by
  rw [publications_succ, Function.update_self]
  refine congrArg (· ++ _) (List.filterMap_congr fun name before => ?_)
  rw [Function.update_of_ne (Nat.ne_of_lt (List.mem_range.mp before))]

/-- When the last rebuild, which has not published, comes to a stage, its publication comes last. -/
theorem publications_update_last {rebuilds : ℕ → Rebuild.Stage} {name called : ℕ}
    (last : name + 1 = called) (silent : (rebuilds name).publication? = none)
    (stage : Rebuild.Stage) : publications (Function.update rebuilds name stage) called =
      publications rebuilds called ++ stage.publication?.toList := by
  subst last
  rw [publications_update, publications_succ, silent, Option.toList_none, List.append_nil]

private theorem getD_getLast?_append_toList {α : Type} (list : List α) (last? : Option α)
    (first : α) :
    ((list ++ last?.toList).getLast?).getD first = last?.getD (list.getLast?.getD first) := by
  cases last? with
  | none => rw [Option.toList_none, List.append_nil, Option.getD_none]
  | some last => rw [Option.toList_some, List.getLast?_concat, Option.getD_some, Option.getD_some]

/-- A step of a watch adds what it publishes to the publications. -/
theorem Step.publications_eq (step : Step settings watcher action later)
    (sound : Sound (watcher.alarms settings).length watcher.world.rebuilds watcher.phase) :
    publications later.world.rebuilds (later.alarms settings).length =
      publications watcher.world.rebuilds (watcher.alarms settings).length ++
        action.published?.toList := by
  cases step with
  | ignore _ _ other =>
      rw [alarms_take_of_other other]
      exact (List.append_nil _).symm
  | @call report rest _ _ _ concerns counts =>
      subst counts
      exact length_alarms_take concerns rest ▸ publications_update _ _ .called
  | @work name action stage rebuilds move =>
      obtain ⟨silent, published⟩ := move.publication?_eq
      have last := publications_update_last (sound.latest name rebuilds) silent stage
      rwa [published] at last
  | @interrupt name rebuilds going =>
      have move : Rebuild.Move settings watcher.world.file _ .cancel .cancelled := .cancel going
      exact publications_update_last (sound.latest name rebuilds) move.publication?_eq.1 .cancelled
  | _ => exact (List.append_nil _).symm

/-- What a step of a watch publishes becomes current. -/
theorem Step.current_eq (step : Step settings watcher action later) :
    later.world.current = action.published?.getD watcher.world.current := by
  cases step <;> rfl

/-- **The snapshot of the last rebuild that published is current.** -/
theorem History.current_eq (history : History settings file current past watcher) :
    watcher.world.current =
      ((publications watcher.world.rebuilds (watcher.alarms settings).length).getLast?).getD
        current := by
  induction history with
  | start => rfl
  | next history step ih =>
      rw [step.current_eq, ih, step.publications_eq history.sound, getD_getLast?_append_toList]

/-! ## The end of a watch -/

/-- A watch is over with the action that ends it, and from then on. -/
theorem Step.phase_eq_finished_iff (step : Step settings watcher action later) :
    later.phase = .finished ↔ action.isEnd = true ∨ watcher.phase = .finished := by
  cases step with
  | edit => simp [Action.isEnd]
  | hear => simp [Action.isEnd]
  | close => simp [Action.isEnd]
  | ignore listens => simp [Action.isEnd, take, listens]
  | call listens => simp [Action.isEnd, withPhase, listens]
  | work rebuilds => simp [Action.isEnd, withRebuild, rebuilds]
  | resume rebuilds => simp [Action.isEnd, withPhase, rebuilds]
  | leave => simp [Action.isEnd, withPhase]
  | cancel => simp [Action.isEnd, withPhase]
  | interrupt => simp [Action.isEnd, withPhase]

/-- A watch is over when it has left, or was cancelled, and not before. -/
theorem History.phase_eq_finished_iff (history : History settings file current past watcher) :
    watcher.phase = .finished ↔ ∃ moment ∈ past, moment.1.isEnd = true := by
  induction history with
  | start => simp [initial]
  | next _ step ih => rw [step.phase_eq_finished_iff, ih, List.exists_mem_cons_iff]

/-- A watch that is over does nothing more. -/
theorem Step.isOwn_of_finished (step : Step settings watcher action later)
    (finished : watcher.phase = .finished) : action.isOwn = false := by
  cases step with
  | edit => rfl
  | hear => rfl
  | close => rfl
  | ignore listens => cases finished.symm.trans listens
  | call listens => cases finished.symm.trans listens
  | work rebuilds => cases finished.symm.trans rebuilds
  | resume rebuilds => cases finished.symm.trans rebuilds
  | leave listens => cases finished.symm.trans listens
  | cancel listens => cases finished.symm.trans listens
  | interrupt rebuilds => cases finished.symm.trans rebuilds

/-- What is current when a watch is over stays so. -/
theorem History.current_of_finished {seen : Watcher}
    (history : History settings file current past watcher) (happened : (action, seen) ∈ past)
    (finished : seen.phase = .finished) :
    watcher.phase = .finished ∧ watcher.world.current = seen.world.current := by
  induction history with
  | start => cases happened
  | @next past watcher later last history step ih =>
      have goesOn : watcher.phase = .finished ∧ watcher.world.current = seen.world.current := by
        rcases List.mem_cons.mp happened with same | before
        · obtain ⟨-, rfl⟩ := Prod.mk.inj same
          exact ⟨finished, rfl⟩
        · exact ih before
      obtain ⟨finished, same⟩ := goesOn
      refine ⟨step.phase_eq_finished_iff.mpr (Or.inr finished), ?_⟩
      rw [step.current_eq, Action.published?_of_other (step.isOwn_of_finished finished), same]
      rfl

/-- Every moment of a history has a history of its own, and a step leads on from it. -/
theorem History.of_mem {seen : Watcher} (history : History settings file current past watcher)
    (happened : (action, seen) ∈ past) :
    ∃ earlier next, History settings file current earlier seen ∧ Step settings seen action next := by
  induction history with
  | start => cases happened
  | @next past watcher later last history step ih =>
      rcases List.mem_cons.mp happened with same | before
      · obtain ⟨rfl, rfl⟩ := Prod.mk.inj same
        exact ⟨past, later, history, step⟩
      · exact ih before

end Watcher

end SpnegoRealm.Overlap
