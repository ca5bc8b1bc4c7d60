import SpnegoRealm.Proofs.Overlap.Watching

/-! # The conduct of a watch

What a watch does in every history (`SpnegoRealm.Overlap.Watcher.Conduct`): it makes one rebuild for
each report that it takes and that concerns the mapping file, in their order, one after the other, each
of what the mapping file is when it starts; it drops every other report; and once it is over, nothing
changes any more. The main theorem adds that a watch goes on until it is over, and that the function
that runs it does the same turn by turn
(`SpnegoRealm.Overlap.Watcher.watch_rebuilds_for_each_change`).
-/

namespace SpnegoRealm.Overlap

open Mapping Refresh

namespace Rebuild

variable {settings : Settings} {content : Option Bytes} {stage later : Stage} {action : Action}
  {past steps : List (Action × Option Bytes)}

/-- After its call a rebuild read some content of the mapping file at once, and never again. -/
def Begins (past : List (Action × Option Bytes)) (content : Option Bytes) : Prop :=
  ∃ steps seen, past = steps ++ [(.read, content), (.call, seen)] ∧ readings steps = []

private theorem Begins.readings_eq (begins : Begins past content) : readings past = [content] := by
  obtain ⟨steps, seen, rfl, none⟩ := begins
  unfold readings at none ⊢
  rw [List.filterMap_append, none]
  rfl

/-- How the steps of a rebuild begin that has come to a stage. -/
def Stage.Opens (past : List (Action × Option Bytes)) : Stage → Prop
  | idle => past = []
  | called => ∃ seen, past = [(.call, seen)]
  | cancelled => True
  | _ => ∃ content, Begins past content

private theorem Begins.next (begins : Begins past content) (seen : Option Bytes)
    (other : action ≠ .read) :
    Begins ((action, seen) :: past) content := by
  obtain ⟨steps, first, rfl, none⟩ := begins
  refine ⟨(action, seen) :: steps, first, rfl, ?_⟩
  cases action with
  | read => exact (other rfl).elim
  | _ => exact none

private theorem opens_of_course (course : Course (Move settings) .idle past stage) :
    stage.Opens past := by
  induction course with
  | start => rfl
  | @next past stage later action seen _ move ih =>
      cases move with
      | call =>
          obtain rfl : past = [] := ih
          exact ⟨seen, rfl⟩
      | read =>
          obtain ⟨first, rfl⟩ : ∃ first, past = [(.call, first)] := ih
          exact ⟨seen, [], first, rfl, rfl⟩
      | refuse =>
          obtain ⟨first, rfl⟩ : ∃ first, past = [(.call, first)] := ih
          exact ⟨seen, [], first, rfl, rfl⟩
      | cancel => trivial
      | _ =>
          obtain ⟨content, begins⟩ : ∃ content, Begins past content := ih
          refine ⟨content, begins.next seen ?_⟩
          nofun

private theorem begins_of_published {snapshot : Snapshot}
    (course : Course (Move settings) .idle past (.published snapshot)) :
    ∃ content definitions, Begins past content ∧ Definitions.ofContent content = .ok definitions ∧
      settings.Maps definitions snapshot := by
  obtain ⟨content, begins⟩ : ∃ content, Begins past content := opens_of_course course
  obtain ⟨other, definitions, one, reads, maps⟩ := maps_of_published course
  obtain rfl := List.singleton_inj.mp (begins.readings_eq.symm.trans one)
  exact ⟨content, definitions, begins, reads, maps⟩

private theorem begins_of_refused {fault : Fault}
    (course : Course (Move settings) .idle past (.refused fault)) :
    ∃ content, Begins past content ∧ Definitions.ofContent content = .error fault := by
  obtain ⟨content, begins⟩ : ∃ content, Begins past content := opens_of_course course
  obtain ⟨other, one, fails⟩ := holds_of_course course
  obtain rfl := List.singleton_inj.mp (begins.readings_eq.symm.trans one)
  exact ⟨content, begins, fails⟩

/-- Whether a rebuild has published or found that it cannot. -/
def Stage.hasEnded : Stage → Bool
  | published _ | refused _ => true
  | _ => false

/-- A rebuild that has taken a step was called. -/
theorem ne_idle_of_mem (course : Course (Move settings) .idle past stage)
    {step : Action × Option Bytes} (taken : step ∈ past) : stage ≠ .idle := by
  rintro rfl
  obtain rfl : past = [] := opens_of_course course
  cases taken

end Rebuild

namespace Watcher

variable {settings : Settings} {file : Option Bytes} {current : Snapshot}
  {past : List (Action × Watcher)} {watcher later : Watcher} {action : Action} {name : ℕ}

/-! ## The rebuilds that were called for -/

private theorem History.lt_of_mem_stepsOf (history : History settings file current past watcher)
    {step : Rebuild.Action × Option Bytes} (taken : step ∈ stepsOf past name) :
    name < (watcher.alarms settings).length :=
  not_le.mp fun many =>
    Rebuild.ne_idle_of_mem (history.rebuild_course name) taken (history.sound.fresh name many)

private theorem hasEnded_withRebuild {other : ℕ} (apart : name ≠ other)
    (ended : (watcher.world.rebuilds name).hasEnded = true) (action : Rebuild.Action)
    (stage : Rebuild.Stage) :
    ((watcher.withRebuild other action stage).world.rebuilds name).hasEnded = true := by
  have still := Function.update_of_ne apart stage watcher.world.rebuilds
  exact (congrArg Rebuild.Stage.hasEnded still).trans ended

private theorem Phase.rebuilding_ne {other : ℕ} (apart : name ≠ other) :
    Phase.rebuilding other ≠ .rebuilding name :=
  fun same => apart (Phase.rebuilding.inj same).symm

/-- A rebuild of a watch is the one that the watch waits for, or it has come to its end. -/
theorem History.ended (history : History settings file current past watcher)
    (called : name < (watcher.alarms settings).length) :
    watcher.phase = .rebuilding name ∨ (watcher.world.rebuilds name).hasEnded = true ∨
      watcher.world.rebuilds name = .cancelled ∧ watcher.phase = .finished := by
  induction history with
  | start => cases called
  | @next past watcher _ _ history step ih =>
      -- A watch that listens, or waits for another rebuild, has this one behind it.
      have behind {phase : Phase} (at' : watcher.phase = phase) (apart : phase ≠ .rebuilding name)
          (goesOn : phase ≠ .finished) (before : name < (watcher.alarms settings).length) :
          (watcher.world.rebuilds name).hasEnded = true := by
        subst at'
        exact ((ih before).resolve_left apart).resolve_right fun cut => goesOn cut.2
      cases step with
      | edit => exact ih called
      | hear => exact ih called
      | close => exact ih called
      | ignore listens _ other =>
          rw [alarms_take_of_other other] at called
          exact ih called
      | @call report rest other listens _ concerns counts =>
          by_cases same : name = other
          · exact Or.inl (same ▸ rfl)
          · have one : name < (watcher.alarms settings ++ [report]).length :=
              alarms_take_of_concerns concerns rest ▸ called
            rw [List.length_append, List.length_singleton, ← counts] at one
            have before := Nat.lt_of_le_of_ne (Nat.le_of_lt_succ one) same
            have ended := behind listens nofun nofun (counts ▸ before)
            exact Or.inr (Or.inl (hasEnded_withRebuild same ended _ _))
      | @work other _ stage rebuilds =>
          by_cases same : name = other
          · exact Or.inl (same ▸ rebuilds)
          · have apart := Phase.rebuilding_ne same
            have ended := behind rebuilds apart nofun called
            exact Or.inr (Or.inl (hasEnded_withRebuild same ended _ _))
      | @resume other rebuilds ended =>
          by_cases same : name = other
          · subst same
            refine Or.inr (Or.inl ?_)
            rcases ended with ⟨_, ended⟩ | ⟨_, ended⟩
            · exact congrArg Rebuild.Stage.hasEnded ended
            · exact congrArg Rebuild.Stage.hasEnded ended
          · have apart := Phase.rebuilding_ne same
            exact Or.inr (Or.inl (behind rebuilds apart nofun called))
      | leave listens => exact Or.inr (Or.inl (behind listens nofun nofun called))
      | cancel listens => exact Or.inr (Or.inl (behind listens nofun nofun called))
      | @interrupt other rebuilds =>
          by_cases same : name = other
          · subst same
            exact Or.inr (Or.inr ⟨rebuilds_withRebuild _ _ _ _, rfl⟩)
          · have apart := Phase.rebuilding_ne same
            have ended := behind rebuilds apart nofun called
            exact Or.inr (Or.inl (hasEnded_withRebuild same ended _ _))

/-! ## Everything that holds of a watch -/

/-- What holds of a watch at any moment, after all that has happened. -/
structure Conduct (settings : Settings) (first : Snapshot) (past : List (Action × Watcher))
    (watcher : Watcher) : Prop where
  /-- Reports are taken in the order in which they are heard. -/
  heard : collect Action.heard? past = watcher.taken ++ watcher.waiting
  /-- Each one taken that concerns the mapping file calls for one rebuild, in this order, -/
  called : collect Action.called? past =
    (watcher.taken.filter (Report.concerns settings.path)).zipIdx
  /-- and every other one is dropped. -/
  ignored : collect Action.ignored? past =
    watcher.taken.filter fun report => !report.concerns settings.path
  /-- A report that is dropped changes nothing, -/
  untouched : ∀ report later, Step settings watcher (.ignore report) later →
    later.world = watcher.world ∧ later.phase = watcher.phase
  /-- and only rebuilds that were called for take steps. -/
  worked : ∀ name, stepsOf past name ≠ [] → name < (watcher.alarms settings).length
  /-- A rebuild goes on only while the watch waits for it, -/
  going : ∀ name, (watcher.world.rebuilds name).isGoing = true → watcher.phase = .rebuilding name
  /-- which is the last one; -/
  latest : ∀ name, watcher.phase = .rebuilding name → name + 1 = (watcher.alarms settings).length
  /-- the others have published or failed, unless the watch was cancelled. -/
  ended : ∀ name < (watcher.alarms settings).length,
    watcher.phase = .rebuilding name ∨ (watcher.world.rebuilds name).hasEnded = true ∨
      watcher.world.rebuilds name = .cancelled ∧ watcher.phase = .finished
  /-- A rebuild publishes the complete mapping of the content that it read when it started. -/
  published : ∀ name snapshot, watcher.world.rebuilds name = .published snapshot →
    ∃ content definitions, Rebuild.Begins (stepsOf past name) content ∧
      Definitions.ofContent content = .ok definitions ∧ settings.Maps definitions snapshot
  /-- It fails only if this content cannot be used. -/
  refused : ∀ name fault, watcher.world.rebuilds name = .refused fault →
    ∃ content, Rebuild.Begins (stepsOf past name) content ∧
      Definitions.ofContent content = .error fault
  /-- The snapshot of the last rebuild that published is current. -/
  current : watcher.world.current =
    ((publications watcher.world.rebuilds (watcher.alarms settings).length).getLast?).getD first
  /-- A watch is over when it has left or was cancelled, and not before. -/
  finished : watcher.phase = .finished ↔ ∃ moment ∈ past, moment.1.isEnd = true
  /-- It leaves when its source is closed and no report is left. -/
  left : ∀ seen, (.leave, seen) ∈ past → seen.closed = true ∧ seen.waiting = []
  /-- Once it is over, it does nothing more, and what is current stays so. -/
  still : ∀ action seen, (action, seen) ∈ past → seen.phase = .finished →
    action.isOwn = false ∧ watcher.world.current = seen.world.current
  /-- A rebuild that was interrupted has published nothing. -/
  interrupted : ∀ name seen, (.interrupt name, seen) ∈ past →
    ∀ snapshot other, (.work name (.publish snapshot), other) ∉ past
  /-- If the mapping file has no name, no rebuild ever takes a step. -/
  nameless : Path.fileName? settings.path = none →
    (∀ name, stepsOf past name = []) ∧ watcher.world.current = first

private theorem alarms_of_nameless (nameless : Path.fileName? settings.path = none)
    (watcher : Watcher) :
    watcher.alarms settings = [] := by
  refine List.filter_eq_nil_iff.mpr fun report _ concerns => ?_
  obtain ⟨_, _, name, -, -, named, -⟩ := Report.concerns_iff.mp concerns
  cases nameless.symm.trans named

/-- Every history of a watch keeps to its conduct. -/
theorem History.conduct (history : History settings file current past watcher) :
    Conduct settings current past watcher where
  heard := history.heard_eq
  called := history.called_eq
  ignored := history.ignored_eq
  untouched report later step := by
    cases step
    exact ⟨rfl, rfl⟩
  worked name worked := by
    obtain ⟨step, taken⟩ := List.exists_mem_of_ne_nil _ worked
    exact history.lt_of_mem_stepsOf taken
  going := history.sound.going
  latest := history.sound.latest
  ended name called := history.ended called
  published name snapshot ended := by
    have course := history.rebuild_course name
    rw [ended] at course
    exact Rebuild.begins_of_published course
  refused name fault ended := by
    have course := history.rebuild_course name
    rw [ended] at course
    exact Rebuild.begins_of_refused course
  current := history.current_eq
  finished := history.phase_eq_finished_iff
  left seen left := by
    obtain ⟨earlier, next, -, step⟩ := history.of_mem left
    cases step with
    | leave _ none isClosed => exact ⟨isClosed, none⟩
  still action seen happened finished := by
    obtain ⟨earlier, next, -, step⟩ := history.of_mem happened
    exact ⟨step.isOwn_of_finished finished, (history.current_of_finished happened finished).2⟩
  interrupted name seen interrupted snapshot other :=
    history.not_published_of_interrupted interrupted snapshot
  nameless nameless := by
    have none := alarms_of_nameless nameless watcher
    refine ⟨fun name => List.eq_nil_iff_forall_not_mem.mpr fun step taken => ?_, ?_⟩
    · have called := history.lt_of_mem_stepsOf taken
      rw [none] at called
      exact Nat.not_lt_zero _ called
    · rw [history.current_eq, none]
      rfl

/-! ## Watching -/

/-- **A watch makes one rebuild for each change of the mapping file.** A report concerns the mapping
file if it tells of something created or modified at paths among which one ends in the name of this
file. In every history in which reports are heard, the mapping file is written and removed, and the
watch is cancelled at any moments, the watch conducts itself as told by `Conduct`. Until it is over, it
goes on unless it waits for reports, and it can be cancelled; left to itself, it does not go on forever.
Only more workers than there can be permits can stop it otherwise. The function that runs a watch takes
the notices in turns. It asks the directory only in turns for reports that concern the mapping file, and
publishes what the last round came to that had ended by then, before the watch was cancelled, and did
not fail. So it goes one of the ways that a watch can go. -/
theorem watch_rebuilds_for_each_change (settings : Settings) :
    (∀ report : Report, report.concerns settings.path = true ↔ ∃ kind paths name,
      report = .change kind paths ∧ (kind = .created ∨ kind = .modified) ∧
        Path.fileName? settings.path = some name ∧
          ∃ changed ∈ paths, Path.fileName? changed = some name) ∧
    (∀ file current past watcher, History settings file current past watcher →
      Conduct settings current past watcher ∧
      (settings.limits.maxWorkers ≤ Groups.permitLimit → watcher.phase ≠ .finished →
        ((watcher.phase = .listening ∧ watcher.waiting = [] ∧ watcher.closed = false) ∨
          ∃ action later, Step settings watcher action later ∧ action.isOwn = true ∧
            (action.isEnd = true → action = .leave)) ∧
        ∃ action later, Step settings watcher action later ∧
          (action.isEnd = true ∧ action ≠ .leave ∨ action = .resume)) ∧
      (settings.directory.FoldsCase →
        (∀ identity, (settings.directory.below (Text.lowercase identity)).Finite) →
          ¬ ∃ watchers : ℕ → Watcher, watchers 0 = watcher ∧
            ∀ index, Follows settings (watchers (index + 1)) (watchers index))) ∧
    ∀ (files : FileHistory) (notices : List Notice) (start : Instant) (cancelled : Option Instant),
      (settings.limits.maxWorkers ≤ Groups.permitLimit → ∃ events,
        watch settings.path (refreshFrom settings files) notices start cancelled = .ok events) ∧
      ∀ events, watch settings.path (refreshFrom settings files) notices start cancelled = .ok events →
        ∃ turns, Account settings files notices start cancelled events turns ∧
          (∀ instant request, (instant, .asked request) ∈ events → ∃ turn ∈ turns,
            turn.notice.report.concerns settings.path = true ∧ turn.start ≤ instant ∧
              instant ≤ turn.finish ∧ inTime cancelled instant = true) ∧
          (∀ now current, published current (Questions.upTo now events) =
            (((turns.filter fun turn => turn.finish ≤ now ∧ inTime cancelled turn.finish).filterMap
              Turn.snapshot?).getLast?).getD current) ∧
          (settings.directory.FoldsCase → settings.limits.maxWorkers ≤ Groups.permitLimit →
            ∀ file current, ∃ past watcher, History settings file current past watcher ∧
              watcher.phase = .finished ∧ watcher.closed = cancelled.isNone ∧
              collect Action.heard? past = notices.map Notice.report ∧
              watcher.taken = (turns.filter fun turn => inTime cancelled turn.start).map
                (·.notice.report) ∧
              watcher.world.current = published current events) := by
  refine ⟨fun report => Report.concerns_iff, ?histories, ?runs⟩
  case histories =>
    intro file current past watcher history
    refine ⟨history.conduct, fun permitted goesOn => ⟨?goesOn, ?cancels⟩, fun folds finite => ?ends⟩
    case goesOn => exact (history.waits_or_step permitted).resolve_left goesOn
    case cancels => exact history.cancel_or_resume permitted goesOn
    case ends =>
      intro endless
      exact not_acc_iff_exists_descending_chain.mpr endless (history.accessible folds finite)
  case runs =>
    intro files notices start cancelled
    refine ⟨fun permitted => exists_watch permitted files notices start cancelled, ?accounts⟩
    intro events run
    obtain ⟨turns, account⟩ := exists_account_of_watch run
    refine ⟨turns, account, fun _ _ => account.exists_turn_of_asked, account.published_upTo, ?_⟩
    intro folds permitted file current
    obtain ⟨past, watcher, history, finished, closed, heard, taken, same⟩ :=
      exists_history_of_turns folds permitted account.made file current cancelled
    refine ⟨past, watcher, history, finished, closed, ?_, taken, ?_⟩
    · rw [heard, ← account.notices, List.map_map]
      rfl
    · rw [same, account.published_events]

/-- The realm of the hall, with a mapping file that has a name. -/
def porch : Settings := { hall with path := [0x2F, 0x6D] }

/-- Something was modified, and the mapping file of the porch among other things. -/
def alert : Report := .change .modified [[0x6E], [0x6D, 0x2F]]

/-- Of four reports, the first one concerns another file. The second one brings the user, the third one
comes when the mapping file was removed, and the watch is cancelled before it takes the fourth one. -/
theorem watch_rebuilds_for_each_change_of_porch :
    (∃ past watcher, History porch (some (Text.utf8 hallFile)) .empty past watcher ∧
      collect Action.heard? past = [.change .created [[0x6E]], alert, alert, alert] ∧
      collect Action.called? past = [(alert, 0), (alert, 1)] ∧ watcher.phase = .finished ∧
      watcher.world.current = porch.mappingOf [⟨"Ops", ["CN=U"]⟩] ∧
      Conduct porch .empty past watcher ∧
      ¬ ∃ watchers : ℕ → Watcher, watchers 0 = watcher ∧
        ∀ index, Follows porch (watchers (index + 1)) (watchers index)) ∧
    ∃ events turns past watcher,
      watch porch.path (refreshFrom porch fun _ => none) [⟨3, alert⟩] 0 (some 5) = .ok events ∧
      Account porch (fun _ => none) [⟨3, alert⟩] 0 (some 5) events turns ∧
      History porch none .empty past watcher ∧ watcher.phase = .finished ∧
      watcher.world.current = published .empty events := by
  have folds : porch.directory.FoldsCase := Directory.Catalog.toDirectory_foldsCase _
  have permitted : porch.limits.maxWorkers ≤ Groups.permitLimit := by decide
  obtain ⟨-, histories, runs⟩ := watch_rebuilds_for_each_change porch
  refine ⟨?history, ?run⟩
  case history =>
    have listings : Definitions.listings [⟨"Ops", ["CN=U"]⟩] = [⟨"ops", "CN=U"⟩] := by
      decide +kernel
    have reads : Rebuild.Move porch (some (Text.utf8 hallFile)) .called .read
        (.mapping .empty [⟨"ops", "CN=U"⟩]) := listings ▸ .read ofContent_hallFile
    have found : porch.direct? ⟨"ops", "CN=U"⟩ = some [.principal "u" "ops"] := by decide +kernel
    have begun : History porch (some (Text.utf8 hallFile)) .empty [] (initial _ _) := .start
    have stray := begun.next (.hear rfl : Step porch _ (.hear (.change .created [[0x6E]])) _)
    have heard := ((stray.next (.hear rfl : Step porch _ (.hear alert) _)).next
      (.hear rfl : Step porch _ (.hear alert) _)).next (.hear rfl : Step porch _ (.hear alert) _)
    have ignored := heard.next (.ignore rfl rfl (by decide) : Step porch _ (.ignore _) _)
    have first := ignored.next (.call rfl rfl (by decide) rfl : Step porch _ (.call 0 alert) _)
    have read := first.next (.work rfl reads nofun : Step porch _ (.work 0 .read) _)
    have removed := read.next (.edit : Step porch _ (.edit none) _)
    have mapped := removed.next (.work rfl (.settle found) nofun : Step porch _ (.work 0 .lookUp) _)
    have published := mapped.next (.work rfl .publish nofun : Step porch _ (.work 0 (.publish _)) _)
    have resumed := published.next (.resume rfl (Or.inl ⟨_, rfl⟩))
    have second := resumed.next (.call rfl rfl (by decide) rfl : Step porch _ (.call 1 alert) _)
    have refused := second.next (.work rfl (.refuse rfl) nofun : Step porch _ (.work 1 .read) _)
    have resumed' := refused.next (.resume rfl (Or.inr ⟨_, rfl⟩))
    have cancelled := resumed'.next (.cancel rfl)
    obtain ⟨conduct, -, ends⟩ := histories _ _ _ _ cancelled
    refine ⟨_, _, cancelled, conduct.heard, ?_, rfl, ?_, conduct, ends folds fun _ => ?_⟩
    · rw [conduct.called]
      decide
    · decide +kernel
    · exact Directory.Catalog.below_finite _ _
  case run =>
    obtain ⟨goes, tells⟩ := runs (fun _ => none) [⟨3, alert⟩] 0 (some 5)
    obtain ⟨events, run⟩ := goes permitted
    obtain ⟨turns, account, -, -, ways⟩ := tells events run
    obtain ⟨past, watcher, history, finished, -, -, -, current⟩ := ways folds permitted none .empty
    exact ⟨events, turns, past, watcher, run, account, history, finished, current⟩

end Watcher

end SpnegoRealm.Overlap
