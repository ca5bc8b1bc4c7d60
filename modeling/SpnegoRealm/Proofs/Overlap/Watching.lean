import SpnegoRealm.Proofs.Overlap.Completion
import SpnegoRealm.Proofs.Refresh.Turns

/-! # Watching in one piece

The function that runs a watch in virtual time goes one of the ways that a watch can go: it hears all
reports, takes them turn by turn and runs every rebuild in one piece, until it is cancelled or its
source is closed (`SpnegoRealm.Overlap.Watcher.exists_history_of_turns`).
-/

namespace SpnegoRealm.Overlap

open Mapping Refresh

namespace Rebuild

variable {settings : Settings} {file : Option Bytes} {stage later : Stage} {action : Action}

/-- A step to a stage under way neither publishes nor cancels. -/
theorem Move.of_going (move : Move settings file stage action later) (going : later.isGoing = true) :
    (stage.isGoing = true ∨ stage = .idle) ∧ action ≠ .cancel ∧ action.publication? = none := by
  cases move with
  | call => exact ⟨Or.inr rfl, nofun, rfl⟩
  | publish => cases going
  | cancel => cases going
  | crash => cases going
  | refuse => cases going
  | _ => exact ⟨Or.inl rfl, nofun, rfl⟩

end Rebuild

namespace Watcher

variable {settings : Settings} {file : Option Bytes} {files : FileHistory}
  {current : Snapshot} {past : List (Action × Watcher)} {watcher : Watcher} {report : Report}
  {rest : List Report} {turns : List Turn} {now : Instant}

/-! ## A rebuild in one piece -/

/-- The watch with one of its rebuilds at another stage. -/
def withStage (watcher : Watcher) (name : ℕ) (stage : Rebuild.Stage) : Watcher :=
  { watcher with
    world := { watcher.world with rebuilds := Function.update watcher.world.rebuilds name stage } }

private theorem withRebuild_withStage (watcher : Watcher) (name : ℕ) {action : Rebuild.Action}
    (silent : action.publication? = none) (first second : Rebuild.Stage) :
    (watcher.withStage name first).withRebuild name action second = watcher.withStage name second := by
  unfold withRebuild withStage World.withRebuild
  simp only [silent, Option.getD_none, Function.update_idem]

private theorem withStage_self (watcher : Watcher) (name : ℕ) :
    watcher.withStage name (watcher.world.rebuilds name) = watcher := by
  unfold withStage
  rw [Function.update_eq_self]

private theorem rebuilds_withStage (watcher : Watcher) (name : ℕ) (stage : Rebuild.Stage) :
    (watcher.withStage name stage).world.rebuilds name = stage :=
  Function.update_self _ _ _

/-- While nothing else happens, the rebuild of a watch can take the steps that it could take by
itself. -/
theorem History.exists_work (history : History settings file current past watcher) {name : ℕ}
    {stage : Rebuild.Stage} (rebuilds : watcher.phase = .rebuilding name)
    (steps : Rebuild.Steps settings watcher.world.file (watcher.world.rebuilds name) stage)
    (going : stage.isGoing = true ∨ stage = .idle) :
    ∃ past, History settings file current past (watcher.withStage name stage) := by
  induction steps with
  | refl => exact ⟨past, (watcher.withStage_self name).symm ▸ history⟩
  | @tail stage later _ step ih =>
      obtain ⟨action, move⟩ := step
      have going : later.isGoing = true := by
        rcases going with going | rfl
        · exact going
        · cases move
      obtain ⟨before, goesOn, silent⟩ := move.of_going going
      obtain ⟨past, longer⟩ := ih before
      have move' : Rebuild.Move settings (watcher.withStage name stage).world.file
          ((watcher.withStage name stage).world.rebuilds name) action later :=
        (watcher.rebuilds_withStage name stage).symm ▸ move
      have step : Step settings (watcher.withStage name stage) (.work name action)
          (watcher.withStage name later) :=
        watcher.withRebuild_withStage name silent stage later ▸ .work rebuilds move' goesOn
      exact ⟨_, longer.next step⟩

/-- What has changed when a watch has taken some reports and a snapshot is current. -/
structure Takes (watcher : Watcher) (reports : List Report) (current : Snapshot) (later : Watcher) :
    Prop where
  taken : later.taken = watcher.taken ++ reports
  waiting : watcher.waiting = reports ++ later.waiting
  closed : later.closed = watcher.closed
  current : later.world.current = current

private theorem Takes.after {later last : Watcher} {reports : List Report} {first second : Snapshot}
    (more : later.Takes reports second last) (takes : watcher.Takes [report] first later) :
    watcher.Takes (report :: reports) second last where
  taken := by rw [more.taken, takes.taken, List.append_assoc, List.singleton_append]
  waiting := by rw [takes.waiting, more.waiting, List.cons_append, List.nil_append, List.cons_append]
  closed := more.closed.trans takes.closed
  current := more.current

/-- A rebuild that was called can go the way of a load by itself. -/
theorem History.exists_loaded (history : History settings file current past watcher) {name : ℕ}
    (rebuilds : watcher.phase = .rebuilding name) (called : watcher.world.rebuilds name = .called)
    (folds : settings.directory.FoldsCase)
    (permitted : settings.limits.maxWorkers ≤ Groups.permitLimit) :
    ∃ past later, History settings file current past later ∧
      watcher.Takes [] ((settings.answer watcher.world.file).toOption.getD watcher.world.current)
        later ∧ later.phase = .listening := by
  unfold Settings.answer
  cases reads : Definitions.ofContent watcher.world.file with
  | error fault =>
      have move : Rebuild.Move settings watcher.world.file (watcher.world.rebuilds name) .read
          (.refused fault) := called ▸ .refuse reads
      have refused := history.next (.work rebuilds move nofun)
      have ended := rebuilds_withRebuild watcher name .read (.refused fault)
      have resumed := refused.next (.resume rebuilds (Or.inr ⟨fault, ended⟩))
      exact ⟨_, _, resumed, ⟨(List.append_nil _).symm, rfl, rfl, rfl⟩, rfl⟩
  | ok definitions =>
      let snapshot := settings.mappingOf definitions
      have steps : Rebuild.Steps settings watcher.world.file (watcher.world.rebuilds name)
          (.mapping snapshot []) := by
        rw [called]
        exact .head ⟨_, .read reads⟩
          (Rebuild.steps_listings folds permitted _ .empty definitions.listings)
      obtain ⟨past, mapped⟩ := history.exists_work rebuilds steps (Or.inl rfl)
      have move : Rebuild.Move settings watcher.world.file
          ((watcher.withStage name (.mapping snapshot [])).world.rebuilds name) (.publish snapshot)
          (.published snapshot) := by
        rw [rebuilds_withStage]
        exact .publish
      have published := mapped.next (.work rebuilds move nofun)
      have ended := rebuilds_withRebuild (watcher.withStage name (.mapping snapshot [])) name
        (.publish snapshot) (.published snapshot)
      have resumed := published.next (.resume rebuilds (Or.inl ⟨snapshot, ended⟩))
      exact ⟨_, _, resumed, ⟨(List.append_nil _).symm, rfl, rfl, rfl⟩, rfl⟩

/-! ## Turn by turn -/

private theorem History.exists_heard (history : History settings file current past watcher)
    (isOpen : watcher.closed = false) (reports : List Report) :
    ∃ past, History settings file current past
      { watcher with waiting := watcher.waiting ++ reports } := by
  induction reports generalizing past watcher with
  | nil => exact ⟨past, (List.append_nil watcher.waiting).symm ▸ history⟩
  | cons report rest ih =>
      obtain ⟨past, longer⟩ := ih (history.next (.hear isOpen)) isOpen
      exact ⟨past, (List.append_assoc watcher.waiting [report] rest) ▸ longer⟩

section Next

variable (history : History settings file current past watcher) (listens : watcher.phase = .listening)
  (next : watcher.waiting = report :: rest)

include history listens next

private theorem History.exists_ignored (other : report.concerns settings.path = false) :
    ∃ past later, History settings file current past later ∧
      watcher.Takes [report] watcher.world.current later ∧ later.phase = .listening :=
  ⟨_, _, history.next (.ignore listens next other), ⟨rfl, next, rfl, rfl⟩, listens⟩

variable (concerns : report.concerns settings.path = true)

include concerns

private theorem History.exists_interrupted :
    ∃ past later, History settings file current past later ∧
      watcher.Takes [report] watcher.world.current later ∧ later.phase = .finished := by
  have called := history.next (.call listens next concerns rfl)
  have going := congrArg Rebuild.Stage.isGoing
    (rebuilds_withRebuild (watcher.take report rest) (watcher.alarms settings).length .call .called)
  exact ⟨_, _, called.next (.interrupt rfl going), ⟨rfl, next, rfl, rfl⟩, rfl⟩

/-- A watch can take a report that concerns a mapping file of any content. -/
theorem History.exists_rebuilt (folds : settings.directory.FoldsCase)
    (permitted : settings.limits.maxWorkers ≤ Groups.permitLimit) (content : Option Bytes) :
    ∃ past later, History settings file current past later ∧
      watcher.Takes [report] ((settings.answer content).toOption.getD watcher.world.current) later ∧
        later.phase = .listening := by
  have edited := history.next (.edit : Step settings watcher (.edit content) _)
  have called := edited.next (.call listens next concerns rfl)
  obtain ⟨past, later, longer, loads, goesOn⟩ :=
    called.exists_loaded rfl (rebuilds_withRebuild (take _ _ _) _ _ _) folds permitted
  exact ⟨past, later, longer, loads.after ⟨rfl, next, rfl, rfl⟩, goesOn⟩

end Next

/-- Of a turn that is over in time, a watch can publish what it comes to. -/
theorem History.exists_turn (history : History settings file current past watcher)
    (folds : settings.directory.FoldsCase)
    (permitted : settings.limits.maxWorkers ≤ Groups.permitLimit) {turn : Turn}
    (fits : turn.Fits settings files) (listens : watcher.phase = .listening)
    (next : watcher.waiting = turn.notice.report :: rest) :
    ∃ past later, History settings file current past later ∧
      watcher.Takes [turn.notice.report] (turn.snapshot?.getD watcher.world.current) later ∧
        later.phase = .listening := by
  cases fits with
  | ignore other => exact history.exists_ignored listens next other
  | @refresh notice round concerns reads =>
      have told : Turn.snapshot? ⟨notice, round.start, some round⟩ =
          (settings.answer (files round.start)).toOption :=
        congrArg Except.toOption (settings.tells_rebuild _ _ _ reads)
      rw [told]
      exact history.exists_rebuilt listens next concerns folds permitted _

/-- In a turn that is not over in time, a watch can be interrupted. -/
theorem History.exists_turn_interrupted (history : History settings file current past watcher)
    {turn : Turn} (fits : turn.Fits settings files) (listens : watcher.phase = .listening)
    (next : watcher.waiting = turn.notice.report :: rest) {cancelled : Option Instant}
    (soon : inTime cancelled turn.start = true) (late : inTime cancelled turn.finish = false) :
    ∃ past later, History settings file current past later ∧
      watcher.Takes [turn.notice.report] watcher.world.current later ∧ later.phase = .finished := by
  cases fits with
  | ignore => cases late.symm.trans soon
  | refresh concerns => exact history.exists_interrupted listens next concerns

/-- A watch can take its notices in turns until it is cancelled. -/
theorem History.exists_turns (history : History settings file current past watcher)
    (folds : settings.directory.FoldsCase)
    (permitted : settings.limits.maxWorkers ≤ Groups.permitLimit)
    (made : Turns settings files now turns) (listens : watcher.phase = .listening)
    (waits : watcher.waiting = turns.map (·.notice.report)) (cancelled : Option Instant) :
    ∃ past later, History settings file current past later ∧
      watcher.Takes ((turns.filter fun turn => inTime cancelled turn.start).map (·.notice.report))
        (published watcher.world.current
          ((turns.flatMap Turn.events).filter fun event => inTime cancelled event.1)) later ∧
      (later.phase = .listening ∧ later.waiting = [] ∨ later.phase = .finished ∧ cancelled ≠ none) := by
  induction made generalizing past watcher with
  | nil =>
      exact ⟨past, watcher, history, ⟨(List.append_nil _).symm, rfl, rfl, rfl⟩,
        Or.inl ⟨listens, waits⟩⟩
  | @cons now turn rest starts fits more ih =>
      have begun : Turns settings files turn.start (turn :: rest) :=
        .cons (max_eq_left (starts ▸ le_max_right _ _)).symm fits more
      have cut {instant : Instant} (late : inTime cancelled instant = false) : cancelled ≠ none := by
        rintro rfl
        cases late
      cases soon : inTime cancelled turn.start with
      | false =>
          obtain ⟨none, silent⟩ := begun.eq_nil_of_late soon
          rw [none, silent]
          exact ⟨_, _, history.next (.cancel listens), ⟨(List.append_nil _).symm, rfl, rfl, rfl⟩,
            Or.inr ⟨rfl, cut soon⟩⟩
      | true =>
          rw [List.filter_cons_of_pos (by simpa using soon), List.map_cons, List.flatMap_cons,
            List.filter_append, published_append, fits.published_filter]
          cases ended : inTime cancelled turn.finish with
          | false =>
              obtain ⟨none, silent⟩ := more.eq_nil_of_late ended
              rw [none, silent, if_neg Bool.false_ne_true]
              obtain ⟨past, later, longer, takes, finished⟩ :=
                history.exists_turn_interrupted fits listens waits soon ended
              exact ⟨past, later, longer, takes, Or.inr ⟨finished, cut ended⟩⟩
          | true =>
              rw [if_pos rfl]
              obtain ⟨past, next, longer, takes, listens⟩ :=
                history.exists_turn folds permitted fits listens waits
              have remains : next.waiting = rest.map (·.notice.report) :=
                (List.cons.inj (waits.symm.trans takes.waiting)).2.symm
              obtain ⟨past, later, longest, taken, rests⟩ := ih longer listens remains
              rw [takes.current] at taken
              exact ⟨past, later, longest, taken.after takes, rests⟩

/-- **A watch can go the way of the function that runs it.** -/
theorem exists_history_of_turns (folds : settings.directory.FoldsCase)
    (permitted : settings.limits.maxWorkers ≤ Groups.permitLimit)
    (made : Turns settings files now turns) (file : Option Bytes) (current : Snapshot)
    (cancelled : Option Instant) :
    ∃ past watcher, History settings file current past watcher ∧ watcher.phase = .finished ∧
      watcher.closed = cancelled.isNone ∧
      collect Action.heard? past = turns.map (·.notice.report) ∧
      watcher.taken =
        (turns.filter fun turn => inTime cancelled turn.start).map (·.notice.report) ∧
      watcher.world.current = published current
        ((turns.flatMap Turn.events).filter fun event => inTime cancelled event.1) := by
  have begun : History settings file current [] (initial file current) := .start
  obtain ⟨past, heard⟩ := begun.exists_heard rfl (turns.map (·.notice.report))
  obtain ⟨past, later, history, takes, ended⟩ :=
    heard.exists_turns folds permitted made rfl rfl cancelled
  have isOpen : later.closed = false := takes.closed
  have all : later.taken ++ later.waiting = turns.map (·.notice.report) := by
    rw [takes.taken]
    exact takes.waiting.symm
  rcases ended with ⟨listens, none⟩ | ⟨finished, cut⟩
  · cases cancelled with
    | none =>
        have left := (history.next (.close isOpen)).next (.leave listens none rfl)
        exact ⟨_, _, left, rfl, rfl, left.heard_eq.trans all, takes.taken, takes.current⟩
    | some instant =>
        have stopped := history.next (.cancel listens)
        exact ⟨_, _, stopped, rfl, isOpen, stopped.heard_eq.trans all, takes.taken, takes.current⟩
  · obtain ⟨instant, rfl⟩ := Option.ne_none_iff_exists'.mp cut
    exact ⟨_, _, history, finished, isOpen, history.heard_eq.trans all, takes.taken, takes.current⟩

end Watcher

end SpnegoRealm.Overlap
