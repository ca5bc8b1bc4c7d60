import SpnegoRealm.Proofs.Overlap.Watcher

/-! # Rebuilds and watches that go on and end

A rebuild that is under way can always take a step, if no more workers are asked for than there can be
permits (`SpnegoRealm.Overlap.Rebuild.exists_move`), and it never goes on forever, if finitely many
names lie below every group (`SpnegoRealm.Overlap.Rebuild.accessible`). The same holds of a watch that
takes reports while nothing more is reported: it goes on until no report is left, and then waits for
the end of its source (`SpnegoRealm.Overlap.Watcher.History.waits_or_step` and
`SpnegoRealm.Overlap.Watcher.History.accessible`).
-/

namespace SpnegoRealm.Overlap

open Mapping

namespace Rebuild

variable {settings : Settings} {contents : List (Option Bytes)} {stage : Stage}

/-- A rebuild that is under way can go on. -/
theorem exists_move (permitted : settings.limits.maxWorkers ≤ Groups.permitLimit)
    (holds : stage.Holds settings contents) (going : stage.isGoing = true) (file : Option Bytes) :
    ∃ action later, Move settings file stage action later ∧ action ≠ .cancel := by
  cases stage with
  | called =>
      cases reads : Definitions.ofContent file with
      | ok definitions => exact ⟨_, _, .read reads, nofun⟩
      | error fault => exact ⟨_, _, .refuse reads, nofun⟩
  | mapping built remaining =>
      cases remaining with
      | nil => exact ⟨_, _, .publish, nofun⟩
      | cons listing rest =>
          cases found : settings.direct? listing with
          | some grants => exact ⟨_, _, .settle found, nofun⟩
          | none => exact ⟨_, _, .launch found (Groups.Run.launch_of_permitted permitted), nofun⟩
  | searching built listing remaining run =>
      obtain ⟨before, first, -, -, -, launched, reaches⟩ := holds
      obtain rfl := Groups.Run.eq_initial_of_launch launched
      have balanced := Groups.Run.Balanced.of_reaches reaches
      rcases balanced.isComplete_or_step settings.directory settings.limits.maxDepth with
        complete | ⟨next, step⟩
      · exact ⟨_, _, .collect complete, nofun⟩
      · exact ⟨_, _, .expand step, nofun⟩
  | _ => cases going

/-- A rebuild that is not cancelled goes on, publishes, or finds that it cannot. -/
theorem Move.going_or_ended {file : Option Bytes} {action : Action} {later : Stage}
    (move : Move settings file stage action later)
    (permitted : settings.limits.maxWorkers ≤ Groups.permitLimit) (goesOn : action ≠ .cancel) :
    later.isGoing = true ∨ (∃ snapshot, later = .published snapshot) ∨
      ∃ fault, later = .refused fault := by
  cases move with
  | refuse => exact Or.inr (Or.inr ⟨_, rfl⟩)
  | publish => exact Or.inr (Or.inl ⟨_, rfl⟩)
  | crash found failed => cases (Groups.Run.launch_of_permitted permitted).symm.trans failed
  | cancel => exact (goesOn rfl).elim
  | _ => exact Or.inl rfl

/-- One stage follows another, whatever the mapping file is then. -/
def Follows (settings : Settings) (later stage : Stage) : Prop :=
  ∃ file action, Move settings file stage action later

private theorem accessible_of_not_going (idle : stage ≠ .idle) (still : stage.isGoing = false) :
    Acc (Follows settings) stage := by
  refine Acc.intro stage fun later follows => ?_
  obtain ⟨file, action, move⟩ := follows
  cases move with
  | call => exact (idle rfl).elim
  | cancel going => cases still.symm.trans going
  | _ => cases still

/-- A search below a listed group in the course of a rebuild can be followed to its end. -/
theorem accessible_searching {remaining : List Listing}
    (after : ∀ built, Acc (Follows settings) (.mapping built remaining)) {run : Groups.Run}
    (ends : Acc (fun next run =>
      Groups.Run.Step settings.directory settings.limits.maxDepth run next) run)
    (built : Snapshot) (listing : Listing) :
    Acc (Follows settings) (.searching built listing remaining run) := by
  induction ends with
  | intro run _ ih =>
      refine Acc.intro _ fun later follows => ?_
      obtain ⟨file, action, move⟩ := follows
      cases move with
      | expand step => exact ih _ step
      | collect => exact after _
      | cancel => exact accessible_of_not_going nofun rfl

section Finite

variable (folds : settings.directory.FoldsCase)
  (finite : ∀ identity, (settings.directory.below (Text.lowercase identity)).Finite)

include folds finite

private theorem accessible_run {first run : Groups.Run} {identity : String}
    (launched : Groups.Run.launch settings.limits identity = .ok first)
    (reaches : Groups.Run.Reaches settings.directory settings.limits.maxDepth first run) :
    Acc (fun next run =>
      Groups.Run.Step settings.directory settings.limits.maxDepth run next) run := by
  obtain rfl := Groups.Run.eq_initial_of_launch launched
  exact (Groups.Run.Charted.of_reaches folds reaches).accessible folds (finite identity)
    (Groups.Run.Balanced.of_reaches reaches)

/-- A rebuild that looks up its listings comes to an end: each search does, and no listing comes
twice. -/
theorem accessible_mapping (built : Snapshot) (remaining : List Listing) :
    Acc (Follows settings) (.mapping built remaining) := by
  induction remaining generalizing built with
  | nil =>
      refine Acc.intro _ fun later follows => ?_
      obtain ⟨file, action, move⟩ := follows
      cases move with
      | publish => exact accessible_of_not_going nofun rfl
      | cancel => exact accessible_of_not_going nofun rfl
  | cons listing rest ih =>
      refine Acc.intro _ fun later follows => ?_
      obtain ⟨file, action, move⟩ := follows
      cases move with
      | settle => exact ih _
      | launch found launched =>
          exact accessible_searching ih (accessible_run folds finite launched .refl) _ listing
      | crash => exact accessible_of_not_going nofun rfl
      | cancel => exact accessible_of_not_going nofun rfl

/-- No rebuild goes on forever. -/
theorem accessible (holds : stage.Holds settings contents) : Acc (Follows settings) stage := by
  have called : Acc (Follows settings) .called := by
    refine Acc.intro _ fun later follows => ?_
    obtain ⟨file, action, move⟩ := follows
    cases move with
    | read => exact accessible_mapping folds finite _ _
    | refuse => exact accessible_of_not_going nofun rfl
    | cancel => exact accessible_of_not_going nofun rfl
  cases stage with
  | idle =>
      refine Acc.intro _ fun later follows => ?_
      obtain ⟨file, action, move⟩ := follows
      cases move with
      | call => exact called
      | cancel going => cases going
  | called => exact called
  | mapping built remaining => exact accessible_mapping folds finite built remaining
  | searching built listing remaining run =>
      obtain ⟨before, first, -, -, -, launched, reaches⟩ := holds
      exact accessible_searching (accessible_mapping folds finite · remaining)
        (accessible_run folds finite launched reaches) built listing
  | _ => exact accessible_of_not_going nofun rfl

end Finite

end Rebuild

namespace Watcher

variable {settings : Settings} {file : Option Bytes} {current : Snapshot}
  {past : List (Action × Watcher)} {watcher : Watcher}

/-- The rebuild that a watch waits for is under way, or has come to its end. -/
theorem History.going_or_ended (history : History settings file current past watcher)
    (permitted : settings.limits.maxWorkers ≤ Groups.permitLimit) {name : ℕ}
    (rebuilds : watcher.phase = .rebuilding name) :
    (watcher.world.rebuilds name).isGoing = true ∨
      (∃ snapshot, watcher.world.rebuilds name = .published snapshot) ∨
        ∃ fault, watcher.world.rebuilds name = .refused fault := by
  induction history with
  | start => cases rebuilds
  | next _ step ih =>
      cases step with
      | edit => exact ih rebuilds
      | hear => exact ih rebuilds
      | close => exact ih rebuilds
      | ignore listens => cases listens.symm.trans rebuilds
      | call =>
          obtain rfl := Phase.rebuilding.inj rebuilds
          exact Or.inl (congrArg Rebuild.Stage.isGoing (rebuilds_withRebuild (take _ _ _) _ _ _))
      | work rebuilt move goesOn =>
          obtain rfl := Phase.rebuilding.inj (rebuilt.symm.trans rebuilds)
          rw [rebuilds_withRebuild]
          exact move.going_or_ended permitted goesOn
      | resume => cases rebuilds
      | leave => cases rebuilds
      | cancel => cases rebuilds
      | interrupt => cases rebuilds

/-- **A watch goes on.** Until it is over, a watch can take a step of its own without being cancelled,
unless it waits for reports of an open source. -/
theorem History.waits_or_step (history : History settings file current past watcher)
    (permitted : settings.limits.maxWorkers ≤ Groups.permitLimit) :
    watcher.phase = .finished ∨
      (watcher.phase = .listening ∧ watcher.waiting = [] ∧ watcher.closed = false) ∨
      ∃ action later, Step settings watcher action later ∧ action.isOwn = true ∧
        (action.isEnd = true → action = .leave) := by
  cases at' : watcher.phase with
  | finished => exact Or.inl rfl
  | rebuilding name =>
      refine Or.inr (Or.inr ?_)
      rcases history.going_or_ended permitted at' with going | ended
      · have holds := Rebuild.holds_of_course (history.rebuild_course name)
        obtain ⟨action, stage, move, goesOn⟩ :=
          Rebuild.exists_move permitted holds going watcher.world.file
        exact ⟨_, _, .work at' move goesOn, rfl, nofun⟩
      · exact ⟨_, _, .resume at' ended, rfl, nofun⟩
  | listening =>
      refine Or.inr ?_
      cases waits : watcher.waiting with
      | nil =>
          cases isClosed : watcher.closed with
          | false => exact Or.inl ⟨rfl, rfl, rfl⟩
          | true => exact Or.inr ⟨_, _, .leave at' waits isClosed, rfl, fun _ => rfl⟩
      | cons report rest =>
          refine Or.inr ?_
          cases concerns : report.concerns settings.path with
          | false => exact ⟨_, _, .ignore at' waits concerns, rfl, nofun⟩
          | true => exact ⟨_, _, .call at' waits concerns rfl, rfl, nofun⟩

/-- Until it is over, a watch can be cancelled, at once or when the rebuild that has just ended is
behind it. -/
theorem History.cancel_or_resume (history : History settings file current past watcher)
    (permitted : settings.limits.maxWorkers ≤ Groups.permitLimit)
    (goesOn : watcher.phase ≠ .finished) :
    ∃ action later, Step settings watcher action later ∧
      (action.isEnd = true ∧ action ≠ .leave ∨ action = .resume) := by
  cases at' : watcher.phase with
  | finished => exact (goesOn at').elim
  | listening => exact ⟨_, _, .cancel at', Or.inl ⟨rfl, nofun⟩⟩
  | rebuilding name =>
      rcases history.going_or_ended permitted at' with going | ended
      · exact ⟨_, _, .interrupt at' going, Or.inl ⟨rfl, nofun⟩⟩
      · exact ⟨_, _, .resume at' ended, Or.inr rfl⟩

/-! ## Watches that end -/

/-- One moment of a watch follows another, by a step of its own. -/
def Follows (settings : Settings) (later watcher : Watcher) : Prop :=
  ∃ action, action.isOwn = true ∧ Step settings watcher action later

private theorem accessible_of_finished (finished : watcher.phase = .finished) :
    Acc (Follows settings) watcher := by
  refine Acc.intro _ fun later follows => ?_
  obtain ⟨action, own, step⟩ := follows
  cases own.symm.trans (step.isOwn_of_finished finished)

private theorem accessible_of_listening (listens : watcher.phase = .listening)
    (history : History settings file current past watcher)
    (fewer : ∀ past other, History settings file current past other →
      other.waiting.length < watcher.waiting.length → Acc (Follows settings) other) :
    Acc (Follows settings) watcher := by
  refine Acc.intro _ fun later follows => ?_
  obtain ⟨action, own, step⟩ := follows
  have on := history.next step
  cases step with
  | @ignore report rest _ next =>
      have less : rest.length < watcher.waiting.length := next ▸ Nat.lt_succ_self rest.length
      exact fewer _ _ on less
  | @call report rest _ _ next =>
      have less : rest.length < watcher.waiting.length := next ▸ Nat.lt_succ_self rest.length
      exact fewer _ _ on less
  | leave => exact accessible_of_finished rfl
  | cancel => exact accessible_of_finished rfl
  | work rebuilds => cases listens.symm.trans rebuilds
  | resume rebuilds => cases listens.symm.trans rebuilds
  | interrupt rebuilds => cases listens.symm.trans rebuilds
  | _ => cases own

private theorem accessible_of_rebuilding {name : ℕ} {stage : Rebuild.Stage}
    (ends : Acc (Rebuild.Follows settings) stage) (rebuilds : watcher.phase = .rebuilding name)
    (at' : watcher.world.rebuilds name = stage)
    (history : History settings file current past watcher)
    (after : ∀ past other, History settings file current past other → other.phase = .listening →
      other.waiting = watcher.waiting → Acc (Follows settings) other) :
    Acc (Follows settings) watcher := by
  induction ends generalizing past watcher with
  | intro stage _ ih =>
      subst at'
      refine Acc.intro _ fun later follows => ?_
      obtain ⟨action, own, step⟩ := follows
      have on := history.next step
      cases step with
      | @work other action stage rebuilt move =>
          obtain rfl := Phase.rebuilding.inj (rebuilt.symm.trans rebuilds)
          exact ih stage ⟨_, _, move⟩ rebuilds (rebuilds_withRebuild _ _ _ _) on after
      | resume => exact after _ _ on rfl rfl
      | interrupt => exact accessible_of_finished rfl
      | ignore listens => cases listens.symm.trans rebuilds
      | call listens => cases listens.symm.trans rebuilds
      | leave listens => cases listens.symm.trans rebuilds
      | cancel listens => cases listens.symm.trans rebuilds
      | _ => cases own

/-- **A watch ends.** Left to itself, no watch takes steps forever. -/
theorem History.accessible (history : History settings file current past watcher)
    (folds : settings.directory.FoldsCase)
    (finite : ∀ identity, (settings.directory.below (Text.lowercase identity)).Finite) :
    Acc (Follows settings) watcher := by
  induction counted : watcher.waiting.length using Nat.strong_induction_on
    generalizing past watcher with
  | h size fewer =>
      have listening (past : List (Action × Watcher)) (other : Watcher)
          (history : History settings file current past other) (listens : other.phase = .listening)
          (same : other.waiting.length = size) : Acc (Follows settings) other :=
        accessible_of_listening listens history fun _ _ history less =>
          fewer _ (same ▸ less) history rfl
      cases at' : watcher.phase with
      | finished => exact accessible_of_finished at'
      | listening => exact listening past watcher history at' counted
      | rebuilding name =>
          have holds := Rebuild.holds_of_course (history.rebuild_course name)
          refine accessible_of_rebuilding (Rebuild.accessible folds finite holds) at' rfl history ?_
          intro past other history listens same
          exact listening past other history listens (same ▸ counted)

end Watcher

end SpnegoRealm.Overlap
