import SpnegoRealm.Proofs.Overlap.World
import SpnegoRealm.Proofs.Service
import SpnegoRealm.Realm

/-! # The life of a running realm

A realm that has started has two refresh loops. One waits for its timer, the other one for reports
about the mapping file; each refreshes when its trigger comes and waits again. All the while time
passes, the mapping file is written and removed, requests are served, and rebuilds are asked for from
outside. Stopping the realm tells both loops to end: one that waits ends at once, one that refreshes
gives its refresh up, and stopping returns when both are over
(`SpnegoRealm.Overlap.Life.Step`). A start that failed leaves a life without loops
(`SpnegoRealm.Overlap.Life.opened`).

A loop that is over takes no step any more. So once stopping has returned, whatever happens then,
only a rebuild from outside changes the current snapshot
(`SpnegoRealm.Overlap.Life.Step.of_ended`). Stopping can always return, and need not wait for any
publication (`SpnegoRealm.Overlap.Life.Sound.exists_stopped`).
-/

namespace SpnegoRealm.Overlap

open Mapping Refresh

/-- What makes a realm refresh its mapping by itself. -/
inductive Trigger where
  | timer
  | fileChange
  deriving DecidableEq

/-- A refresh loop of a realm. -/
inductive Loop where
  | waiting
  | refreshing (stage : Rebuild.Stage)
  | ended

/-- A realm, with the world around it. -/
structure Life where
  /-- The mapping file, the current snapshot, rebuilds from outside and calls that authenticate. -/
  world : World
  now : Instant
  /-- When the timer is due. -/
  deadline : Instant
  /-- The reports about files that wait for the watch. -/
  reports : List Report
  loops : Trigger → Loop
  /-- Whether the loops were told to end. -/
  stopping : Bool
  /-- Whether stopping has returned. -/
  stopped : Bool

namespace Life

/-- A realm after its start, which came to a service and a first snapshot or failed. Where the mapping
file cannot be watched there is only the timer. -/
def opened (interval : ℕ) (watched : Bool) (file : Option Bytes) (now : Instant)
    (start : Except StartError (Service × Snapshot)) : Life where
  world := { World.initial file with current := (start.toOption.map Prod.snd).getD .empty }
  now := now
  deadline := now + interval
  reports := []
  loops
    | .timer => if start.isOk then .waiting else .ended
    | .fileChange => if start.isOk && watched then .waiting else .ended
  stopping := false
  stopped := false

/-- A loop has come to a stage. -/
def withLoop (life : Life) (trigger : Trigger) (loop : Loop) : Life :=
  { life with loops := Function.update life.loops trigger loop }

/-- A snapshot becomes current. -/
def withCurrent (life : Life) (snapshot : Snapshot) : Life :=
  { life with world := { life.world with current := snapshot } }

/-- When the timer has refreshed, it is due an interval later. -/
def rewound (life : Life) (interval : ℕ) : Trigger → Life
  | .timer => { life with deadline := life.now + interval }
  | .fileChange => life

/-- What can happen in the life of a realm. -/
inductive Action where
  /-- The file changes, somebody looks at the snapshot, rebuilds it from outside or authenticates. -/
  | outside (action : Overlap.Action)
  | negotiate (header : Option String)
  | isMember (principal group : String)
  | pass (span : ℕ)
  | hear (report : Report)
  | wake
  /-- The watch takes a report that calls for a refresh. -/
  | alarm (report : Report)
  | ignore (report : Report)
  /-- Nothing more is reported to the watch. -/
  | leave
  | work (trigger : Trigger) (action : Rebuild.Action)
  | resume (trigger : Trigger)
  /-- A refresh was stopped by a fault, and its loop with it. -/
  | collapse (trigger : Trigger)
  | stop
  /-- A loop that was told to end does so while it waits. -/
  | quit (trigger : Trigger)
  /-- A loop that was told to end gives its refresh up. -/
  | interrupt (trigger : Trigger)
  /-- Stopping returns. -/
  | finish

/-- Whether an action is one of a refresh loop. -/
def Action.isOwn : Action → Bool
  | wake | alarm _ | ignore _ | leave | work .. | resume _ | collapse _ | quit _ | interrupt _ => true
  | _ => false

/-- What may happen next. A loop that was told to end starts nothing. -/
inductive Step (service : Service) (interval : ℕ) : Life → Action → Life → Prop
  | outside {life : Life} {action : Overlap.Action} {world : World}
    (step : Overlap.Step service.mapping life.world action world) :
    Step service interval life (.outside action) { life with world := world }
  | negotiate {life : Life} {header : Option String}
    {round : Trace Event (Except RealmError Outcome)}
    (run : service.negotiate header life.now = .ok round) :
    Step service interval life (.negotiate header)
      (life.withCurrent (published life.world.current round.events))
  | isMember {life : Life} {principal group : String} {answer : Trace Event (Except RealmError Bool)}
    (run : service.isMember principal group life.now = .ok answer) :
    Step service interval life (.isMember principal group)
      (life.withCurrent (published life.world.current answer.events))
  | pass {life : Life} {span : ℕ} :
    Step service interval life (.pass span) { life with now := life.now + span }
  | hear {life : Life} {report : Report} :
    Step service interval life (.hear report) { life with reports := life.reports ++ [report] }
  | wake {life : Life} (waits : life.loops .timer = .waiting) (due : life.deadline ≤ life.now)
    (goesOn : life.stopping = false) :
    Step service interval life .wake (life.withLoop .timer (.refreshing .called))
  | alarm {life : Life} {report : Report} {rest : List Report}
    (waits : life.loops .fileChange = .waiting) (next : life.reports = report :: rest)
    (concerns : report.concerns service.mapping.path = true) (goesOn : life.stopping = false) :
    Step service interval life (.alarm report)
      ({ life with reports := rest }.withLoop .fileChange (.refreshing .called))
  | ignore {life : Life} {report : Report} {rest : List Report}
    (waits : life.loops .fileChange = .waiting) (next : life.reports = report :: rest)
    (other : report.concerns service.mapping.path = false) (goesOn : life.stopping = false) :
    Step service interval life (.ignore report) { life with reports := rest }
  | leave {life : Life} (waits : life.loops .fileChange = .waiting) (none : life.reports = []) :
    Step service interval life .leave (life.withLoop .fileChange .ended)
  /-- A refresh that is under way goes on; what it publishes becomes current. -/
  | work {life : Life} {trigger : Trigger} {stage later : Rebuild.Stage} {action : Rebuild.Action}
    (refreshes : life.loops trigger = .refreshing stage)
    (move : Rebuild.Move service.mapping life.world.file stage action later)
    (goesOn : action ≠ .cancel) :
    Step service interval life (.work trigger action)
      ((life.withCurrent (action.publication?.getD life.world.current)).withLoop trigger
        (.refreshing later))
  /-- The refresh has published or found that it cannot. -/
  | resume {life : Life} {trigger : Trigger} {stage : Rebuild.Stage}
    (refreshes : life.loops trigger = .refreshing stage)
    (ended : (∃ snapshot, stage = .published snapshot) ∨ ∃ fault, stage = .refused fault) :
    Step service interval life (.resume trigger)
      ((life.rewound interval trigger).withLoop trigger .waiting)
  | collapse {life : Life} {trigger : Trigger} {crash : Crash}
    (refreshes : life.loops trigger = .refreshing (.crashed crash)) :
    Step service interval life (.collapse trigger) (life.withLoop trigger .ended)
  | stop {life : Life} : Step service interval life .stop { life with stopping := true }
  | quit {life : Life} {trigger : Trigger} (waits : life.loops trigger = .waiting)
    (told : life.stopping = true) :
    Step service interval life (.quit trigger) (life.withLoop trigger .ended)
  | interrupt {life : Life} {trigger : Trigger} {stage : Rebuild.Stage}
    (refreshes : life.loops trigger = .refreshing stage) (going : stage.isGoing = true)
    (told : life.stopping = true) :
    Step service interval life (.interrupt trigger) (life.withLoop trigger .ended)
  | finish {life : Life} (told : life.stopping = true)
    (ended : ∀ trigger, life.loops trigger = .ended) :
    Step service interval life .finish { life with stopped := true }

/-- One life leads to another by some steps. -/
abbrev Reaches (service : Service) (interval : ℕ) : Life → Life → Prop :=
  Relation.ReflTransGen fun life later => ∃ action, Step service interval life action later

variable {service : Service} {interval : ℕ} {life later : Life} {action : Action}
  {trigger : Trigger}

/-! ## Loops that are over -/

private theorem loops_withLoop (life : Life) (trigger : Trigger) (loop : Loop) :
    (life.withLoop trigger loop).loops trigger = loop :=
  Function.update_self _ _ _

private theorem loops_withLoop_of_ne {other : Trigger} (apart : trigger ≠ other) (life : Life)
    (loop : Loop) : (life.withLoop other loop).loops trigger = life.loops trigger :=
  Function.update_of_ne apart _ _

private theorem loops_rewound (life : Life) (interval : ℕ) (trigger : Trigger) :
    (life.rewound interval trigger).loops = life.loops := by
  cases trigger <;> rfl

private theorem world_rewound (life : Life) (interval : ℕ) (trigger : Trigger) :
    (life.rewound interval trigger).world = life.world := by
  cases trigger <;> rfl

private theorem ne_ended_of_waiting (waits : life.loops trigger = .waiting) :
    life.loops trigger ≠ .ended := by
  rw [waits]
  exact nofun

private theorem ne_ended_of_refreshing {stage : Rebuild.Stage}
    (refreshes : life.loops trigger = .refreshing stage) : life.loops trigger ≠ .ended := by
  rw [refreshes]
  exact nofun

/-- A step is none of a loop and leaves both alone, or it is one of a loop that is not over and leaves
the other one alone. -/
theorem Step.loops_eq (step : Step service interval life action later) :
    action.isOwn = false ∧ later.loops = life.loops ∨
      ∃ other, life.loops other ≠ .ended ∧
        ∀ trigger, trigger ≠ other → later.loops trigger = life.loops trigger := by
  have moves {other : Trigger} (loop : Loop) (active : life.loops other ≠ .ended) :
      ∃ other', life.loops other' ≠ .ended ∧ ∀ trigger, trigger ≠ other' →
        (life.withLoop other loop).loops trigger = life.loops trigger :=
    ⟨other, active, fun trigger apart => loops_withLoop_of_ne apart life loop⟩
  cases step with
  | wake waits => exact Or.inr (moves _ (ne_ended_of_waiting waits))
  | alarm waits => exact Or.inr (moves _ (ne_ended_of_waiting waits))
  | ignore waits => exact Or.inr ⟨_, ne_ended_of_waiting waits, fun _ _ => rfl⟩
  | leave waits => exact Or.inr (moves _ (ne_ended_of_waiting waits))
  | work refreshes => exact Or.inr (moves _ (ne_ended_of_refreshing refreshes))
  | @resume other _ refreshes =>
      refine Or.inr ⟨other, ne_ended_of_refreshing refreshes, fun trigger apart => ?_⟩
      rw [loops_withLoop_of_ne apart, loops_rewound]
  | collapse refreshes => exact Or.inr (moves _ (ne_ended_of_refreshing refreshes))
  | quit waits => exact Or.inr (moves _ (ne_ended_of_waiting waits))
  | interrupt refreshes => exact Or.inr (moves _ (ne_ended_of_refreshing refreshes))
  | _ => exact Or.inl ⟨rfl, rfl⟩

private theorem Step.ended (step : Step service interval life action later)
    (ended : life.loops trigger = .ended) : later.loops trigger = .ended := by
  obtain ⟨-, same⟩ | ⟨other, active, same⟩ := step.loops_eq
  · rw [same, ended]
  · have apart : trigger ≠ other := by
      rintro rfl
      exact active ended
    rw [same trigger apart, ended]

/-- A loop that is over stays so. -/
theorem Reaches.ended (reaches : Reaches service interval life later)
    (ended : life.loops trigger = .ended) : later.loops trigger = .ended := by
  induction reaches with
  | refl => exact ended
  | tail _ step ih => exact step.choose_spec.ended ih

/-- With both loops over, no loop does anything. -/
theorem Step.isOwn_of_ended (step : Step service interval life action later)
    (ended : ∀ trigger, life.loops trigger = .ended) : action.isOwn = false := by
  obtain ⟨outer, -⟩ | ⟨other, active, -⟩ := step.loops_eq
  · exact outer
  · exact (active (ended other)).elim

/-! ## What changes the snapshot -/

/-- A rebuild from outside publishes a snapshot. -/
def Publishes (action : Action) (snapshot : Snapshot) : Prop :=
  ∃ name, action = .outside (.rebuild name (.publish snapshot))

private theorem current_of_outside {world next : World} {happens : Overlap.Action}
    (step : Overlap.Step service.mapping world happens next) :
    next.current = world.current ∨ ∃ snapshot, Publishes (.outside happens) snapshot ∧
      next.current = snapshot := by
  cases publisher : happens.publisher? with
  | none => exact Or.inl (step.current_eq publisher)
  | some name =>
      cases step with
      | @rebuild other act stage move =>
          cases act with
          | publish snapshot => exact Or.inr ⟨snapshot, ⟨other, rfl⟩, rfl⟩
          | _ => cases publisher
      | _ => cases publisher

/-- **With both loops over, only a rebuild from outside changes the current snapshot.** -/
theorem Step.of_ended (step : Step service interval life action later)
    (ended : ∀ trigger, life.loops trigger = .ended) :
    action.isOwn = false ∧ (later.world.current = life.world.current ∨
      ∃ snapshot, Publishes action snapshot ∧ later.world.current = snapshot) := by
  have own := step.isOwn_of_ended ended
  refine ⟨own, ?_⟩
  cases step with
  | outside step => exact current_of_outside step
  | negotiate run => exact Or.inl (Service.published_negotiate run _)
  | isMember run => exact Or.inl (Service.published_isMember run _)
  | pass => exact Or.inl rfl
  | hear => exact Or.inl rfl
  | stop => exact Or.inl rfl
  | finish => exact Or.inl rfl
  | _ => cases own

/-! ## Stopping -/

/-- Stopping returns only when both loops are over. -/
theorem Step.stopped_or_ended (step : Step service interval life action later)
    (stopped : later.stopped = true) :
    life.stopped = true ∨ ∀ trigger, life.loops trigger = .ended := by
  cases step with
  | finish _ ended => exact Or.inr ended
  | @resume trigger => cases trigger <;> exact Or.inl stopped
  | _ => exact Or.inl stopped

/-- Once stopping has returned, both loops are over. -/
theorem Reaches.ended_of_stopped {first : Life} (reaches : Reaches service interval first life)
    (begins : first.stopped = false) (stopped : life.stopped = true) :
    ∀ trigger, life.loops trigger = .ended := by
  induction reaches with
  | refl => cases begins.symm.trans stopped
  | tail _ step ih =>
      obtain ⟨action, step⟩ := step
      intro trigger
      rcases step.stopped_or_ended stopped with before | ended
      · exact step.ended (ih before trigger)
      · exact step.ended (ended trigger)

/-- What a loop refreshes with was called, and is not cancelled while the loop goes on. -/
def Sound (life : Life) : Prop :=
  ∀ trigger stage, life.loops trigger = .refreshing stage → stage ≠ .idle ∧ stage ≠ .cancelled

private theorem Sound.withLoop (sound : life.Sound) {loop : Loop}
    (begun : ∀ stage, loop = .refreshing stage → stage ≠ .idle ∧ stage ≠ .cancelled) :
    (life.withLoop trigger loop).Sound := by
  intro other stage refreshes
  by_cases same : other = trigger
  · subst same
    rw [loops_withLoop] at refreshes
    exact begun stage refreshes
  · rw [loops_withLoop_of_ne same] at refreshes
    exact sound other stage refreshes

private theorem ne_idle_of_move {settings : Settings} {file : Option Bytes}
    {stage next : Rebuild.Stage}
    {act : Rebuild.Action} (move : Rebuild.Move settings file stage act next)
    (goesOn : act ≠ .cancel) : next ≠ .idle ∧ next ≠ .cancelled := by
  cases move with
  | cancel => exact (goesOn rfl).elim
  | _ => exact ⟨nofun, nofun⟩

private theorem Step.sound (step : Step service interval life action later) (sound : life.Sound) :
    later.Sound := by
  cases step with
  | wake | alarm =>
      refine Sound.withLoop sound fun stage called => ?_
      obtain rfl := Loop.refreshing.inj called
      exact ⟨nofun, nofun⟩
  | work _ move goesOn =>
      refine Sound.withLoop sound fun stage worked => ?_
      obtain rfl := Loop.refreshing.inj worked
      exact ne_idle_of_move move goesOn
  | @resume trigger =>
      have same : (life.rewound interval trigger).Sound := by
        unfold Sound
        rw [loops_rewound]
        exact sound
      exact Sound.withLoop same nofun
  | leave | collapse | quit | interrupt => exact Sound.withLoop sound nofun
  | _ => exact sound

/-- A sound life stays sound. -/
theorem Reaches.sound (reaches : Reaches service interval life later) (sound : life.Sound) :
    later.Sound := by
  induction reaches with
  | refl => exact sound
  | tail _ step ih => exact step.choose_spec.sound ih

/-- A loop that was told to end can do so, and leave the world as it is. -/
theorem Sound.exists_ended (sound : life.Sound) (told : life.stopping = true) (service : Service)
    (interval : ℕ) (trigger : Trigger) :
    ∃ later, Reaches service interval life later ∧ later.loops trigger = .ended ∧
      later.stopping = true ∧ later.world = life.world := by
  have quits (life : Life) (waits : life.loops trigger = .waiting) (told : life.stopping = true) :
      Reaches service interval life (life.withLoop trigger .ended) :=
    .single ⟨_, .quit waits told⟩
  have resumes {stage : Rebuild.Stage} (refreshes : life.loops trigger = .refreshing stage)
      (ended : (∃ snapshot, stage = .published snapshot) ∨ ∃ fault, stage = .refused fault) :
      ∃ later, Reaches service interval life later ∧ later.loops trigger = .ended ∧
        later.stopping = true ∧ later.world = life.world := by
    have told' : ((life.rewound interval trigger).withLoop trigger .waiting).stopping = true := by
      cases trigger <;> exact told
    exact ⟨_, .head ⟨_, .resume refreshes ended⟩ (quits _ (loops_withLoop _ _ _) told'),
      loops_withLoop _ _ _, told', world_rewound life interval trigger⟩
  cases at' : life.loops trigger with
  | ended => exact ⟨life, .refl, at', told, rfl⟩
  | waiting => exact ⟨_, quits life at' told, loops_withLoop _ _ _, told, rfl⟩
  | refreshing stage =>
      have begun := sound trigger stage at'
      cases stage with
      | idle => exact (begun.1 rfl).elim
      | cancelled => exact (begun.2 rfl).elim
      | published snapshot => exact resumes at' (Or.inl ⟨snapshot, rfl⟩)
      | refused fault => exact resumes at' (Or.inr ⟨fault, rfl⟩)
      | crashed crash => exact ⟨_, .single ⟨_, .collapse at'⟩, loops_withLoop _ _ _, told, rfl⟩
      | called | mapping | searching =>
          exact ⟨_, .single ⟨_, .interrupt at' rfl told⟩, loops_withLoop _ _ _, told, rfl⟩

/-- **Stopping can always return**, and no publication has to come before. -/
theorem Sound.exists_stopped (sound : life.Sound) (told : life.stopping = true) (service : Service)
    (interval : ℕ) : ∃ later, Reaches service interval life later ∧ later.stopped = true ∧
      later.world = life.world := by
  obtain ⟨first, toFirst, timerEnded, told, sameFirst⟩ :=
    sound.exists_ended told service interval .timer
  obtain ⟨second, toSecond, watchEnded, told, sameSecond⟩ :=
    (toFirst.sound sound).exists_ended told service interval .fileChange
  have ended : ∀ trigger, second.loops trigger = .ended := by
    intro trigger
    cases trigger with
    | timer => exact toSecond.ended timerEnded
    | fileChange => exact watchEnded
  exact ⟨_, (toFirst.trans toSecond).tail ⟨_, .finish told ended⟩, rfl, sameSecond.trans sameFirst⟩

/-! ## From a start -/

section Opened

variable {watched : Bool} {file : Option Bytes} {now : Instant}
  {start : Except StartError (Service × Snapshot)}

private theorem loops_opened_of_error (fault : StartError) :
    (opened interval watched file now (.error fault)).loops trigger = .ended := by
  cases trigger <;> rfl

/-- Every life is sound at its start. -/
theorem sound_opened : (opened interval watched file now start).Sound := by
  intro trigger stage refreshes
  cases trigger with
  | timer =>
      cases ran : start.isOk with
      | true => simp [opened, ran] at refreshes
      | false => simp [opened, ran] at refreshes
  | fileChange =>
      cases ran : start.isOk && watched with
      | true => simp [opened, ran] at refreshes
      | false => simp [opened, ran] at refreshes

/-- **Once stopping has returned, the realm does nothing by itself.** Whatever happens then, both loops
are over, no action is one of a loop, and only a rebuild from outside changes the snapshot. -/
theorem of_stopped (reaches : Reaches service interval (opened interval watched file now start) life)
    (stopped : life.stopped = true) (goesOn : Reaches service interval life later) :
    (∀ trigger, later.loops trigger = .ended) ∧
      ∀ action next, Step service interval later action next →
        action.isOwn = false ∧ (next.world.current = later.world.current ∨
          ∃ snapshot, Publishes action snapshot ∧ next.world.current = snapshot) := by
  have ended (trigger : Trigger) : later.loops trigger = .ended :=
    goesOn.ended (reaches.ended_of_stopped rfl stopped trigger)
  exact ⟨ended, fun action next step => step.of_ended ended⟩

/-- A start that failed leaves nothing that could do anything by itself. -/
theorem of_failed {fault : StartError}
    (reaches : Reaches service interval (opened interval watched file now (.error fault)) life) :
    (∀ trigger, life.loops trigger = .ended) ∧
      ∀ action next, Step service interval life action next →
        action.isOwn = false ∧ (next.world.current = life.world.current ∨
          ∃ snapshot, Publishes action snapshot ∧ next.world.current = snapshot) := by
  have ended (trigger : Trigger) : life.loops trigger = .ended :=
    reaches.ended (loops_opened_of_error fault)
  exact ⟨ended, fun action next step => step.of_ended ended⟩

end Opened

end Life

end SpnegoRealm.Overlap
