import SpnegoRealm.Proofs.Groups.Concurrent
import SpnegoRealm.Questions

/-! # Searches on a clock

A search whose questions take time. Tasks obtain permits first in, first out, each question is
answered once its latency has passed, questions that are due at once are answered as they were
asked, and finished tasks are joined as they finished. Which of the steps that are possible comes
first is open. The clock moves only when no other step is possible
(`SpnegoRealm.Groups.Progress.Step`).

A search with a deadline is dropped when the clock shows the deadline
(`SpnegoRealm.Groups.Attempt.Step`). What was claimed and not submitted is gone at once. The tasks
are all cancelled, so none of them goes on; but each is released by a step of its own, in any order
(`SpnegoRealm.Groups.Progress.Release`), and a question that is released before its answer came
gives its permit back and is in flight no longer.
-/

namespace SpnegoRealm.Groups

/-- The search below a group of a directory that takes its time, with a lane for each worker. -/
def Limits.search (limits : Limits) (directory : Directory) : Search where
  directory := directory
  maxDepth := limits.maxDepth
  lanes := max limits.maxWorkers 1

/-- The question that a task asks. -/
def Task.request (task : Task) : Directory.Request := .memberGroups task.group

/-- A question without an answer, and the instant at which it was asked. -/
structure Question where
  task : Task
  since : Instant
  deriving DecidableEq, Repr

/-- The event by which a question is asked. -/
def Question.event (question : Question) : Instant × Event :=
  (question.since, .asked question.task.request)

/-- The state of a search on a clock. -/
structure Progress where
  now : Instant
  /-- The permits that nobody holds. -/
  permits : ℕ
  /-- The groups met so far, as first spelled, in the order in which they were met. -/
  recorded : List String
  waiting : List Task
  asking : List Question
  finished : List Finding
  /-- What the task joined last claimed and is still to be submitted. -/
  handing : List Task
  /-- The count that goes up when a question is asked and down when it is over. -/
  inFlight : ℤ
  events : List (Instant × Event)

namespace Progress

/-- A search before its first step: the task for its seed waits. -/
def initial (search : Search) (seed : String) (start : Instant) : Progress where
  now := start
  permits := search.lanes
  recorded := [seed]
  waiting := [⟨seed, 1⟩]
  asking := []
  finished := []
  handing := []
  inFlight := 0
  events := []

/-- The names recorded so far. -/
def known (progress : Progress) : List String := progress.recorded.map Text.lowercase

/-- Nothing can be done at the present instant. -/
structure Quiet (search : Search) (progress : Progress) : Prop where
  waiting : progress.waiting = [] ∨ progress.permits = 0
  finished : progress.finished = []
  handing : progress.handing = []
  asking : ∀ question ∈ progress.asking,
    progress.now < question.since + search.directory.latency

/-- No task is outstanding. -/
structure IsComplete (progress : Progress) : Prop where
  waiting : progress.waiting = []
  asking : progress.asking = []
  finished : progress.finished = []
  handing : progress.handing = []

/-- What a task was the first to meet among the members of its group. -/
def claimedBy (search : Search) (task : Task) (progress : Progress) : List String :=
  claim progress.known (search.members task.group)

/-- What happens when a question is answered, or fails. -/
def answerEvents (search : Search) (task : Task) (progress : Progress) : List (Instant × Event) :=
  (progress.now, .answered task.request) ::
    if !(search.directory.memberGroups task.group).isOk then
      [(progress.now, .warned .memberGroupQueryFailed)]
    else []

/-- The state after a task obtained a permit and asked its question, with the others that wait. -/
def afterStart (task : Task) (rest : List Task) (progress : Progress) : Progress :=
  { progress with
    permits := progress.permits - 1
    waiting := rest
    asking := progress.asking ++ [⟨task, progress.now⟩]
    inFlight := progress.inFlight + 1
    events := progress.events ++ [(progress.now, .asked task.request)] }

/-- The state after a question was answered or failed, with the others that are asked. Its task has
claimed the members that nobody had recorded, given the permit back, and is over. -/
def afterAnswer (search : Search) (question : Question) (rest : List Question)
    (progress : Progress) : Progress :=
  { progress with
    permits := progress.permits + 1
    recorded := progress.recorded ++ progress.claimedBy search question.task
    asking := rest
    finished := progress.finished ++ [⟨question.task, progress.claimedBy search question.task⟩]
    inFlight := progress.inFlight - 1
    events := progress.events ++ progress.answerEvents search question.task }

/-- What a search may do next. -/
inductive Step (search : Search) : Progress → Progress → Prop
  /-- The task that has waited longest asks its question. -/
  | start {progress : Progress} {task : Task} {rest : List Task}
    (waits : progress.waiting = task :: rest) (free : 0 < progress.permits) :
    Step search progress (progress.afterStart task rest)
  /-- The question that was asked first is answered or fails. -/
  | answer {progress : Progress} {question : Question} {rest : List Question}
    (asks : progress.asking = question :: rest)
    (due : question.since + search.directory.latency ≤ progress.now) :
    Step search progress (progress.afterAnswer search question rest)
  /-- The task that finished first is joined. -/
  | join {progress : Progress} {finding : Finding} {rest : List Finding}
    (idle : progress.handing = []) (ended : progress.finished = finding :: rest) :
    Step search progress
      { progress with finished := rest, handing := finding.successors search.maxDepth }
  /-- A claimed group is submitted. -/
  | submit {progress : Progress} {task : Task} {rest : List Task}
    (hands : progress.handing = task :: rest) :
    Step search progress { progress with waiting := progress.waiting ++ [task], handing := rest }
  /-- Time passes, but not beyond the instant at which a question is due. -/
  | tick {progress : Progress} {later : Instant} (quiet : progress.Quiet search)
    (passes : progress.now < later)
    (early : ∀ question ∈ progress.asking, later ≤ question.since + search.directory.latency) :
    Step search progress { progress with now := later }

/-- One state of a search comes after another, by any number of steps. -/
abbrev Reaches (search : Search) : Progress → Progress → Prop :=
  Relation.ReflTransGen (Step search)

/-- What happens to a search that was dropped. -/
inductive Release : Progress → Progress → Prop
  /-- A task that waits for a permit is released. -/
  | waiting {progress : Progress} {before after : List Task} {task : Task}
    (waits : progress.waiting = before ++ task :: after) :
    Release progress { progress with waiting := before ++ after }
  /-- A task that waits for an answer is released. -/
  | asking {progress : Progress} {before after : List Question} {question : Question}
    (asks : progress.asking = before ++ question :: after) :
    Release progress
      { progress with
        permits := progress.permits + 1
        asking := before ++ after
        inFlight := progress.inFlight - 1
        events := progress.events ++ [(progress.now, .dropped question.task.request)] }
  /-- A task that is over and was not joined is released. -/
  | finished {progress : Progress} {before after : List Finding} {finding : Finding}
    (ended : progress.finished = before ++ finding :: after) :
    Release progress { progress with finished := before ++ after }
  /-- Time passes once every task is released. -/
  | tick {progress : Progress} {later : Instant} (complete : progress.IsComplete)
    (passes : progress.now < later) : Release progress { progress with now := later }

end Progress

/-- A search with a deadline. -/
inductive Attempt where
  | going (progress : Progress)
  | dropped (progress : Progress)

namespace Attempt

/-- The state of a search, whether or not it was dropped. -/
def progress : Attempt → Progress
  | going progress => progress
  | dropped progress => progress

/-- A search is dropped together with what it holds itself; its tasks are still to be released. -/
def drop (progress : Progress) : Attempt := .dropped { progress with handing := [] }

/-- The deadline is looked at before any task gets to run, so a search that starts at its deadline
is dropped at once. -/
def initial (search : Search) (seed : String) (start deadline : Instant) : Attempt :=
  if start < deadline then .going (Progress.initial search seed start)
  else drop (Progress.initial search seed start)

/-- What a search with a deadline may do next. At the deadline, being dropped may come before or
after what else is possible then. -/
inductive Step (search : Search) (deadline : Instant) : Attempt → Attempt → Prop
  | go {progress next : Progress} (step : progress.Step search next)
    (intime : next.now ≤ deadline) : Step search deadline (.going progress) (.going next)
  | drop {progress : Progress} (reached : progress.now = deadline) :
    Step search deadline (.going progress) (drop progress)
  | release {progress next : Progress} (step : progress.Release next) :
    Step search deadline (.dropped progress) (.dropped next)

/-- One state of a search with a deadline comes after another, by any number of steps. -/
abbrev Reaches (search : Search) (deadline : Instant) : Attempt → Attempt → Prop :=
  Relation.ReflTransGen (Step search deadline)

end Attempt

namespace Progress

variable {search : Search} {progress next : Progress}

/-- Permits are held by the tasks that ask, and the count of questions in flight is theirs. -/
structure Counts (search : Search) (progress : Progress) : Prop where
  permits : progress.permits + progress.asking.length = search.lanes
  inFlight : progress.inFlight = progress.asking.length

/-- The count of questions in flight is never negative. -/
theorem Counts.nonneg (counts : progress.Counts search) : 0 ≤ progress.inFlight := by
  rw [counts.inFlight]
  exact Int.natCast_nonneg _

/-- At most as many questions are in flight as there are lanes. -/
theorem Counts.le_lanes (counts : progress.Counts search) : progress.inFlight ≤ search.lanes := by
  rw [counts.inFlight, ← counts.permits]
  exact Int.ofNat_le.mpr (Nat.le_add_left _ _)

/-- Without a question to wait for, nothing is in flight and all permits are back. -/
theorem Counts.of_asking_eq_nil (counts : progress.Counts search) (silent : progress.asking = []) :
    progress.inFlight = 0 ∧ progress.permits = search.lanes := by
  obtain ⟨permits, inFlight⟩ := counts
  rw [silent] at permits inFlight
  exact ⟨inFlight, permits⟩

/-- A step does what it does at the present instant. -/
theorem Step.exists_events (step : progress.Step search next) :
    ∃ added, next.events = progress.events ++ added ∧ ∀ event ∈ added, event.1 = progress.now := by
  cases step with
  | start waits free => exact ⟨_, rfl, by simp⟩
  | answer asks due =>
      refine ⟨_, rfl, ?_⟩
      unfold answerEvents
      split <;> simp
  | join idle ended => exact ⟨[], by simp, by simp⟩
  | submit hands => exact ⟨[], by simp, by simp⟩
  | tick quiet passes early => exact ⟨[], by simp, by simp⟩

/-- No step turns the clock back. -/
theorem Step.now_le (step : progress.Step search next) : progress.now ≤ next.now := by
  cases step with
  | tick quiet passes early => exact passes.le
  | _ => exact le_refl _

/-- Whatever a search does later, it does from the present instant on. -/
theorem Reaches.exists_events (reaches : Reaches search progress next) :
    ∃ added, next.events = progress.events ++ added ∧
      (∀ event ∈ added, progress.now ≤ event.1) ∧ progress.now ≤ next.now := by
  induction reaches with
  | refl => exact ⟨[], by simp, by simp, le_refl _⟩
  | tail _ step ih =>
      obtain ⟨earlier, before, bounded, passed⟩ := ih
      obtain ⟨added, after, instants⟩ := step.exists_events
      refine ⟨earlier ++ added, by rw [after, before, List.append_assoc], ?_,
        passed.trans step.now_le⟩
      intro event member
      rcases List.mem_append.mp member with old | new
      · exact bounded event old
      · rw [instants event new]
        exact passed

end Progress

end SpnegoRealm.Groups
