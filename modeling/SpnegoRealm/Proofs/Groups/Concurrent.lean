import Mathlib.Data.Multiset.Bind
import Mathlib.Logic.Relation
import SpnegoRealm.Groups.Expansion

/-! # Overlapping expansions

A search whose expansions overlap. Every group that is submitted becomes a task. A task waits for
one of the permits, asks for the members of its group, claims those whose names nobody has
recorded, one after the other, and gives its permit back. Finished tasks are joined one at a time;
what a joined task claimed is submitted, one level deeper, as long as the depth allows it. Tasks
obtain permits, get their answers, claim and are joined in any order
(`SpnegoRealm.Groups.Run.Step`).

Whatever the order, the books balance (`SpnegoRealm.Groups.Run.Balanced`): permits are held by
the tasks that ask or claim, submitted tasks are waiting, asking, claiming, finished or joined, and
every recorded group has been submitted or claimed at most once.
-/

namespace SpnegoRealm.Groups

/-- A group that was submitted for expansion, and its depth. -/
structure Task where
  group : String
  depth : ℕ
  deriving DecidableEq, Repr

/-- A task that goes through the answer to its question. -/
structure Claiming where
  task : Task
  /-- The members that are still to be looked at. -/
  remaining : List String
  /-- The members that were not recorded before. -/
  claimed : List String
  deriving DecidableEq, Repr

/-- A task that is over, and the members that it claimed. -/
structure Finding where
  task : Task
  claimed : List String
  deriving DecidableEq, Repr

/-- What is submitted once a task is joined: what it claimed, one level deeper, unless that is too
deep. -/
def Finding.successors (maxDepth : ℕ) (finding : Finding) : List Task :=
  if finding.task.depth < maxDepth then finding.claimed.map (⟨·, finding.task.depth + 1⟩) else []

/-- A task is submitted for each claim of a joined task that is not too deep, one level deeper. -/
theorem Finding.mem_successors {maxDepth : ℕ} {finding : Finding} {task : Task} :
    task ∈ finding.successors maxDepth ↔ finding.task.depth < maxDepth ∧
      task.group ∈ finding.claimed ∧ task.depth = finding.task.depth + 1 := by
  unfold successors
  split
  next shallow =>
    rw [List.mem_map]
    constructor
    · rintro ⟨group, claimed, rfl⟩
      exact ⟨shallow, claimed, rfl⟩
    · rintro ⟨-, claimed, depth⟩
      exact ⟨task.group, claimed, by rw [← depth]⟩
  next deep =>
    simp only [List.not_mem_nil, deep, false_and]

/-- The groups that are submitted for a joined task are those that it claimed, unless they are too
deep. -/
theorem Finding.map_group_successors (maxDepth : ℕ) (finding : Finding) :
    (finding.successors maxDepth).map Task.group =
      if finding.task.depth < maxDepth then finding.claimed else [] := by
  unfold successors
  split
  next =>
    rw [List.map_map]
    exact List.map_id finding.claimed
  next => rfl

/-- The state of a search. -/
structure Run where
  /-- The permits that nobody holds. -/
  permits : ℕ
  /-- The groups met so far, as first spelled, latest first. -/
  recorded : List String
  waiting : Multiset Task
  asking : Multiset Task
  claiming : Multiset Claiming
  finished : Multiset Finding
  /-- What the task joined last claimed and is still to be submitted. -/
  handing : List Task
  joined : Multiset Task
  submitted : Multiset Task
  asked : Multiset String

namespace Run

/-- A search before its first step: its seed is recorded, and the task for it waits. -/
def initial (limits : Limits) (seed : String) : Run where
  permits := max limits.maxWorkers 1
  recorded := [seed]
  waiting := {⟨seed, 1⟩}
  asking := 0
  claiming := 0
  finished := 0
  handing := []
  joined := 0
  submitted := {⟨seed, 1⟩}
  asked := 0

/-- The start of a search. A bound on workers that no number of permits can meet stops it. -/
def launch (limits : Limits) (seed : String) : Except Crash Run :=
  if limits.maxWorkers ≤ permitLimit then .ok (initial limits seed) else .error .tooManyWorkers

/-- The names recorded so far. -/
def known (run : Run) : List String := run.recorded.map Text.lowercase

/-- What a search may do next. -/
inductive Step (directory : Directory) (maxDepth : ℕ) : Run → Run → Prop
  /-- A waiting task obtains a permit and asks its question. -/
  | start {run : Run} {task : Task} {rest : Multiset Task} (waits : run.waiting = task ::ₘ rest)
    (free : 0 < run.permits) :
    Step directory maxDepth run
      { run with
        permits := run.permits - 1
        waiting := rest
        asking := task ::ₘ run.asking
        asked := task.group ::ₘ run.asked }
  /-- A question is answered. -/
  | answer {run : Run} {task : Task} {rest : Multiset Task} {children : List String}
    (asks : run.asking = task ::ₘ rest)
    (answered : directory.memberGroups task.group = .ok children) :
    Step directory maxDepth run
      { run with asking := rest, claiming := ⟨task, children, []⟩ ::ₘ run.claiming }
  /-- A question fails, and its task is over. -/
  | fail {run : Run} {task : Task} {rest : Multiset Task} {fault : DirectoryError}
    (asks : run.asking = task ::ₘ rest)
    (failed : directory.memberGroups task.group = .error fault) :
    Step directory maxDepth run
      { run with
        permits := run.permits + 1
        asking := rest
        finished := ⟨task, []⟩ ::ₘ run.finished }
  /-- A task looks at a member that is recorded. -/
  | skip {run : Run} {task : Task} {child : String} {children claimed : List String}
    {rest : Multiset Claiming}
    (claims : run.claiming = ⟨task, child :: children, claimed⟩ ::ₘ rest)
    (met : Text.lowercase child ∈ run.known) :
    Step directory maxDepth run { run with claiming := ⟨task, children, claimed⟩ ::ₘ rest }
  /-- A task records a member. -/
  | claim {run : Run} {task : Task} {child : String} {children claimed : List String}
    {rest : Multiset Claiming}
    (claims : run.claiming = ⟨task, child :: children, claimed⟩ ::ₘ rest)
    (fresh : Text.lowercase child ∉ run.known) :
    Step directory maxDepth run
      { run with
        recorded := child :: run.recorded
        claiming := ⟨task, children, claimed ++ [child]⟩ ::ₘ rest }
  /-- A task has looked at all members and gives its permit back. -/
  | finish {run : Run} {task : Task} {claimed : List String} {rest : Multiset Claiming}
    (claims : run.claiming = ⟨task, [], claimed⟩ ::ₘ rest) :
    Step directory maxDepth run
      { run with
        permits := run.permits + 1
        claiming := rest
        finished := ⟨task, claimed⟩ ::ₘ run.finished }
  /-- A finished task is joined. -/
  | join {run : Run} {finding : Finding} {rest : Multiset Finding} (idle : run.handing = [])
    (ended : run.finished = finding ::ₘ rest) :
    Step directory maxDepth run
      { run with
        finished := rest
        handing := finding.successors maxDepth
        joined := finding.task ::ₘ run.joined }
  /-- A claimed group is submitted. -/
  | submit {run : Run} {task : Task} {rest : List Task} (hands : run.handing = task :: rest) :
    Step directory maxDepth run
      { run with
        waiting := task ::ₘ run.waiting
        handing := rest
        submitted := task ::ₘ run.submitted }

/-- One state of a search comes after another, by any number of steps. -/
abbrev Reaches (directory : Directory) (maxDepth : ℕ) : Run → Run → Prop :=
  Relation.ReflTransGen (Step directory maxDepth)

/-- No task is outstanding. -/
structure IsComplete (run : Run) : Prop where
  waiting : run.waiting = 0
  asking : run.asking = 0
  claiming : run.claiming = 0
  finished : run.finished = 0
  handing : run.handing = []

/-- What a search that is complete answers: the groups recorded, without the one searched below, in
increasing order of their spellings. -/
def found (run : Run) (seed : String) : List String :=
  (run.recorded.filter fun group => Text.lowercase group ≠ Text.lowercase seed).mergeSort
    fun first second => decide (first ≤ second)

/-! ## Balance -/

/-- The groups that were claimed and are not submitted yet. -/
def held (run : Run) : Multiset String :=
  (run.claiming.bind fun claiming => Multiset.ofList claiming.claimed) +
    (run.finished.bind fun finding => Multiset.ofList finding.claimed) +
      Multiset.ofList (run.handing.map Task.group)

/-- The groups that were submitted or still may be. -/
def placed (run : Run) : Multiset String := run.submitted.map Task.group + run.held

/-- The tasks that asked their question. -/
def started (run : Run) : Multiset Task :=
  run.asking + run.claiming.map Claiming.task + run.finished.map Finding.task + run.joined

/-- The books of a search balance. -/
structure Balanced (limits : Limits) (seed : String) (run : Run) : Prop where
  permits : run.permits + run.asking.card + run.claiming.card = max limits.maxWorkers 1
  submitted : run.submitted = run.waiting + run.started
  asked : run.asked = run.started.map Task.group
  distinct : run.known.Nodup
  seed : seed ∈ run.recorded
  placed : run.placed ≤ ↑run.recorded

variable {directory : Directory} {limits : Limits} {seed : String} {run next : Run}

/-- A search starts if there can be as many permits as it has workers. -/
theorem launch_of_permitted (permitted : limits.maxWorkers ≤ permitLimit) :
    launch limits seed = .ok (initial limits seed) :=
  if_pos permitted

/-- A search that starts is in its first state. -/
theorem eq_initial_of_launch (launched : launch limits seed = .ok run) :
    run = initial limits seed := by
  unfold launch at launched
  split at launched
  · exact (Except.ok.inj launched).symm
  · cases launched

/-- At first the books balance. -/
theorem balanced_initial (limits : Limits) (seed : String) :
    (initial limits seed).Balanced limits seed where
  permits := by simp [initial]
  submitted := by simp [initial, started]
  asked := by simp [initial, started]
  distinct := List.nodup_singleton _
  seed := List.mem_singleton_self seed
  placed := by simp [initial, placed, held]

/-- A group that is held was claimed by a task under way or finished, or is about to be submitted.
-/
theorem mem_held {group : String} : group ∈ run.held ↔
    (∃ claiming ∈ run.claiming, group ∈ claiming.claimed) ∨
      (∃ finding ∈ run.finished, group ∈ finding.claimed) ∨
        ∃ task ∈ run.handing, task.group = group := by
  simp only [held, Multiset.mem_add, Multiset.mem_bind, Multiset.mem_coe, List.mem_map, or_assoc]

/-- Once a search is complete, no group is held. -/
theorem IsComplete.held_eq_zero (complete : run.IsComplete) : run.held = 0 := by
  simp only [held, complete.claiming, complete.finished, complete.handing, Multiset.zero_bind,
    List.map_nil, Multiset.coe_nil, add_zero]

/-- A step records at most one group, whose name is not known and which may be submitted. The
other groups keep their places, unless a task is joined at the greatest depth: nothing that it
claimed is submitted. -/
theorem Step.placed {maxDepth : ℕ} (step : Step directory maxDepth run next) :
    (next.recorded = run.recorded ∧ next.placed = run.placed) ∨
      (∃ child, Text.lowercase child ∉ run.known ∧ next.recorded = child :: run.recorded ∧
        next.placed = child ::ₘ run.placed) ∨
      ∃ finding ∈ run.finished, maxDepth ≤ finding.task.depth ∧ next.recorded = run.recorded ∧
        next.placed + ↑finding.claimed = run.placed := by
  cases step with
  | start waits free => exact Or.inl ⟨rfl, rfl⟩
  | answer asks answered =>
      refine Or.inl ⟨rfl, ?_⟩
      simp only [Run.placed, held, Multiset.cons_bind, Multiset.coe_nil, zero_add]
  | fail asks failed =>
      refine Or.inl ⟨rfl, ?_⟩
      simp only [Run.placed, held, Multiset.cons_bind, Multiset.coe_nil, zero_add]
  | skip claims met =>
      refine Or.inl ⟨rfl, ?_⟩
      simp only [Run.placed, held, claims, Multiset.cons_bind]
  | @claim _ child _ _ _ claims fresh =>
      refine Or.inr (Or.inl ⟨child, fresh, rfl, ?_⟩)
      simp only [Run.placed, held, claims, Multiset.cons_bind, ← Multiset.coe_add,
        ← Multiset.cons_coe, Multiset.coe_nil, add_zero, Multiset.add_cons, Multiset.cons_add]
  | finish claims =>
      refine Or.inl ⟨rfl, ?_⟩
      simp only [Run.placed, held, claims, Multiset.cons_bind]
      ac_rfl
  | @join finding _ idle ended =>
      by_cases shallow : finding.task.depth < maxDepth
      · refine Or.inl ⟨rfl, ?_⟩
        simp only [Run.placed, held, ended, idle, Multiset.cons_bind, Finding.map_group_successors,
          shallow, ↓reduceIte, List.map_nil, Multiset.coe_nil, add_zero]
        ac_rfl
      · refine Or.inr (Or.inr ⟨finding, ?_, Nat.le_of_not_lt shallow, rfl, ?_⟩)
        · rw [ended]
          exact Multiset.mem_cons_self _ _
        · simp only [Run.placed, held, ended, idle, Multiset.cons_bind,
            Finding.map_group_successors, shallow, ↓reduceIte, List.map_nil, Multiset.coe_nil,
            add_zero]
          ac_rfl
  | submit hands =>
      refine Or.inl ⟨rfl, ?_⟩
      simp only [Run.placed, held, hands, List.map_cons, Multiset.map_cons, ← Multiset.cons_coe,
        Multiset.add_cons, Multiset.cons_add]

/-- A step forgets no name. -/
theorem Step.known_subset {maxDepth : ℕ} (step : Step directory maxDepth run next) :
    run.known ⊆ next.known := by
  unfold known
  rcases step.placed with ⟨same, -⟩ | ⟨child, -, more, -⟩ | ⟨finding, -, -, same, -⟩
  · rw [same]
    exact List.Subset.refl _
  · rw [more]
    exact List.subset_cons_self _ _
  · rw [same]
    exact List.Subset.refl _

/-- A step keeps the books balanced. -/
theorem Balanced.step (balanced : run.Balanced limits seed) {maxDepth : ℕ}
    (step : Step directory maxDepth run next) : next.Balanced limits seed := by
  obtain ⟨permits, submitted, asked, distinct, present, placed⟩ := balanced
  have placed' : next.placed ≤ ↑next.recorded := by
    rcases step.placed with ⟨same, equal⟩ | ⟨child, -, more, equal⟩ | ⟨finding, -, -, same, equal⟩
    · rwa [same, equal]
    · rw [more, equal, ← Multiset.cons_coe]
      exact Multiset.cons_le_cons child placed
    · rw [same]
      exact le_trans (equal ▸ Multiset.le_add_right _ _) placed
  cases step with
  | start waits free =>
      refine ⟨?_, ?_, ?_, distinct, present, placed'⟩
      · simp only [Multiset.card_cons]
        omega
      · simp only [submitted, started, waits, Multiset.cons_add, Multiset.add_cons]
      · simp only [asked, started, Multiset.cons_add, Multiset.map_cons]
  | answer asks answered =>
      refine ⟨?_, ?_, ?_, distinct, present, placed'⟩
      · simp only [asks, Multiset.card_cons] at permits ⊢
        omega
      · simp only [submitted, started, asks, Multiset.map_cons, Multiset.cons_add,
          Multiset.add_cons]
      · simp only [asked, started, asks, Multiset.map_cons, Multiset.cons_add, Multiset.add_cons]
  | fail asks failed =>
      refine ⟨?_, ?_, ?_, distinct, present, placed'⟩
      · simp only [asks, Multiset.card_cons] at permits ⊢
        omega
      · simp only [submitted, started, asks, Multiset.map_cons, Multiset.cons_add,
          Multiset.add_cons]
      · simp only [asked, started, asks, Multiset.map_cons, Multiset.cons_add, Multiset.add_cons]
  | skip claims met =>
      refine ⟨?_, ?_, ?_, distinct, present, placed'⟩
      · simpa only [claims, Multiset.card_cons] using permits
      · simp only [submitted, started, claims, Multiset.map_cons]
      · simp only [asked, started, claims, Multiset.map_cons]
  | claim claims fresh =>
      refine ⟨?_, ?_, ?_, ?_, List.mem_cons_of_mem _ present, placed'⟩
      · simpa only [claims, Multiset.card_cons] using permits
      · simp only [submitted, started, claims, Multiset.map_cons]
      · simp only [asked, started, claims, Multiset.map_cons]
      · exact List.nodup_cons.mpr ⟨fresh, distinct⟩
  | finish claims =>
      refine ⟨?_, ?_, ?_, distinct, present, placed'⟩
      · simp only [claims, Multiset.card_cons] at permits ⊢
        omega
      · simp only [submitted, started, claims, Multiset.map_cons, Multiset.cons_add,
          Multiset.add_cons]
      · simp only [asked, started, claims, Multiset.map_cons, Multiset.cons_add,
          Multiset.add_cons]
  | join idle ended =>
      refine ⟨permits, ?_, ?_, distinct, present, placed'⟩
      · simp only [submitted, started, ended, Multiset.map_cons, Multiset.cons_add,
          Multiset.add_cons]
      · simp only [asked, started, ended, Multiset.map_cons, Multiset.cons_add, Multiset.add_cons]
  | submit hands =>
      refine ⟨permits, ?_, asked, distinct, present, placed'⟩
      simp only [submitted, started, Multiset.cons_add]

/-- The books of every search balance. -/
theorem Balanced.of_reaches {maxDepth : ℕ}
    (reaches : Reaches directory maxDepth (initial limits seed) run) :
    run.Balanced limits seed := by
  induction reaches with
  | refl => exact balanced_initial limits seed
  | tail _ step ih => exact ih.step step

/-- At most as many questions are asked at a time as there are workers. -/
theorem Balanced.card_asking_le (balanced : run.Balanced limits seed) :
    run.asking.card ≤ max limits.maxWorkers 1 := by
  have permits := balanced.permits
  omega

/-- Only groups that were placed are asked about, each at most once. -/
theorem Balanced.asked_le_placed (balanced : run.Balanced limits seed) :
    run.asked ≤ run.placed := by
  rw [balanced.asked, Run.placed, balanced.submitted, Multiset.map_add]
  exact le_trans (Multiset.le_add_left _ _) (Multiset.le_add_right _ _)

/-- No name is asked about twice. -/
theorem Balanced.nodup_asked (balanced : run.Balanced limits seed) :
    (run.asked.map Text.lowercase).Nodup := by
  have names : run.asked.map Text.lowercase ≤ ↑run.known :=
    Multiset.map_le_map (le_trans balanced.asked_le_placed balanced.placed)
  exact Multiset.nodup_of_le names (Multiset.coe_nodup.mpr balanced.distinct)

/-- Once a search is complete, every submitted task is joined. -/
theorem Balanced.joined_eq (balanced : run.Balanced limits seed) (complete : run.IsComplete) :
    run.joined = run.submitted := by
  simp only [balanced.submitted, started, complete.waiting, complete.asking, complete.claiming,
    complete.finished, Multiset.map_zero, zero_add]

/-- A search that is not complete can go on: what is under way never waits for a permit, and
without anything under way all permits are free. -/
theorem Balanced.isComplete_or_step (balanced : run.Balanced limits seed) (directory : Directory)
    (maxDepth : ℕ) : run.IsComplete ∨ ∃ next, Step directory maxDepth run next := by
  by_cases idle : run.handing = []
  case neg =>
    obtain ⟨task, rest, hands⟩ := List.exists_cons_of_ne_nil idle
    exact Or.inr ⟨_, .submit hands⟩
  rcases Multiset.empty_or_exists_mem run.finished with noneFinished | ⟨finding, member⟩
  case inr =>
    obtain ⟨rest, ended⟩ := Multiset.exists_cons_of_mem member
    exact Or.inr ⟨_, .join idle ended⟩
  rcases Multiset.empty_or_exists_mem run.claiming with noneClaims | ⟨claiming, member⟩
  case inr =>
    obtain ⟨rest, claims⟩ := Multiset.exists_cons_of_mem member
    obtain ⟨task, remaining, claimed⟩ := claiming
    cases remaining with
    | nil => exact Or.inr ⟨_, .finish claims⟩
    | cons child children =>
        by_cases met : Text.lowercase child ∈ run.known
        · exact Or.inr ⟨_, .skip claims met⟩
        · exact Or.inr ⟨_, .claim claims met⟩
  rcases Multiset.empty_or_exists_mem run.asking with noneAsks | ⟨task, member⟩
  case inr =>
    obtain ⟨rest, asks⟩ := Multiset.exists_cons_of_mem member
    cases answer : directory.memberGroups task.group with
    | ok children => exact Or.inr ⟨_, .answer asks answer⟩
    | error fault => exact Or.inr ⟨_, .fail asks answer⟩
  rcases Multiset.empty_or_exists_mem run.waiting with noneWaits | ⟨task, member⟩
  case inr =>
    obtain ⟨rest, waits⟩ := Multiset.exists_cons_of_mem member
    have free : 0 < run.permits := by
      have permits := balanced.permits
      simp only [noneAsks, noneClaims, Multiset.card_zero] at permits
      omega
    exact Or.inr ⟨_, .start waits free⟩
  exact Or.inl ⟨noneWaits, noneAsks, noneClaims, noneFinished, idle⟩

/-- The names found are those known apart from that of the seed. -/
theorem mem_names_found_iff (name : String) :
    name ∈ (run.found seed).map Text.lowercase ↔
      name ≠ Text.lowercase seed ∧ name ∈ run.known := by
  unfold found known
  rw [((List.mergeSort_perm _ _).map _).mem_iff]
  simp only [List.mem_map, List.mem_filter, decide_eq_true_eq]
  constructor
  · rintro ⟨group, ⟨recorded, other⟩, rfl⟩
    exact ⟨other, group, recorded, rfl⟩
  · rintro ⟨other, group, recorded, rfl⟩
    exact ⟨group, ⟨recorded, other⟩, rfl⟩

end Run

end SpnegoRealm.Groups
