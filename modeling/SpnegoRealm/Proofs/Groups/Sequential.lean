import SpnegoRealm.Proofs.Groups.BreadthFirst
import SpnegoRealm.Proofs.Groups.Concurrent

/-! # Expansions one after the other

One order of a search is to carry a waiting task through all its stages before another one starts
(`SpnegoRealm.Groups.Run.reaches_expand`). With the tasks taken first in, first out, this is the
breadth-first search: it records what the visits claim, and its answer is that of `resolve`
(`SpnegoRealm.Groups.Run.exists_sequential`).
-/

namespace SpnegoRealm.Groups

open Directory

/-- What is claimed depends only on which names are known. -/
theorem claim_congr {known other : List String} (same : ∀ name, name ∈ known ↔ name ∈ other)
    (children : List String) : claim known children = claim other children := by
  induction children generalizing known other with
  | nil => rfl
  | cons child rest ih =>
      have met : known.contains (Text.lowercase child) = other.contains (Text.lowercase child) := by
        rw [Bool.eq_iff_iff, List.contains_iff_mem, List.contains_iff_mem]
        exact same _
      have extended : claim (Text.lowercase child :: known) rest =
          claim (Text.lowercase child :: other) rest :=
        ih fun name => by rw [List.mem_cons, List.mem_cons, same name]
      rw [claim, claim, met, ih same, extended]

namespace Run

variable {search : Search} {directory : Directory} {maxDepth : ℕ} {run : Run} {task : Task}
  {rest : Multiset Task}

/-- What a search would record if a task looked at some members now. -/
def fresh (run : Run) (children : List String) : List String := claim run.known children

/-- The state after a waiting task went through all its stages. -/
def expand (search : Search) (task : Task) (rest : Multiset Task) (run : Run) : Run :=
  let claimed := run.fresh (search.members task.group)
  let successors := Finding.successors search.maxDepth ⟨task, claimed⟩
  { run with
    recorded := claimed.reverse ++ run.recorded
    waiting := ↑successors + rest
    joined := task ::ₘ run.joined
    submitted := ↑successors + run.submitted
    asked := task.group ::ₘ run.asked }

/-- To expand a group makes its members known, and nothing else. -/
theorem mem_known_expand {name : String} :
    name ∈ (run.expand search task rest).known ↔
      name ∈ run.known ∨ name ∈ (search.members task.group).map Text.lowercase := by
  rw [← mem_known_or_claim]
  simp only [expand, known, fresh, List.map_append, List.map_reverse, List.mem_append,
    List.mem_reverse]
  exact or_comm

private theorem reaches_claims (children claimed : List String) (run : Run)
    {others : Multiset Claiming}
    (claims : run.claiming = ⟨task, children, claimed⟩ ::ₘ others) :
    Reaches directory maxDepth run
      { run with
        recorded := (run.fresh children).reverse ++ run.recorded
        claiming := ⟨task, [], claimed ++ run.fresh children⟩ ::ₘ others } := by
  induction children generalizing claimed run with
  | nil =>
      simp only [fresh, claim, List.reverse_nil, List.nil_append, List.append_nil, ← claims]
      exact .refl
  | cons child children ih =>
      by_cases met : Text.lowercase child ∈ run.known
      · have skipped : run.fresh (child :: children) = run.fresh children := by
          rw [fresh, claim, if_pos (List.contains_iff_mem.mpr met), fresh]
        rw [skipped]
        exact .head (.skip claims met)
          (ih claimed { run with claiming := ⟨task, children, claimed⟩ ::ₘ others } rfl)
      · let next : Run :=
          { run with
            recorded := child :: run.recorded
            claiming := ⟨task, children, claimed ++ [child]⟩ ::ₘ others }
        have taken : run.fresh (child :: children) = child :: next.fresh children := by
          rw [fresh, claim, if_neg (fun present => met (List.contains_iff_mem.mp present))]
          rfl
        have later := ih (claimed ++ [child]) next rfl
        rw [taken, List.reverse_cons, List.append_assoc, List.singleton_append]
        rw [List.append_assoc, List.singleton_append] at later
        exact .head (.claim claims met) later

private theorem reaches_submits (tasks : List Task) (run : Run) (hands : run.handing = tasks) :
    Reaches directory maxDepth run
      { run with
        waiting := ↑tasks + run.waiting
        handing := []
        submitted := ↑tasks + run.submitted } := by
  induction tasks generalizing run with
  | nil =>
      simp only [Multiset.coe_nil, zero_add]
      rw [← hands]
  | cons task tasks ih =>
      have later := ih
        { run with
          waiting := task ::ₘ run.waiting
          handing := tasks
          submitted := task ::ₘ run.submitted } rfl
      simp only [Multiset.add_cons, ← Multiset.cons_add, Multiset.cons_coe] at later
      exact .head (.submit hands) later

/-- **A waiting task can go through all its stages.** -/
theorem reaches_expand (idle : run.handing = []) (free : 0 < run.permits)
    (waits : run.waiting = task ::ₘ rest) :
    Reaches search.directory search.maxDepth run (run.expand search task rest) := by
  have permits : run.permits - 1 + 1 = run.permits := Nat.sub_add_cancel free
  refine .head (.start waits free) ?_
  unfold expand Search.members
  cases answer : search.directory.memberGroups task.group with
  | ok children =>
      refine .head (.answer rfl answer) ?_
      refine .trans (reaches_claims children [] _ rfl) ?_
      refine .head (.finish rfl) (.head (.join idle rfl) ?_)
      refine .trans (reaches_submits _ _ rfl) ?_
      simp only [permits, ← idle]
      exact .refl
  | error fault =>
      refine .head (.fail rfl answer) (.head (.join idle rfl) ?_)
      refine .trans (reaches_submits _ _ rfl) ?_
      simp only [permits, ← idle]
      exact .refl

end Run

/-! ## First in, first out -/

/-- The task for a group that waits at a depth. -/
def Arrival.task (depth : ℕ) (arrival : Arrival) : Task := ⟨arrival.group, depth⟩

/-- No task is under way, and those that wait are the groups that wait in a breadth-first search. -/
structure Queued (search : Search) (depth : ℕ) (known : List String) (deeper here : List Arrival)
    (run : Run) : Prop where
  free : 0 < run.permits
  asking : run.asking = 0
  claiming : run.claiming = 0
  finished : run.finished = 0
  handing : run.handing = []
  known : ∀ name, name ∈ run.known ↔ name ∈ known
  waiting : run.waiting = ↑(here.map (Arrival.task depth)) + ↑(deeper.map (Arrival.task (depth + 1)))
  deepest : ¬ depth < search.maxDepth → deeper = []

namespace Queued

variable {search : Search} {depth : ℕ} {known : List String} {finishes : List Instant}
  {deeper here : List Arrival} {arrival : Arrival} {run : Run}

private theorem isComplete (queued : Queued search depth known [] [] run) : run.IsComplete where
  waiting := by
    rw [queued.waiting]
    rfl
  asking := queued.asking
  claiming := queued.claiming
  finished := queued.finished
  handing := queued.handing

private theorem descend (queued : Queued search depth known deeper [] run) :
    Queued search (depth + 1) known [] deeper run where
  free := queued.free
  asking := queued.asking
  claiming := queued.claiming
  finished := queued.finished
  handing := queued.handing
  known := queued.known
  waiting := by
    rw [queued.waiting, List.map_nil, List.map_nil, Multiset.coe_nil, zero_add, add_zero]
  deepest _ := rfl

/-- The tasks that wait behind the first one. -/
def others (depth : ℕ) (deeper here : List Arrival) : Multiset Task :=
  ↑(here.map (Arrival.task depth)) + ↑(deeper.map (Arrival.task (depth + 1)))

private theorem fresh_eq (queued : Queued search depth known deeper here run)
    (finishes : List Instant)
    (arrival : Arrival) : run.fresh (search.members arrival.group) =
      (search.visit depth known finishes arrival).claimed :=
  claim_congr queued.known _

/-- Carrying the first task through all its stages is a visit. -/
theorem visit (queued : Queued search depth known deeper (arrival :: here) run)
    (finishes : List Instant) :
    Queued search depth (known ++ (search.visit depth known finishes arrival).claimedNames)
      (deeper ++
        if depth < search.maxDepth then
          (search.visit depth known finishes arrival).claimed.map
            (⟨·, (search.visit depth known finishes arrival).finish⟩)
        else [])
      here (run.expand search (arrival.task depth) (others depth deeper here)) where
  free := queued.free
  asking := queued.asking
  claiming := queued.claiming
  finished := queued.finished
  handing := queued.handing
  known name := by
    have claimed := queued.fresh_eq finishes arrival
    simp only [Run.known, Run.expand, Arrival.task, claimed, List.map_append, List.map_reverse,
      List.mem_append, List.mem_reverse, ← queued.known name]
    exact or_comm
  waiting := by
    have claimed := queued.fresh_eq finishes arrival
    simp only [Run.expand, Arrival.task, claimed, Finding.successors, others]
    split
    next =>
      simp only [List.map_append, List.map_map, ← Multiset.coe_add]
      rw [add_comm, add_assoc]
      rfl
    next => rw [List.append_nil, Multiset.coe_nil, zero_add]
  deepest deep := by
    rw [queued.deepest deep, if_neg deep, List.append_nil]

/-- From there on, one task after the other is a breadth-first search. -/
theorem exists_visits (search : Search) (depth : ℕ) (known : List String)
    (finishes : List Instant) (deeper here : List Arrival) :
    ∀ run, Queued search depth known deeper here run →
      ∃ last, Run.Reaches search.directory search.maxDepth run last ∧ last.IsComplete ∧
        last.recorded =
          ((search.visits depth known finishes deeper here).flatMap Visit.claimed).reverse ++
            run.recorded := by
  induction depth, known, finishes, deeper, here using Search.visits.induct search with
  | case1 depth known finishes shallow =>
      intro run queued
      rw [Search.visits, if_pos shallow]
      exact ⟨run, .refl, queued.isComplete, rfl⟩
  | case2 depth known finishes shallow arrival rest ih =>
      intro run queued
      rw [Search.visits, if_pos shallow]
      exact ih run queued.descend
  | case3 depth known finishes deeper deepest =>
      intro run queued
      rw [Search.visits_of_deepest deepest]
      obtain rfl := queued.deepest deepest
      exact ⟨run, .refl, queued.isComplete, rfl⟩
  | case4 depth known finishes deeper arrival rest visit waiting ih =>
      intro run queued
      obtain ⟨last, reaches, complete, recorded⟩ := ih _ (queued.visit finishes)
      have first : Run.Reaches search.directory search.maxDepth run
          (run.expand search (arrival.task depth) (others depth deeper rest)) := by
        refine Run.reaches_expand queued.handing queued.free ?_
        rw [queued.waiting, List.map_cons, ← Multiset.cons_coe, Multiset.cons_add, others]
      refine ⟨last, first.trans reaches, complete, ?_⟩
      have claimed := queued.fresh_eq finishes arrival
      rw [recorded, Search.visits, List.flatMap_cons, List.reverse_append, List.append_assoc]
      simp only [Run.expand, Arrival.task, claimed]
      rfl

end Queued

private theorem mergeSort_eq_of_perm {groups others : List String} (perm : groups.Perm others) :
    (groups.mergeSort fun first second => decide (first ≤ second)) =
      others.mergeSort fun first second => decide (first ≤ second) := by
  refine List.Perm.eq_of_pairwise' (List.pairwise_mergeSort' (· ≤ ·) groups)
    (List.pairwise_mergeSort' (· ≤ ·) others) ?_
  exact ((List.mergeSort_perm _ _).trans perm).trans (List.mergeSort_perm _ _).symm

/-- **Some order answers like the breadth-first search.** -/
theorem Run.exists_sequential {directory : Directory} (folds : directory.FoldsCase)
    (limits : Limits) (seed : String) (start : Instant) :
    ∃ last, Run.Reaches directory limits.maxDepth (Run.initial limits seed) last ∧
      last.IsComplete ∧ last.found seed = Groups.found (visitsFrom directory limits seed start) := by
  let search : Search :=
    { directory := directory
      maxDepth := limits.maxDepth
      lanes := if directory.latency = 0 then 1 else max limits.maxWorkers 1 }
  have queued : Queued search 1 [Text.lowercase seed] [] [⟨seed, start⟩]
      (Run.initial limits seed) :=
    { free := Nat.lt_of_lt_of_le Nat.one_pos (le_max_right _ _)
      asking := rfl
      claiming := rfl
      finished := rfl
      handing := rfl
      known := fun name => Iff.rfl
      waiting := rfl
      deepest := fun _ => rfl }
  obtain ⟨last, reaches, complete, recorded⟩ := Queued.exists_visits search _ _ [] _ _ _ queued
  refine ⟨last, reaches, complete, mergeSort_eq_of_perm ?_⟩
  obtain ⟨_, _, _, explored⟩ := explored_visitsFrom folds limits seed start
  have apart := (List.nodup_cons.mp explored.distinct).1
  have other : ∀ group ∈ (visitsFrom directory limits seed start).flatMap Visit.claimed,
      Text.lowercase group ≠ Text.lowercase seed := by
    intro group claimed same
    refine apart (same ▸ ?_)
    obtain ⟨visit, visited, listed⟩ := List.mem_flatMap.mp claimed
    exact List.mem_flatMap.mpr ⟨visit, visited, List.mem_map_of_mem listed⟩
  have kept : last.recorded.filter (fun group => Text.lowercase group ≠ Text.lowercase seed) =
      ((visitsFrom directory limits seed start).flatMap Visit.claimed).reverse := by
    have without : [seed].filter (fun group => Text.lowercase group ≠ Text.lowercase seed) = [] := by
      simp
    rw [recorded, List.filter_append, Run.initial, without, List.append_nil]
    apply List.filter_eq_self.mpr
    intro group member
    exact decide_eq_true (other group (List.mem_reverse.mp member))
  rw [kept]
  exact List.reverse_perm _

end SpnegoRealm.Groups
