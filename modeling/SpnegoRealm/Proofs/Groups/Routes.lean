import SpnegoRealm.Proofs.Groups.Concurrent
import SpnegoRealm.Proofs.Groups.Distance

/-! # Routes of a search

Whoever records a name first decides how deep it is expanded. When expansions overlap, this need
not be the visit of a nearest group: a name can be recorded along any chain of nestings none of
whose earlier groups nests it. Such a chain is a route (`SpnegoRealm.Directory.Route`). Routes
never meet a name twice, so a route that passes as many groups as there are names below its root
meets all of them (`SpnegoRealm.Directory.Route.mem_of_ncard_le`).

In every state of a search a task of depth `n` has a route past `n - 1` groups, which were joined
or are about to be, and everything nested in these groups is recorded
(`SpnegoRealm.Groups.Run.Charted`).
-/

namespace SpnegoRealm

namespace Directory

/-- A way to a name: the groups passed on it, latest first. Each name is nested in the group passed
before and in no earlier one. -/
inductive Route (directory : Directory) (root : String) : List String → String → Prop
  | start : Route directory root [] root
  | next {passed : List String} {name member : String} (route : Route directory root passed name)
    (nests : directory.Nests name member) (other : member ≠ root)
    (later : ∀ earlier ∈ passed, ¬ directory.Nests earlier member) :
    Route directory root (name :: passed) member

/-- Everything nested in some names is known. -/
def Settled (directory : Directory) (known names : List String) : Prop :=
  ∀ name ∈ names, ∀ member, directory.Nests name member → member ∈ known

variable {directory : Directory} {root name : String} {passed known more : List String}

private theorem Settled.mono {names : List String} (settled : directory.Settled known names)
    (subset : known ⊆ more) : directory.Settled more names :=
  fun name listed member nests => subset (settled name listed member nests)

private theorem Settled.cons (parent : directory.Settled known [name])
    (settled : directory.Settled known passed) : directory.Settled known (name :: passed) := by
  intro other listed
  rcases List.mem_cons.mp listed with rfl | earlier
  · exact parent other (List.mem_singleton_self other)
  · exact settled other earlier

namespace Route

/-- A route is a chain of nestings past as many groups. -/
theorem chain (route : directory.Route root passed name) :
    directory.Chain root passed.length name := by
  induction route with
  | start => exact .root
  | next _ nests _ _ ih => exact ih.deeper nests

private theorem eq_root_or_nested (route : directory.Route root passed name) :
    ∀ other ∈ name :: passed,
      other = root ∨ ∃ earlier ∈ passed, directory.Nests earlier other := by
  induction route with
  | start =>
      intro other listed
      exact Or.inl (List.mem_singleton.mp listed)
  | @next passed name member _ nests _ _ ih =>
      intro other listed
      rcases List.mem_cons.mp listed with rfl | listed
      · exact Or.inr ⟨name, List.mem_cons_self, nests⟩
      · rcases ih other listed with isRoot | ⟨earlier, before, nested⟩
        · exact Or.inl isRoot
        · exact Or.inr ⟨earlier, List.mem_cons_of_mem _ before, nested⟩

/-- A route meets no name twice. -/
theorem nodup (route : directory.Route root passed name) : (name :: passed).Nodup := by
  induction route with
  | start => exact List.nodup_singleton _
  | @next passed name member route nests other later ih =>
      refine List.nodup_cons.mpr ⟨?_, ih⟩
      intro met
      rcases route.eq_root_or_nested member met with isRoot | ⟨earlier, before, nested⟩
      · exact other isRoot
      · exact later earlier before nested

private theorem mem_insert_below (route : directory.Route root passed name) :
    ∀ other ∈ name :: passed, other ∈ insert root (directory.below root) := by
  induction route with
  | start =>
      intro other listed
      exact Or.inl (List.mem_singleton.mp listed)
  | @next passed name member route nests apart _ ih =>
      intro other listed
      rcases List.mem_cons.mp listed with rfl | earlier
      · exact Or.inr ⟨apart, _, route.chain.deeper nests⟩
      · exact ih other earlier

private theorem toFinset_subset (route : directory.Route root passed name) :
    ((name :: passed).toFinset : Set String) ⊆ insert root (directory.below root) := by
  intro other listed
  exact route.mem_insert_below other (List.mem_toFinset.mp (Finset.mem_coe.mp listed))

private theorem ncard_toFinset (route : directory.Route root passed name) :
    ((name :: passed).toFinset : Set String).ncard = passed.length + 1 := by
  rw [Set.ncard_coe_finset, List.toFinset_card_of_nodup route.nodup, List.length_cons]

private theorem ncard_insert_below (finite : (directory.below root).Finite) :
    (insert root (directory.below root)).ncard = (directory.below root).ncard + 1 :=
  Set.ncard_insert_of_notMem (fun member => member.1 rfl) finite

/-- A route that passes as many groups as there are names below its root meets all these names. -/
theorem mem_of_ncard_le (finite : (directory.below root).Finite)
    (route : directory.Route root passed name)
    (long : (directory.below root).ncard ≤ passed.length) {other : String}
    (reached : other ∈ directory.below root) : other ∈ name :: passed := by
  have many : (insert root (directory.below root)).ncard ≤
      ((name :: passed).toFinset : Set String).ncard := by
    rw [route.ncard_toFinset, ncard_insert_below finite]
    exact Nat.succ_le_succ long
  have equal := Set.eq_of_subset_of_ncard_le route.toFinset_subset many (finite.insert root)
  have listed : other ∈ ((name :: passed).toFinset : Set String) := by
    rw [equal]
    exact Or.inr reached
  exact List.mem_toFinset.mp (Finset.mem_coe.mp listed)

end Route

end Directory

namespace Groups

open Directory

/-- The lowercased name of the group of a task. -/
def Task.name (task : Task) : String := Text.lowercase task.group

/-- A name to which a route leads past groups that are settled. A task whose group has this name
has the given depth. -/
def Located (directory : Directory) (root : String) (known : List String) (depth : ℕ)
    (name : String) : Prop :=
  ∃ passed, directory.Route root passed name ∧ passed.length + 1 = depth ∧
    directory.Settled known passed

/-- A name to which a route leads past the group of a task that may still be under way, and past
groups that are settled. -/
def ClaimedBy (directory : Directory) (root : String) (known : List String) (task : Task)
    (name : String) : Prop :=
  ∃ passed, directory.Route root (task.name :: passed) name ∧ passed.length + 1 = task.depth ∧
    directory.Settled known passed

variable {directory : Directory} {root name : String} {known more : List String} {depth : ℕ}
  {task : Task}

private theorem Located.mono (located : Located directory root known depth name)
    (subset : known ⊆ more) :
    Located directory root more depth name := by
  obtain ⟨passed, route, length, settled⟩ := located
  exact ⟨passed, route, length, settled.mono subset⟩

private theorem ClaimedBy.mono (claimed : ClaimedBy directory root known task name)
    (subset : known ⊆ more) : ClaimedBy directory root more task name := by
  obtain ⟨passed, route, length, settled⟩ := claimed
  exact ⟨passed, route, length, settled.mono subset⟩

private theorem Located.pos (located : Located directory root known depth name) : 0 < depth := by
  obtain ⟨passed, _, rfl, _⟩ := located
  exact Nat.succ_pos _

/-- A name that is not known when a task looks at it prolongs the route to the task's group. -/
theorem Located.claimedBy (located : Located directory root known task.depth task.name)
    (nests : directory.Nests task.name name) (start : root ∈ known) (fresh : name ∉ known) :
    ClaimedBy directory root known task name := by
  obtain ⟨passed, route, length, settled⟩ := located
  have other : name ≠ root := by
    rintro rfl
    exact fresh start
  exact ⟨passed, route.next nests other fun earlier before nested =>
    fresh (settled earlier before name nested), length, settled⟩

private theorem ClaimedBy.located (claimed : ClaimedBy directory root known task name)
    (settled : directory.Settled known [task.name]) :
    Located directory root known (task.depth + 1) name := by
  obtain ⟨passed, route, length, earlier⟩ := claimed
  exact ⟨task.name :: passed, route, congrArg (· + 1) length, settled.cons earlier⟩

/-! ## Where the tasks of a search are -/

/-- A task goes through an answer about its group, and what it has passed over is known. -/
structure Claiming.Charted (directory : Directory) (root : String) (known : List String)
    (claiming : Claiming) : Prop where
  members : ∃ children, directory.memberGroups claiming.task.group = .ok children ∧
    claiming.remaining ⊆ children ∧
    ∀ child ∈ children, child ∈ claiming.remaining ∨ Text.lowercase child ∈ known
  claimed : ∀ group ∈ claiming.claimed,
    ClaimedBy directory root known claiming.task (Text.lowercase group)

/-- Everything nested in the group of a finished task is known, and a route past this group leads
to what the task claimed. -/
structure Finding.Charted (directory : Directory) (root : String) (known : List String)
    (finding : Finding) : Prop where
  settled : directory.Settled known [finding.task.name]
  claimed : ∀ group ∈ finding.claimed,
    Located directory root known (finding.task.depth + 1) (Text.lowercase group)

/-- Routes lead to the groups of all tasks, and to the groups for which there is no task because
they are too deep. -/
structure Run.Charted (directory : Directory) (maxDepth : ℕ) (root : String) (run : Run) :
    Prop where
  tasks : ∀ task ∈ run.submitted + ↑run.handing, task.depth ≤ max maxDepth 1 ∧
    Located directory root run.known task.depth task.name
  claiming : ∀ claiming ∈ run.claiming, claiming.Charted directory root run.known
  finished : ∀ finding ∈ run.finished, finding.Charted directory root run.known
  joined : ∀ task ∈ run.joined, directory.Settled run.known [task.name]
  recorded : ∀ group ∈ run.recorded, group ∈ run.placed ∨
    Located directory root run.known (max maxDepth 1 + 1) (Text.lowercase group)

private theorem Claiming.Charted.mono {claiming : Claiming}
    (charted : claiming.Charted directory root known) (subset : known ⊆ more) :
    claiming.Charted directory root more where
  members := by
    obtain ⟨children, answered, listed, looked⟩ := charted.members
    exact ⟨children, answered, listed, fun child member =>
      (looked child member).imp_right fun old => subset old⟩
  claimed group member := (charted.claimed group member).mono subset

private theorem Finding.Charted.mono {finding : Finding}
    (charted : finding.Charted directory root known)
    (subset : known ⊆ more) : finding.Charted directory root more where
  settled := charted.settled.mono subset
  claimed group member := (charted.claimed group member).mono subset

private theorem Claiming.charted_of_answer {children : List String}
    (answered : directory.memberGroups task.group = .ok children) :
    Claiming.Charted directory root known ⟨task, children, []⟩ where
  members := ⟨children, answered, List.Subset.refl _, fun _ listed => Or.inl listed⟩
  claimed _ none := (List.not_mem_nil none).elim

namespace Claiming.Charted

variable {child : String} {children claimed : List String}

private theorem next
    (charted : Claiming.Charted directory root known ⟨task, child :: children, claimed⟩)
    (subset : known ⊆ more) (met : Text.lowercase child ∈ more) :
    Claiming.Charted directory root more ⟨task, children, claimed⟩ where
  members := by
    obtain ⟨answer, answered, listed, looked⟩ := charted.members
    refine ⟨answer, answered, (List.cons_subset.mp listed).2, fun other inAnswer => ?_⟩
    rcases looked other inAnswer with ahead | old
    · rcases List.mem_cons.mp ahead with rfl | ahead
      · exact Or.inr met
      · exact Or.inl ahead
    · exact Or.inr (subset old)
  claimed group member := (charted.claimed group member).mono subset

/-- A member that is not known prolongs the route to the group of the task. -/
theorem claim (folds : directory.FoldsCase)
    (charted : Claiming.Charted directory root known ⟨task, child :: children, claimed⟩)
    (located : Located directory root known task.depth task.name) (start : root ∈ known)
    (fresh : Text.lowercase child ∉ known) :
    Claiming.Charted directory root (Text.lowercase child :: known)
      ⟨task, children, claimed ++ [child]⟩ := by
  have subset : known ⊆ Text.lowercase child :: known := List.subset_cons_self _ _
  obtain ⟨members, routes⟩ := charted.next subset List.mem_cons_self
  refine ⟨members, fun group member => ?_⟩
  rcases List.mem_append.mp member with old | new
  · exact routes group old
  · obtain rfl := List.mem_singleton.mp new
    obtain ⟨answer, answered, listed, -⟩ := charted.members
    have nests : directory.Nests task.name (Text.lowercase group) :=
      (folds.nests_iff answered).mpr (List.mem_map_of_mem (listed List.mem_cons_self))
    exact (located.claimedBy nests start fresh).mono subset

/-- A task that has looked at its whole answer is charted as finished. -/
theorem finding (folds : directory.FoldsCase)
    (charted : Claiming.Charted directory root known ⟨task, [], claimed⟩) :
    Finding.Charted directory root known ⟨task, claimed⟩ := by
  have settled : directory.Settled known [task.name] := by
    intro name listed member nests
    obtain rfl := List.mem_singleton.mp listed
    obtain ⟨children, answered, -, looked⟩ := charted.members
    obtain ⟨child, inChildren, rfl⟩ := List.mem_map.mp ((folds.nests_iff answered).mp nests)
    exact (looked child inChildren).resolve_left List.not_mem_nil
  exact ⟨settled, fun group member => (charted.claimed group member).located settled⟩

end Claiming.Charted

private theorem Finding.charted_of_failure (folds : directory.FoldsCase) {fault : DirectoryError}
    (failed : directory.memberGroups task.group = .error fault) :
    Finding.Charted directory root known ⟨task, []⟩ where
  settled name listed member nests := by
    obtain rfl := List.mem_singleton.mp listed
    exact (folds.not_nests failed nests).elim
  claimed _ none := (List.not_mem_nil none).elim

namespace Run

variable {maxDepth : ℕ} {limits : Limits} {seed : String} {run next : Run}

/-- A search is charted at first. -/
theorem charted_initial (directory : Directory) (maxDepth : ℕ) (limits : Limits)
    (seed : String) : (initial limits seed).Charted directory maxDepth (Text.lowercase seed) := by
  refine ⟨?_, ?_, ?_, ?_, ?_⟩
  · intro task submitted
    obtain rfl : task = ⟨seed, 1⟩ := by simpa [initial] using submitted
    exact ⟨le_max_right _ _, [], .start, rfl, fun name listed => (List.not_mem_nil listed).elim⟩
  · intro claiming impossible
    exact (Multiset.notMem_zero _ impossible).elim
  · intro finding impossible
    exact (Multiset.notMem_zero _ impossible).elim
  · intro task impossible
    exact (Multiset.notMem_zero _ impossible).elim
  · intro group recorded
    obtain rfl := List.mem_singleton.mp recorded
    exact Or.inl (by simp [initial, placed])

/-- A task that claims has asked its question. -/
theorem mem_started_of_claiming {claiming : Claiming} (member : claiming ∈ run.claiming) :
    claiming.task ∈ run.started := by
  simp only [started, Multiset.mem_add]
  exact Or.inl (Or.inl (Or.inr (Multiset.mem_map_of_mem _ member)))

private theorem mem_started_of_finished {finding : Finding} (member : finding ∈ run.finished) :
    finding.task ∈ run.started := by
  simp only [started, Multiset.mem_add]
  exact Or.inl (Or.inr (Multiset.mem_map_of_mem _ member))

/-- A task that asked its question was submitted. -/
theorem Balanced.mem_submitted (balanced : run.Balanced limits seed)
    (member : task ∈ run.started) : task ∈ run.submitted := by
  rw [balanced.submitted]
  exact Multiset.mem_add.mpr (Or.inr member)

/-- A submitted task is not too deep, and its group is located. -/
theorem Charted.submitted (charted : run.Charted directory maxDepth root)
    (member : task ∈ run.submitted) : task.depth ≤ max maxDepth 1 ∧
      Located directory root run.known task.depth task.name :=
  charted.tasks task (Multiset.mem_add.mpr (Or.inl member))

/-- A step keeps recorded groups either placed or too deep. -/
theorem Charted.recorded_step (charted : run.Charted directory maxDepth root)
    (balanced : run.Balanced limits seed) (step : Step directory maxDepth run next) :
    ∀ group ∈ next.recorded, group ∈ next.placed ∨
      Located directory root next.known (max maxDepth 1 + 1) (Text.lowercase group) := by
  have mono := step.known_subset
  intro group recorded
  rcases step.placed with ⟨same, equal⟩ | ⟨child, -, grown, equal⟩ |
    ⟨finding, ended, deep, same, equal⟩
  · rw [same] at recorded
    rw [equal]
    exact (charted.recorded group recorded).imp_right fun located => located.mono mono
  · rw [grown] at recorded
    rw [equal]
    rcases List.mem_cons.mp recorded with rfl | old
    · exact Or.inl (Multiset.mem_cons_self _ _)
    · exact (charted.recorded group old).imp (Multiset.mem_cons_of_mem ·)
        fun located => located.mono mono
  · rw [same] at recorded
    rcases charted.recorded group recorded with member | located
    · rw [← equal] at member
      rcases Multiset.mem_add.mp member with member | dropped
      · exact Or.inl member
      · have located := (charted.finished finding ended).claimed group dropped
        obtain ⟨shallow, taskLocated⟩ :=
          charted.submitted (balanced.mem_submitted (mem_started_of_finished ended))
        have positive := taskLocated.pos
        obtain deepest : finding.task.depth = max maxDepth 1 := by omega
        rw [deepest] at located
        exact Or.inr (located.mono mono)
    · exact Or.inr (located.mono mono)

/-- A step leaves a search charted. -/
theorem Charted.step (folds : directory.FoldsCase) (balanced : run.Balanced limits seed)
    (charted : run.Charted directory maxDepth (Text.lowercase seed))
    (step : Step directory maxDepth run next) :
    next.Charted directory maxDepth (Text.lowercase seed) := by
  have recorded := charted.recorded_step balanced step
  have mono := step.known_subset
  obtain ⟨tasks, claiming, finished, joined, -⟩ := charted
  cases step with
  | start waits free => exact ⟨tasks, claiming, finished, joined, recorded⟩
  | answer asks answered =>
      refine ⟨tasks, Multiset.forall_mem_cons.mpr ⟨?_, claiming⟩, finished, joined, recorded⟩
      exact Claiming.charted_of_answer answered
  | fail asks failed =>
      refine ⟨tasks, claiming, Multiset.forall_mem_cons.mpr ⟨?_, finished⟩, joined, recorded⟩
      exact Finding.charted_of_failure folds failed
  | skip claims met =>
      rw [claims] at claiming
      obtain ⟨first, others⟩ := Multiset.forall_mem_cons.mp claiming
      have next := first.next (List.Subset.refl _) met
      exact ⟨tasks, Multiset.forall_mem_cons.mpr ⟨next, others⟩, finished, joined, recorded⟩
  | @claim task child children claimed rest claims fresh =>
      have present : (⟨task, child :: children, claimed⟩ : Claiming) ∈ run.claiming :=
        claims ▸ Multiset.mem_cons_self _ _
      have submitted : task ∈ run.submitted :=
        balanced.mem_submitted (mem_started_of_claiming present)
      have located := (tasks task (Multiset.mem_add.mpr (Or.inl submitted))).2
      rw [claims] at claiming
      obtain ⟨first, others⟩ := Multiset.forall_mem_cons.mp claiming
      refine ⟨?_, Multiset.forall_mem_cons.mpr ⟨?_, ?_⟩, ?_, ?_, recorded⟩
      · exact fun other member => (tasks other member).imp_right fun located => located.mono mono
      · exact first.claim folds located (List.mem_map_of_mem balanced.seed) fresh
      · exact fun other member => (others other member).mono mono
      · exact fun other member => (finished other member).mono mono
      · exact fun other member => (joined other member).mono mono
  | finish claims =>
      rw [claims] at claiming
      obtain ⟨first, others⟩ := Multiset.forall_mem_cons.mp claiming
      have ended := first.finding folds
      exact ⟨tasks, others, Multiset.forall_mem_cons.mpr ⟨ended, finished⟩, joined, recorded⟩
  | @join finding rest idle ended =>
      rw [ended] at finished
      obtain ⟨first, others⟩ := Multiset.forall_mem_cons.mp finished
      refine ⟨?_, claiming, others, Multiset.forall_mem_cons.mpr ⟨first.settled, joined⟩, recorded⟩
      intro other member
      rcases Multiset.mem_add.mp member with old | new
      · exact tasks other (Multiset.mem_add.mpr (Or.inl old))
      · obtain ⟨shallow, claimed, depth⟩ := Finding.mem_successors.mp (Multiset.mem_coe.mp new)
        rw [depth]
        exact ⟨(Nat.succ_le_of_lt shallow).trans (le_max_left _ _), first.claimed _ claimed⟩
  | @submit task rest hands =>
      refine ⟨?_, claiming, finished, joined, recorded⟩
      intro other member
      refine tasks other ?_
      rw [hands, ← Multiset.cons_coe, Multiset.add_cons, ← Multiset.cons_add]
      exact member

/-- Every search is charted. -/
theorem Charted.of_reaches (folds : directory.FoldsCase)
    (reaches : Reaches directory maxDepth (initial limits seed) run) :
    run.Charted directory maxDepth (Text.lowercase seed) := by
  induction reaches with
  | refl => exact charted_initial directory maxDepth limits seed
  | tail before step ih => exact ih.step folds (Balanced.of_reaches before) step

/-- Every recorded group lies on a route that is not too long. -/
theorem Charted.exists_route (charted : run.Charted directory maxDepth root)
    (balanced : run.Balanced limits seed) {group : String} (recorded : group ∈ run.recorded) :
    ∃ passed, directory.Route root passed (Text.lowercase group) ∧
      passed.length ≤ max maxDepth 1 := by
  have ofTask : ∀ task ∈ run.submitted + ↑run.handing,
      ∃ passed, directory.Route root passed task.name ∧ passed.length ≤ max maxDepth 1 := by
    intro task member
    obtain ⟨shallow, passed, route, length, -⟩ := charted.tasks task member
    exact ⟨passed, route, by omega⟩
  rcases charted.recorded group recorded with member | ⟨passed, route, length, -⟩
  · rcases Multiset.mem_add.mp member with submitted | held
    · obtain ⟨task, inSubmitted, rfl⟩ := Multiset.mem_map.mp submitted
      exact ofTask task (Multiset.mem_add.mpr (Or.inl inSubmitted))
    · rcases mem_held.mp held with ⟨claiming, present, claimed⟩ | ⟨finding, ended, claimed⟩ |
        ⟨task, hands, rfl⟩
      · have shallow := (charted.submitted (balanced.mem_submitted (mem_started_of_claiming present))).1
        obtain ⟨passed, route, length, -⟩ := (charted.claiming claiming present).claimed _ claimed
        refine ⟨_, route, ?_⟩
        rw [List.length_cons]
        omega
      · have shallow := (charted.submitted (balanced.mem_submitted (mem_started_of_finished ended))).1
        obtain ⟨passed, route, length, -⟩ := (charted.finished finding ended).claimed _ claimed
        exact ⟨passed, route, by omega⟩
      · exact ofTask task (Multiset.mem_add.mpr (Or.inr (Multiset.mem_coe.mpr hands)))
  · exact ⟨passed, route, by omega⟩

/-- Every recorded name is within the depth. -/
theorem Charted.nearer (charted : run.Charted directory maxDepth root)
    (balanced : run.Balanced limits seed) (recorded : name ∈ run.known) :
    directory.Nearer root (max maxDepth 1 + 1) name := by
  obtain ⟨group, listed, rfl⟩ := List.mem_map.mp recorded
  obtain ⟨passed, route, short⟩ := charted.exists_route balanced listed
  exact ⟨passed.length, Nat.lt_succ_of_le short, route.chain⟩

/-- Once a search is complete, everything nested in a recorded name is known, unless the name was
recorded at the end of a route that is as long as the search is deep. -/
theorem Charted.settled_or_located (charted : run.Charted directory maxDepth root)
    (balanced : run.Balanced limits seed) (complete : run.IsComplete)
    (recorded : name ∈ run.known) :
    directory.Settled run.known [name] ∨
      Located directory root run.known (max maxDepth 1 + 1) name := by
  obtain ⟨group, listed, rfl⟩ := List.mem_map.mp recorded
  refine (charted.recorded group listed).imp_left ?_
  intro member
  rw [placed, complete.held_eq_zero, add_zero, ← balanced.joined_eq complete] at member
  obtain ⟨task, joined, rfl⟩ := Multiset.mem_map.mp member
  exact charted.joined task joined

/-- A search that is at least as deep as there are names below its root records all of them. -/
theorem Charted.mem_known_of_below (finite : (directory.below (Text.lowercase seed)).Finite)
    (charted : run.Charted directory maxDepth (Text.lowercase seed))
    (balanced : run.Balanced limits seed) (complete : run.IsComplete)
    (deep : (directory.below (Text.lowercase seed)).ncard ≤ maxDepth)
    (reached : name ∈ directory.below (Text.lowercase seed)) : name ∈ run.known := by
  have start : Text.lowercase seed ∈ run.known := List.mem_map_of_mem balanced.seed
  obtain ⟨length, chain⟩ := reached.2
  refine chain.mem_of_closed { other | other ∈ run.known } start ?_
  intro parent recorded child nests
  rcases charted.settled_or_located balanced complete recorded with settled | located
  · exact settled parent (List.mem_singleton_self parent) child nests
  · -- The route to the parent meets all names, and each of them is known.
    obtain ⟨passed, route, long, settled⟩ := located
    by_cases isRoot : child = Text.lowercase seed
    · exact isRoot ▸ start
    · have below : child ∈ directory.below (Text.lowercase seed) := by
        obtain ⟨_, _, toParent⟩ := charted.nearer balanced recorded
        exact ⟨isRoot, _, toParent.deeper nests⟩
      have met := route.mem_of_ncard_le finite (by omega) below
      rcases List.mem_cons.mp met with rfl | before
      · exact recorded
      · rcases route.eq_root_or_nested child (List.mem_cons_of_mem _ before) with
          atRoot | ⟨earlier, earlierPassed, nested⟩
        · exact (isRoot atRoot).elim
        · exact settled earlier earlierPassed child nested

end Run

end Groups

end SpnegoRealm
