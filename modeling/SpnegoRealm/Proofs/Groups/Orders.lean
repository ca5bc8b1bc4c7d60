import SpnegoRealm.Proofs.Groups.Completion

/-! # Orders of a search

What a search finds can depend on the order of its steps. A group is expanded at the depth at which
it was claimed first, and no other task expands it again. If a long route to a group is faster than
a short one, the group may be recorded at the greatest depth, where nothing is expanded: it is late
(`SpnegoRealm.Directory.Late`).

Every order finds only names within the depth, and all names that a chain of groups which are never
late leads to. The breadth-first order finds all names within the depth. So does every order where
no group nearer than the greatest depth can be late, and for every group that can be late there is
an order that misses what is nested in this group alone
(`SpnegoRealm.Groups.outcomes_within_depth`).
-/

namespace SpnegoRealm

namespace Directory

/-- The names other than the root within a depth. -/
def within (directory : Directory) (root : String) (depth : ℕ) : Set String :=
  { name | name ≠ root ∧ directory.distance root name ≤ depth }

/-- Some route to a name passes as many groups as a search is deep. -/
def Late (directory : Directory) (root : String) (depth : ℕ) (name : String) : Prop :=
  ∃ passed, directory.Route root passed name ∧ passed.length = depth

/-- A name to which a chain of groups leads that are never late. -/
inductive Timely (directory : Directory) (root : String) (depth : ℕ) : String → Prop
  | root : Timely directory root depth root
  | deeper {name member : String} : Timely directory root depth name →
    ¬ directory.Late root depth name → directory.Nests name member →
      Timely directory root depth member

variable {directory : Directory} {root name : String} {passed : List String} {depth : ℕ}

/-- If no group nearer than the depth can be late, every name within the depth is timely. -/
theorem timely_of_nearer
    (punctual : ∀ other, directory.Nearer root depth other → ¬ directory.Late root depth other)
    {length : ℕ} (chain : directory.Chain root length name) (short : length ≤ depth) :
    directory.Timely root depth name := by
  induction chain with
  | root => exact .root
  | @deeper length parent _ before nests ih =>
      have nearer : directory.Nearer root depth parent := ⟨length, short, before⟩
      exact (ih (Nat.le_of_succ_le short)).deeper (punctual parent nearer) nests

private theorem Route.root_mem (route : directory.Route root passed name) (some : passed ≠ []) :
    root ∈ passed := by
  induction route with
  | start => exact (some rfl).elim
  | @next passed name member before _ _ _ ih =>
      cases before with
      | start => exact List.mem_singleton_self _
      | next => exact List.mem_cons_of_mem _ (ih (List.cons_ne_nil _ _))

/-- Up to depth two no group that is nearer can be late. -/
theorem not_late_of_depth_le_two (shallow : depth ≤ 2) (nearer : directory.Nearer root depth name) :
    ¬ directory.Late root depth name := by
  rintro ⟨passed, route, long⟩
  obtain ⟨length, shorter, chain⟩ := nearer
  cases route with
  | start =>
      rw [List.length_nil] at long
      omega
  | @next passed parent _ before _ other later =>
      cases chain with
      | root => exact other rfl
      | @deeper length first _ chain nests =>
          -- The chain is a single nesting in the root, and the route passed the root earlier.
          rw [List.length_cons] at long
          obtain rfl : length = 0 := by omega
          cases chain
          refine later _ (before.root_mem ?_) nests
          rintro rfl
          rw [List.length_nil] at long
          omega

end Directory

namespace Groups

open Directory

/-- The names that a search answers when it is carried out in some order. -/
def Outcome (directory : Directory) (limits : Limits) (seed : String) (names : Set String) :
    Prop :=
  ∃ first last, Run.launch limits seed = .ok first ∧
    Run.Reaches directory limits.maxDepth first last ∧ last.IsComplete ∧
      names = { name | name ∈ (last.found seed).map Text.lowercase }

namespace Run

variable {directory : Directory} {limits : Limits} {seed : String} {maxDepth : ℕ}
  {run next : Run} {task : Task} {rest : Multiset Task} {name member : String}
  {passed : List String}

/-- Every recorded name other than the first is nested in a group that was asked about. -/
theorem eq_root_or_nested_in_asked (folds : directory.FoldsCase)
    (reaches : Reaches directory maxDepth (initial limits seed) run) :
    ∀ name ∈ run.known, name = Text.lowercase seed ∨
      ∃ group ∈ run.asked, directory.Nests (Text.lowercase group) name := by
  induction reaches with
  | refl => exact fun name recorded => Or.inl (List.mem_singleton.mp recorded)
  | @tail run next before step ih =>
      cases step with
      | start waits free =>
          intro name recorded
          rcases ih name recorded with isRoot | ⟨group, asked, nests⟩
          · exact Or.inl isRoot
          · exact Or.inr ⟨group, Multiset.mem_cons_of_mem asked, nests⟩
      | answer => exact ih
      | fail => exact ih
      | skip => exact ih
      | @claim task child _ _ _ claims fresh =>
          intro name recorded
          rcases List.mem_cons.mp recorded with rfl | old
          · have present := claims ▸ Multiset.mem_cons_self _ _
            obtain ⟨children, answered, listed, -⟩ :=
              ((Charted.of_reaches folds before).claiming _ present).members
            refine Or.inr ⟨task.group, ?_, task.group, children, child, rfl, answered,
              listed List.mem_cons_self, rfl⟩
            rw [(Balanced.of_reaches before).asked]
            exact Multiset.mem_map_of_mem _ (mem_started_of_claiming present)
          · exact ih name old
      | finish => exact ih
      | join => exact ih
      | submit => exact ih

/-- A recorded name for which there is no task and never will be. -/
def Abandoned (run : Run) (name : String) : Prop :=
  name ∈ run.known ∧ ∀ group ∈ run.placed, Text.lowercase group ≠ name

/-- A name that was abandoned stays so. -/
theorem Abandoned.of_reaches (abandoned : run.Abandoned name)
    (reaches : Reaches directory maxDepth run next) : next.Abandoned name := by
  induction reaches with
  | refl => exact abandoned
  | @tail middle next _ step ih =>
      obtain ⟨recorded, unplaced⟩ := ih
      refine ⟨step.known_subset recorded, ?_⟩
      rcases step.placed with ⟨-, equal⟩ | ⟨child, fresh, -, equal⟩ | ⟨finding, -, -, -, equal⟩
      · rwa [equal]
      · rw [equal]
        intro group member
        rcases Multiset.mem_cons.mp member with rfl | old
        · rintro rfl
          exact fresh recorded
        · exact unplaced group old
      · intro group member
        refine unplaced group ?_
        rw [← equal]
        exact Multiset.mem_add.mpr (Or.inl member)

/-- What is nested in an abandoned name only is never recorded. -/
theorem Abandoned.not_mem_known (folds : directory.FoldsCase) (abandoned : run.Abandoned name)
    (reaches : Reaches directory maxDepth (initial limits seed) run)
    (only : ∀ parent, directory.Nests parent member → parent = name)
    (other : member ≠ Text.lowercase seed) : member ∉ run.known := by
  intro recorded
  rcases eq_root_or_nested_in_asked folds reaches member recorded with isRoot | ⟨group, asked, nests⟩
  · exact other isRoot
  · have placed : group ∈ run.placed :=
      Multiset.mem_of_le (Balanced.of_reaches reaches).asked_le_placed asked
    exact abandoned.2 group placed (only _ nests)

/-- A search has expanded the groups passed on a route and nothing else, and a task for the end of
the route waits. -/
structure Arrived (directory : Directory) (root : String) (passed : List String) (name : String)
    (run : Run) (task : Task) (rest : Multiset Task) : Prop where
  free : 0 < run.permits
  handing : run.handing = []
  waiting : run.waiting = task ::ₘ rest
  name : task.name = name
  depth : task.depth = passed.length + 1
  known : ∀ other ∈ run.known, other = root ∨ ∃ earlier ∈ passed, directory.Nests earlier other

namespace Arrived

variable {search : Search} {root : String}

private theorem nests_iff (folds : search.directory.FoldsCase)
    (arrived : Arrived search.directory root passed name run task rest) :
    search.directory.Nests name member ↔
      member ∈ (search.members task.group).map Text.lowercase := by
  rw [← arrived.name]
  exact Search.nests_iff_mem_members folds task.group member

private theorem not_mem_known (arrived : Arrived directory root passed name run task rest)
    (other : member ≠ root) (later : ∀ earlier ∈ passed, ¬ directory.Nests earlier member) :
    member ∉ run.known := by
  intro recorded
  rcases arrived.known member recorded with isRoot | ⟨earlier, before, nests⟩
  · exact other isRoot
  · exact later earlier before nests

private theorem known_expand (folds : search.directory.FoldsCase)
    (arrived : Arrived search.directory root passed name run task rest) :
    ∀ other ∈ (run.expand search task rest).known,
      other = root ∨ ∃ earlier ∈ name :: passed, search.directory.Nests earlier other := by
  intro other recorded
  rcases mem_known_expand.mp recorded with old | listed
  · rcases arrived.known other old with isRoot | ⟨earlier, before, nests⟩
    · exact Or.inl isRoot
    · exact Or.inr ⟨earlier, List.mem_cons_of_mem _ before, nests⟩
  · exact Or.inr ⟨name, List.mem_cons_self, (arrived.nests_iff folds).mpr listed⟩

/-- Unless it is too deep, expanding the end of a route leads to the next name. -/
theorem further (folds : search.directory.FoldsCase)
    (arrived : Arrived search.directory root passed name run task rest)
    (nests : search.directory.Nests name member) (other : member ≠ root)
    (later : ∀ earlier ∈ passed, ¬ search.directory.Nests earlier member)
    (shallow : passed.length + 1 < search.maxDepth) :
    ∃ task' rest', Arrived search.directory root (name :: passed) member
      (run.expand search task rest) task' rest' := by
  have listed := (arrived.nests_iff folds).mp nests
  have claimed := ((mem_known_or_claim run.known _ member).mpr (Or.inr listed)).resolve_left
    (arrived.not_mem_known other later)
  obtain ⟨group, claimed, sameName⟩ := List.mem_map.mp claimed
  have waits : (⟨group, task.depth + 1⟩ : Task) ∈ (run.expand search task rest).waiting := by
    refine Multiset.mem_add.mpr (Or.inl (Multiset.mem_coe.mpr (Finding.mem_successors.mpr ?_)))
    exact ⟨arrived.depth ▸ shallow, claimed, rfl⟩
  obtain ⟨rest', waiting⟩ := Multiset.exists_cons_of_mem waits
  exact ⟨_, rest', {
    free := arrived.free
    handing := arrived.handing
    waiting := waiting
    name := sameName
    depth := congrArg (· + 1) arrived.depth
    known := arrived.known_expand folds }⟩

end Arrived

/-- Some order expands exactly the groups passed on a route before a task for its end starts. -/
theorem exists_arrived {search : Search} (folds : search.directory.FoldsCase)
    (sameDepth : search.maxDepth = limits.maxDepth) (seed : String)
    (route : search.directory.Route (Text.lowercase seed) passed name)
    (short : passed.length < max limits.maxDepth 1) :
    ∃ run task rest, Reaches search.directory search.maxDepth (initial limits seed) run ∧
      Arrived search.directory (Text.lowercase seed) passed name run task rest := by
  induction route with
  | start =>
      exact ⟨initial limits seed, ⟨seed, 1⟩, 0, .refl, {
        free := Nat.lt_of_lt_of_le Nat.one_pos (le_max_right _ _)
        handing := rfl
        waiting := rfl
        name := rfl
        depth := rfl
        known := fun other recorded => Or.inl (List.mem_singleton.mp recorded) }⟩
  | @next passed name member _ nests other later ih =>
      rw [List.length_cons] at short
      obtain ⟨run, task, rest, reaches, arrived⟩ := ih (Nat.lt_of_succ_lt short)
      obtain ⟨task', rest', arrived'⟩ := arrived.further folds nests other later (by omega)
      exact ⟨_, task', rest',
        reaches.trans (reaches_expand arrived.handing arrived.free arrived.waiting), arrived'⟩

/-- A name that can be late is abandoned in some order. -/
theorem exists_abandoned (folds : directory.FoldsCase) (limits : Limits) (seed : String)
    (late : directory.Late (Text.lowercase seed) (max limits.maxDepth 1) name) :
    ∃ run, Reaches directory limits.maxDepth (initial limits seed) run ∧ run.Abandoned name := by
  let search : Search := ⟨directory, limits.maxDepth, 1⟩
  obtain ⟨passed, route, long⟩ := late
  cases route with
  | start =>
      rw [List.length_nil] at long
      omega
  | @next passed parent _ before nests other later =>
      rw [List.length_cons] at long
      obtain ⟨run, task, rest, reaches, arrived⟩ :
          ∃ run task rest, Reaches search.directory search.maxDepth (initial limits seed) run ∧
            Arrived search.directory (Text.lowercase seed) passed parent run task rest :=
        exists_arrived folds rfl seed before (by omega)
      have deepest : ¬ task.depth < search.maxDepth := by
        change ¬ task.depth < limits.maxDepth
        rw [arrived.depth]
        omega
      refine ⟨run.expand search task rest, reaches.trans
        (reaches_expand arrived.handing arrived.free arrived.waiting), ?_, ?_⟩
      · exact mem_known_expand.mpr (Or.inr ((arrived.nests_iff folds).mp nests))
      · -- Nothing that was claimed is handed on, so the name has no task now.
        intro group placed same
        have unchanged : (run.expand search task rest).placed = run.placed := by
          simp only [Run.placed, held, expand, Finding.successors, if_neg deepest,
            Multiset.coe_nil, zero_add]
        rw [unchanged] at placed
        have recorded := Multiset.mem_of_le (Balanced.of_reaches reaches).placed placed
        refine arrived.not_mem_known other later ?_
        exact same ▸ List.mem_map_of_mem (Multiset.mem_coe.mp recorded)

end Run

section Outcome

variable {directory : Directory} {limits : Limits} {seed : String} {names : Set String}

/-- Every search can be carried on to some outcome. -/
theorem exists_outcome (folds : directory.FoldsCase)
    (finite : (directory.below (Text.lowercase seed)).Finite)
    (permitted : limits.maxWorkers ≤ permitLimit) {run : Run}
    (reaches : Run.Reaches directory limits.maxDepth (Run.initial limits seed) run) :
    ∃ last, Run.Reaches directory limits.maxDepth run last ∧
      Outcome directory limits seed { name | name ∈ (last.found seed).map Text.lowercase } := by
  obtain ⟨last, path, complete⟩ := Run.exists_complete folds finite reaches
  exact ⟨last, path, _, last, Run.launch_of_permitted permitted, reaches.trans path, complete, rfl⟩

private theorem Outcome.exists_run (outcome : Outcome directory limits seed names) :
    ∃ last, Run.Reaches directory limits.maxDepth (Run.initial limits seed) last ∧
      last.IsComplete ∧ ∀ name, name ∈ names ↔ name ≠ Text.lowercase seed ∧ name ∈ last.known := by
  obtain ⟨first, last, launched, reaches, complete, rfl⟩ := outcome
  unfold Run.launch at launched
  split at launched
  next =>
    obtain rfl := Except.ok.inj launched
    exact ⟨last, reaches, complete, fun name => Run.mem_names_found_iff name⟩
  next => cases launched

/-- Every order finds only names within the depth. -/
theorem Outcome.subset_within (folds : directory.FoldsCase)
    (outcome : Outcome directory limits seed names) :
    names ⊆ directory.within (Text.lowercase seed) (max limits.maxDepth 1) := by
  obtain ⟨last, reaches, -, answered⟩ := outcome.exists_run
  intro name member
  obtain ⟨other, recorded⟩ := (answered name).mp member
  have near := (Run.Charted.of_reaches folds reaches).nearer (Run.Balanced.of_reaches reaches)
    recorded
  exact ⟨other, distance_le_iff.mpr near⟩

/-- Every order finds the names that groups which are never late lead to. -/
theorem Outcome.mem_of_timely (folds : directory.FoldsCase)
    (outcome : Outcome directory limits seed names) {name : String}
    (timely : directory.Timely (Text.lowercase seed) (max limits.maxDepth 1) name)
    (other : name ≠ Text.lowercase seed) : name ∈ names := by
  obtain ⟨last, reaches, complete, answered⟩ := outcome.exists_run
  have balanced := Run.Balanced.of_reaches reaches
  have charted := Run.Charted.of_reaches folds reaches
  refine (answered name).mpr ⟨other, ?_⟩
  clear other
  induction timely with
  | root => exact List.mem_map_of_mem balanced.seed
  | @deeper parent member _ punctual nests ih =>
      rcases charted.settled_or_located balanced complete ih with settled | located
      · exact settled parent (List.mem_singleton_self parent) member nests
      · obtain ⟨passed, route, length, -⟩ := located
        exact (punctual ⟨passed, route, Nat.succ.inj length⟩).elim

/-- Where no group nearer than the depth can be late, all orders agree. -/
theorem Outcome.eq_within (folds : directory.FoldsCase)
    (outcome : Outcome directory limits seed names)
    (punctual : ∀ name, directory.Nearer (Text.lowercase seed) (max limits.maxDepth 1) name →
      ¬ directory.Late (Text.lowercase seed) (max limits.maxDepth 1) name) :
    names = directory.within (Text.lowercase seed) (max limits.maxDepth 1) := by
  refine Set.Subset.antisymm (outcome.subset_within folds) ?_
  rintro name ⟨other, near⟩
  obtain ⟨length, short, chain⟩ := distance_le_iff.mp near
  exact outcome.mem_of_timely folds
    (timely_of_nearer punctual chain (Nat.le_of_lt_succ short)) other

/-- A group that can be late hides what is nested in it alone from some order. -/
theorem exists_outcome_without (folds : directory.FoldsCase)
    (finite : (directory.below (Text.lowercase seed)).Finite)
    (permitted : limits.maxWorkers ≤ permitLimit) {late : String}
    (isLate : directory.Late (Text.lowercase seed) (max limits.maxDepth 1) late) :
    ∃ names, Outcome directory limits seed names ∧
      ∀ member, (∀ parent, directory.Nests parent member → parent = late) → member ∉ names := by
  obtain ⟨run, reaches, abandoned⟩ := Run.exists_abandoned folds limits seed isLate
  obtain ⟨last, path, outcome⟩ := exists_outcome folds finite permitted reaches
  refine ⟨_, outcome, fun member only found => ?_⟩
  obtain ⟨other, recorded⟩ := (Run.mem_names_found_iff member).mp found
  exact (abandoned.of_reaches path).not_mem_known folds (reaches.trans path) only other recorded

end Outcome

/-- **What a search finds in every order, and when the order makes no difference.** Let a directory
fold case and finitely many names lie below a group. Every order of a search finds only names within
the depth, and all those that a chain of groups which are never late leads to. The breadth-first
order finds all names within the depth. All orders do if no group nearer than the depth can be late,
hence up to depth two. If some group can be late, some order misses what is nested in this group
alone. -/
theorem outcomes_within_depth (directory : Directory) (limits : Limits) (seed : String)
    (folds : directory.FoldsCase) (finite : (directory.below (Text.lowercase seed)).Finite)
    (permitted : limits.maxWorkers ≤ permitLimit) :
    (∀ names, Outcome directory limits seed names →
      names ⊆ directory.within (Text.lowercase seed) (max limits.maxDepth 1) ∧
      ∀ name, directory.Timely (Text.lowercase seed) (max limits.maxDepth 1) name →
        name ≠ Text.lowercase seed → name ∈ names) ∧
    (∀ start, ∃ trace, resolve directory limits seed start = .ok trace ∧
      { name | name ∈ trace.value.map Text.lowercase } =
        directory.within (Text.lowercase seed) (max limits.maxDepth 1) ∧
      Outcome directory limits seed { name | name ∈ trace.value.map Text.lowercase }) ∧
    ((∀ name, directory.distance (Text.lowercase seed) name < (max limits.maxDepth 1 : ℕ) →
        ¬ directory.Late (Text.lowercase seed) (max limits.maxDepth 1) name) →
      ∀ names, Outcome directory limits seed names →
        names = directory.within (Text.lowercase seed) (max limits.maxDepth 1)) ∧
    (limits.maxDepth ≤ 2 → ∀ names, Outcome directory limits seed names →
      names = directory.within (Text.lowercase seed) (max limits.maxDepth 1)) ∧
    ∀ late, directory.Late (Text.lowercase seed) (max limits.maxDepth 1) late →
      ∃ names, Outcome directory limits seed names ∧
        ∀ member, (∀ parent, directory.Nests parent member → parent = late) → member ∉ names := by
  refine ⟨?bounds, ?breadthFirst, ?punctual, ?shallow, ?late⟩
  case bounds =>
    intro names outcome
    exact ⟨outcome.subset_within folds, fun name timely other =>
      outcome.mem_of_timely folds timely other⟩
  case breadthFirst =>
    intro start
    obtain ⟨last, reaches, complete, same⟩ := Run.exists_sequential folds limits seed start
    refine ⟨_, resolve_of_permitted permitted, ?_, ?_⟩
    · ext name
      exact (mem_found_iff folds name).trans (and_congr_right' distance_le_iff.symm)
    · exact ⟨_, last, Run.launch_of_permitted permitted, reaches, complete, by rw [same]⟩
  case punctual =>
    intro punctual names outcome
    exact outcome.eq_within folds fun name near => punctual name (distance_lt_iff.mpr near)
  case shallow =>
    intro shallow names outcome
    exact outcome.eq_within folds fun name near => not_late_of_depth_le_two (by omega) near
  case late =>
    intro late isLate
    exact exists_outcome_without folds finite permitted isLate

/-! ## A detour -/

/-- Two nestings lead from `CN=A` to `CN=X`, and so do three. -/
def detour : Catalog :=
  ((((({} : Catalog).withNested "CN=A" ["CN=B", "CN=C"]).withNested "CN=B" ["CN=D"]).withNested
    "CN=C" ["CN=X"]).withNested "CN=D" ["CN=X"]).withNested "CN=X" ["CN=Y"]

/-- The nestings of the detour. -/
def detourNestings : List (String × String) :=
  [("cn=a", "cn=b"), ("cn=a", "cn=c"), ("cn=b", "cn=d"), ("cn=c", "cn=x"), ("cn=d", "cn=x"),
    ("cn=x", "cn=y")]

private theorem detour_nests_iff {parent child : String} :
    detour.toDirectory.Nests parent child ↔ (parent, child) ∈ detourNestings := by
  constructor
  · intro nests
    obtain ⟨pair, present, rfl, listed⟩ := Catalog.exists_recorded_of_nests nests
    have all : ∀ pair ∈ detour.nested, ∀ child ∈ pair.2.map Text.lowercase,
        (pair.1, child) ∈ detourNestings := by decide
    exact all pair present child listed
  · intro listed
    have answers : ∀ nesting ∈ detourNestings, ∃ group ∈ ["CN=A", "CN=B", "CN=C", "CN=D", "CN=X"],
        Text.lowercase group = nesting.1 ∧ detour.fails group = false ∧
          nesting.2 ∈ (detour.children (Text.lowercase group)).map Text.lowercase := by decide
    obtain ⟨group, -, rfl, fails, member⟩ := answers _ listed
    exact (detour.toDirectory_foldsCase.nests_iff (Catalog.memberGroups_of_not_fails fails)).mpr
      member

/-- The longer way to `CN=X` is a route. -/
theorem detour_late : detour.toDirectory.Late "cn=a" 3 "cn=x" := by
  have toB : detour.toDirectory.Route "cn=a" ["cn=a"] "cn=b" := by
    refine .next .start (detour_nests_iff.mpr (by decide)) (by decide) ?_
    simp only [detour_nests_iff]
    decide
  have toD : detour.toDirectory.Route "cn=a" ["cn=b", "cn=a"] "cn=d" := by
    refine .next toB (detour_nests_iff.mpr (by decide)) (by decide) ?_
    simp only [detour_nests_iff]
    decide
  refine ⟨["cn=d", "cn=b", "cn=a"], ?_, rfl⟩
  refine .next toD (detour_nests_iff.mpr (by decide)) (by decide) ?_
  simp only [detour_nests_iff]
  decide

private theorem detour_chain : detour.toDirectory.Chain "cn=a" 2 "cn=x" :=
  (Chain.root.deeper (detour_nests_iff.mpr (by decide : ("cn=a", "cn=c") ∈ detourNestings))).deeper
    (detour_nests_iff.mpr (by decide))

/-- Some order misses a group within the depth that another order finds, and a bound on workers that
no number of permits can meet ends a search before its first step. -/
theorem orders_disagree :
    "cn=y" ∈ detour.toDirectory.within (Text.lowercase "CN=A") 3 ∧
      (∃ names, Outcome detour.toDirectory ⟨3, 2⟩ "CN=A" names ∧ "cn=y" ∉ names) ∧
      (∃ names, Outcome detour.toDirectory ⟨3, 2⟩ "CN=A" names ∧ "cn=y" ∈ names) ∧
      resolve detour.toDirectory ⟨3, 2305843009213693952⟩ "CN=A" 0 = .error .tooManyWorkers := by
  have root : Text.lowercase "CN=A" = "cn=a" := by decide
  have folds := detour.toDirectory_foldsCase
  have finite := detour.below_finite (Text.lowercase "CN=A")
  have permitted : 2 ≤ permitLimit := by decide
  have within : "cn=y" ∈ detour.toDirectory.within (Text.lowercase "CN=A") 3 := by
    rw [root]
    have chain := detour_chain.deeper (detour_nests_iff.mpr (by decide : ("cn=x", "cn=y") ∈ _))
    exact ⟨by decide, distance_le_iff.mpr ⟨3, by decide, chain⟩⟩
  refine ⟨within, ?misses, ?finds, ?panics⟩
  case misses =>
    have late : detour.toDirectory.Late (Text.lowercase "CN=A") (max (⟨3, 2⟩ : Limits).maxDepth 1)
        "cn=x" := root ▸ detour_late
    obtain ⟨names, outcome, without⟩ := exists_outcome_without folds finite permitted late
    refine ⟨names, outcome, without "cn=y" fun parent nests => ?_⟩
    have only : ∀ nesting ∈ detourNestings, nesting.2 = "cn=y" → nesting.1 = "cn=x" := by decide
    exact only _ (detour_nests_iff.mp nests) rfl
  case finds =>
    obtain ⟨last, reaches, complete, same⟩ := Run.exists_sequential folds ⟨3, 2⟩ "CN=A" 0
    refine ⟨_, ⟨_, last, Run.launch_of_permitted permitted, reaches, complete, rfl⟩, ?_⟩
    rw [Set.mem_ofPred_eq, same]
    exact (mem_found_iff folds _).mpr ⟨within.1, distance_le_iff.mp within.2⟩
  case panics => exact if_neg (by decide)

/-- Up to depth two the fast detour to a group makes no difference. -/
theorem outcomes_within_depth_of_detour :
    2 ≤ permitLimit ∧ (2 ≤ 2 ∧
      (∃ names, Outcome detour.toDirectory ⟨2, 2⟩ "CN=A" names) ∧
      ∀ names, Outcome detour.toDirectory ⟨2, 2⟩ "CN=A" names →
        "cn=x" ∈ names ∧ Text.lowercase "CN=A" ∉ names) := by
  have permitted : 2 ≤ permitLimit := by decide
  obtain ⟨-, breadthFirst, -, shallow, -⟩ :=
    outcomes_within_depth detour.toDirectory ⟨2, 2⟩ "CN=A" detour.toDirectory_foldsCase
      (detour.below_finite _) permitted
  obtain ⟨_, _, _, outcome⟩ := breadthFirst 0
  refine ⟨permitted, le_refl 2, ⟨_, outcome⟩, fun names outcome => ?_⟩
  rw [shallow (le_refl 2) names outcome]
  have root : Text.lowercase "CN=A" = "cn=a" := by decide
  refine ⟨⟨by decide, ?_⟩, fun member => member.1 rfl⟩
  rw [root]
  exact distance_le_iff.mpr ⟨2, by decide, detour_chain⟩

end Groups

end SpnegoRealm
