import Mathlib.Algebra.Order.BigOperators.Group.Multiset
import Mathlib.Order.WellFounded
import SpnegoRealm.Proofs.Groups.Routes
import SpnegoRealm.Proofs.Groups.Sequential

/-! # Completion of overlapping expansions

A search whose expansions overlap comes to an end in every order. A step either records one of the
finitely many names below the root, or leaves less to do for the groups recorded so far
(`SpnegoRealm.Groups.Run.Step.load_lt`). Hence every state of a search is accessible
(`SpnegoRealm.Groups.Run.Charted.accessible`), and every search can be completed. The main theorem
says what a search guarantees in each of its states
(`SpnegoRealm.Groups.search_completes_in_every_order`).
-/

namespace SpnegoRealm.Groups

open Directory

/-- The number of members in the answer about a group. -/
def effort (directory : Directory) (group : String) : ℕ :=
  match directory.memberGroups group with
  | .ok children => children.length
  | .error _ => 0

/-- The steps that some claimed groups cause, apart from those caused by what they claim. -/
def burden (directory : Directory) (groups : List String) : ℕ :=
  (groups.map fun group => effort directory group + 5).sum

namespace Run

/-- The steps that the groups recorded so far may still cause. -/
def load (directory : Directory) (run : Run) : ℕ :=
  (run.waiting.map fun task => effort directory task.group + 4).sum +
    (run.asking.map fun task => effort directory task.group + 3).sum +
      (run.claiming.map fun claiming =>
        claiming.remaining.length + 2 + burden directory claiming.claimed).sum +
        (run.finished.map fun finding => 1 + burden directory finding.claimed).sum +
          burden directory (run.handing.map Task.group)

variable {directory : Directory} {limits : Limits} {seed root : String} {run next : Run}
  {maxDepth : ℕ}

/-- A step that records no group leaves less to do. -/
theorem Step.load_lt (step : Step directory maxDepth run next) :
    (next.recorded = run.recorded ∧ next.load directory < run.load directory) ∨
      ∃ child, Text.lowercase child ∉ run.known ∧ next.recorded = child :: run.recorded := by
  cases step with
  | start waits free =>
      refine Or.inl ⟨rfl, ?_⟩
      simp only [load, waits, Multiset.map_cons, Multiset.sum_cons]
      omega
  | answer asks answered =>
      refine Or.inl ⟨rfl, ?_⟩
      simp only [load, asks, Multiset.map_cons, Multiset.sum_cons, effort, answered, burden,
        List.map_nil, List.sum_nil]
      omega
  | fail asks failed =>
      refine Or.inl ⟨rfl, ?_⟩
      simp only [load, asks, Multiset.map_cons, Multiset.sum_cons, effort, failed, burden,
        List.map_nil, List.sum_nil]
      omega
  | skip claims met =>
      refine Or.inl ⟨rfl, ?_⟩
      simp only [load, claims, Multiset.map_cons, Multiset.sum_cons, List.length_cons]
      omega
  | claim claims fresh => exact Or.inr ⟨_, fresh, rfl⟩
  | finish claims =>
      refine Or.inl ⟨rfl, ?_⟩
      simp only [load, claims, Multiset.map_cons, Multiset.sum_cons, List.length_nil]
      omega
  | @join finding _ idle ended =>
      refine Or.inl ⟨rfl, ?_⟩
      have less : burden directory ((finding.successors maxDepth).map Task.group) ≤
          burden directory finding.claimed := by
        rw [Finding.map_group_successors]
        split
        next => exact le_refl _
        next => exact Nat.zero_le _
      simp only [load, ended, idle, Multiset.map_cons, Multiset.sum_cons]
      omega
  | submit hands =>
      refine Or.inl ⟨rfl, ?_⟩
      simp only [load, hands, Multiset.map_cons, Multiset.sum_cons, List.map_cons, burden,
        List.sum_cons]
      omega

/-- The names of a finite set that are not recorded yet. -/
def unseen (names : Finset String) (run : Run) : Finset String := names \ run.known.toFinset

private theorem card_unseen_lt {names : Finset String} {child : String}
    (fresh : Text.lowercase child ∉ run.known) (listed : Text.lowercase child ∈ names)
    (recorded : next.recorded = child :: run.recorded) :
    (next.unseen names).card < (run.unseen names).card := by
  have grown : next.known = Text.lowercase child :: run.known := by
    unfold known
    rw [recorded, List.map_cons]
  apply Finset.card_lt_card
  rw [Finset.ssubset_iff_of_subset]
  · refine ⟨Text.lowercase child, ?_, ?_⟩
    · exact Finset.mem_sdiff.mpr ⟨listed, fun old => fresh (List.mem_toFinset.mp old)⟩
    · intro still
      refine (Finset.mem_sdiff.mp still).2 (List.mem_toFinset.mpr ?_)
      rw [grown]
      exact List.mem_cons_self
  · intro name member
    obtain ⟨inNames, absent⟩ := Finset.mem_sdiff.mp member
    refine Finset.mem_sdiff.mpr ⟨inNames, fun old => absent (List.mem_toFinset.mpr ?_)⟩
    rw [grown]
    exact List.mem_cons_of_mem _ (List.mem_toFinset.mp old)

/-- Every recorded name is that of the root or lies below it. -/
theorem Charted.mem_insert_below (charted : run.Charted directory maxDepth root)
    (balanced : run.Balanced limits seed) {name : String} (recorded : name ∈ run.known) :
    name ∈ insert root (directory.below root) := by
  obtain ⟨length, _, chain⟩ := charted.nearer balanced recorded
  by_cases isRoot : name = root
  · exact Or.inl isRoot
  · exact Or.inr ⟨isRoot, length, chain⟩

/-- No state of a search starts infinitely many steps. -/
theorem Charted.accessible (folds : directory.FoldsCase)
    (finite : (directory.below (Text.lowercase seed)).Finite)
    (charted : run.Charted directory maxDepth (Text.lowercase seed))
    (balanced : run.Balanced limits seed) :
    Acc (fun next run => Step directory maxDepth run next) run := by
  let names := (finite.insert (Text.lowercase seed)).toFinset
  -- A step lowers the number of unseen names, or keeps it and lowers the load.
  induction count : (run.unseen names).card using Nat.strong_induction_on generalizing run with
  | h count fewer =>
      subst count
      induction load : run.load directory using Nat.strong_induction_on generalizing run with
      | h load lighter =>
          subst load
          refine Acc.intro run fun next step => ?_
          have charted' := charted.step folds balanced step
          have balanced' := balanced.step step
          rcases step.load_lt with ⟨same, less⟩ | ⟨child, fresh, grown⟩
          · have equal : next.unseen names = run.unseen names := by
              unfold unseen known
              rw [same]
            refine lighter _ less charted' balanced' ?_ rfl
            intro count smaller other charted'' balanced'' counted
            exact fewer count (equal ▸ smaller) charted'' balanced'' counted
          · have recorded : Text.lowercase child ∈ next.known := by
              unfold known
              rw [grown]
              exact List.mem_cons_self
            have listed : Text.lowercase child ∈ names :=
              (finite.insert _).mem_toFinset.mpr (charted'.mem_insert_below balanced' recorded)
            exact fewer _ (card_unseen_lt fresh listed grown) charted' balanced' rfl

/-- Every state that a search can reach can be continued until the search is complete. -/
theorem exists_complete (folds : directory.FoldsCase)
    (finite : (directory.below (Text.lowercase seed)).Finite)
    (reaches : Reaches directory maxDepth (initial limits seed) run) :
    ∃ last, Reaches directory maxDepth run last ∧ last.IsComplete := by
  have accessible := (Charted.of_reaches folds reaches).accessible folds finite
    (Balanced.of_reaches reaches)
  induction accessible with
  | intro run _ ih =>
      rcases (Balanced.of_reaches reaches).isComplete_or_step directory maxDepth with
        complete | ⟨next, step⟩
      · exact ⟨run, .refl, complete⟩
      · obtain ⟨last, path, complete⟩ := ih next step (reaches.tail step)
        exact ⟨last, .head step path, complete⟩

end Run

/-- **A search keeps to its bounds and completes in every order.** Let a directory fold case and
finitely many names lie below a group. In every state that a search below this group can reach, no
more questions than workers are unanswered, no name was asked about twice, and every recorded name
is within the depth. The search can go on unless it is complete; it never goes on forever; and when
it is complete, every submitted task was joined. If it is as deep as there are names, it then
answers with all of them. One of the orders answers like `resolve`. -/
theorem search_completes_in_every_order (directory : Directory) (limits : Limits) (seed : String)
    (folds : directory.FoldsCase) (finite : (directory.below (Text.lowercase seed)).Finite)
    (permitted : limits.maxWorkers ≤ permitLimit) :
    ∃ first, Run.launch limits seed = .ok first ∧
      (∀ run, Run.Reaches directory limits.maxDepth first run →
        run.asking.card ≤ max limits.maxWorkers 1 ∧
        (run.asked.map Text.lowercase).Nodup ∧
        (∀ name ∈ run.known, name ≠ Text.lowercase seed →
          directory.distance (Text.lowercase seed) name ≤ (max limits.maxDepth 1 : ℕ)) ∧
        Text.lowercase seed ∉ (run.found seed).map Text.lowercase ∧
        (run.IsComplete ∨ ∃ next, Run.Step directory limits.maxDepth run next) ∧
        (run.IsComplete → run.joined = run.submitted) ∧
        (run.IsComplete → (directory.below (Text.lowercase seed)).ncard ≤ limits.maxDepth →
          ∀ name, name ∈ (run.found seed).map Text.lowercase ↔
            name ∈ directory.below (Text.lowercase seed))) ∧
      (¬ ∃ states : ℕ → Run, states 0 = first ∧
        ∀ index, Run.Step directory limits.maxDepth (states index) (states (index + 1))) ∧
      ∀ start, ∃ last trace, Run.Reaches directory limits.maxDepth first last ∧ last.IsComplete ∧
        resolve directory limits seed start = .ok trace ∧ trace.value = last.found seed := by
  refine ⟨_, Run.launch_of_permitted permitted, ?states, ?endless, ?sequential⟩
  case states =>
    intro run reaches
    have balanced := Run.Balanced.of_reaches reaches
    have charted := Run.Charted.of_reaches folds reaches
    refine ⟨balanced.card_asking_le, balanced.nodup_asked, ?_, ?_,
      balanced.isComplete_or_step directory limits.maxDepth, balanced.joined_eq, ?_⟩
    · intro name recorded _
      exact distance_le_iff.mpr (charted.nearer balanced recorded)
    · intro member
      exact ((Run.mem_names_found_iff _).mp member).1 rfl
    · intro complete deep name
      rw [Run.mem_names_found_iff]
      constructor
      · rintro ⟨other, recorded⟩
        exact (charted.mem_insert_below balanced recorded).resolve_left other
      · intro below
        exact ⟨below.1, charted.mem_known_of_below finite balanced complete deep below⟩
  case endless =>
    have accessible := (Run.charted_initial directory limits.maxDepth limits seed).accessible folds
      finite (Run.balanced_initial limits seed)
    intro endless
    exact not_acc_iff_exists_descending_chain.mpr endless accessible
  case sequential =>
    intro start
    obtain ⟨last, reaches, complete, same⟩ := Run.exists_sequential folds limits seed start
    exact ⟨last, _, reaches, complete, resolve_of_permitted permitted, same.symm⟩

/-- Two workers that follow a cycle, with a name spelled twice and a group that cannot be asked
about, find the groups beyond the cycle in every order. -/
theorem search_completes_in_every_order_of_cycle :
    2 ≤ permitLimit ∧
      ∃ first, Run.launch ⟨5, 2⟩ "CN=A" = .ok first ∧
        (∀ run, Run.Reaches ((({ failing := ["cn=c"] } : Catalog).withNested "CN=A"
            ["CN=B", "cn=b", "CN=C"]).withNested "CN=B" ["CN=a", "CN=D"]).toDirectory 5 first run →
          run.asking.card ≤ 2 ∧ (run.IsComplete → run.joined = run.submitted) ∧
            (run.IsComplete → "cn=d" ∈ (run.found "CN=A").map Text.lowercase)) ∧
        ∃ last, Run.Reaches ((({ failing := ["cn=c"] } : Catalog).withNested "CN=A"
            ["CN=B", "cn=b", "CN=C"]).withNested "CN=B" ["CN=a", "CN=D"]).toDirectory 5 first last ∧
          last.IsComplete := by
  let catalog : Catalog := (({ failing := ["cn=c"] } : Catalog).withNested "CN=A"
    ["CN=B", "cn=b", "CN=C"]).withNested "CN=B" ["CN=a", "CN=D"]
  have permitted : 2 ≤ permitLimit := by decide
  have folds := catalog.toDirectory_foldsCase
  have finite := catalog.below_finite (Text.lowercase "CN=A")
  have few : (catalog.toDirectory.below (Text.lowercase "CN=A")).ncard ≤ 5 :=
    (catalog.ncard_below_le _).trans (by decide)
  have root : catalog.toDirectory.memberGroups "CN=A" = .ok ["CN=B", "cn=b", "CN=C"] := by rfl
  have deeper : catalog.toDirectory.memberGroups "CN=B" = .ok ["CN=a", "CN=D"] := by rfl
  have below : "cn=d" ∈ catalog.toDirectory.below (Text.lowercase "CN=A") := by
    refine ⟨by decide, 2, (Chain.root.deeper ((folds.nests_iff root).mpr ?_)).deeper
      ((folds.nests_iff deeper).mpr (by decide))⟩
    decide
  obtain ⟨first, launched, states, -, sequential⟩ :=
    search_completes_in_every_order catalog.toDirectory ⟨5, 2⟩ "CN=A" folds finite permitted
  refine ⟨permitted, first, launched, ?_, ?_⟩
  · intro run reaches
    obtain ⟨workers, -, -, -, -, joined, all⟩ := states run reaches
    exact ⟨workers, joined, fun complete => (all complete few _).mpr below⟩
  · obtain ⟨last, _, reaches, complete, -⟩ := sequential 0
    exact ⟨last, reaches, complete⟩

end SpnegoRealm.Groups
