import Mathlib.Data.List.Sort
import SpnegoRealm.Groups.Expansion
import SpnegoRealm.Proofs.Groups.Distance
import SpnegoRealm.Proofs.Text.ByteOrder
import SpnegoRealm.Questions

/-! # Breadth-first visits

Visits that start first in, first out meet the names of a directory in the order of their distance
from the group searched below. While the groups at one depth are visited, the names known are those
nearer than the depth and some of those at the depth, and the groups that wait for the next depth
are exactly the known names that are not nearer (`SpnegoRealm.Groups.Frontier`). From such a
frontier on, the visits claim every name within reach once and visit every name that is one nesting
nearer once (`SpnegoRealm.Groups.Frontier.explored`).

Instants and lanes play no part in what is visited and claimed
(`SpnegoRealm.Groups.Search.visits_alike`).
-/

namespace SpnegoRealm.Groups

open Directory

/-- The lowercased name of a group that waits. -/
def Arrival.name (arrival : Arrival) : String := Text.lowercase arrival.group

/-- The lowercased name of a visited group. -/
def Visit.name (visit : Visit) : String := Text.lowercase visit.group

/-- The lowercased names of what a visit claims. -/
def Visit.claimedNames (visit : Visit) : List String := visit.claimed.map Text.lowercase

/-! ## Claims -/

private theorem claim_subset (known children : List String) : claim known children ⊆ children := by
  induction children generalizing known with
  | nil => exact List.Subset.refl _
  | cons child rest ih =>
      by_cases met : known.contains (Text.lowercase child) = true
      · simp only [claim, met, ↓reduceIte]
        exact List.subset_cons_of_subset _ (ih known)
      · simp only [claim, met]
        exact List.cons_subset_cons _ (ih _)

/-- Claiming makes all names of the children known. -/
theorem mem_known_or_claim (known children : List String) (name : String) :
    name ∈ known ∨ name ∈ (claim known children).map Text.lowercase ↔
      name ∈ known ∨ name ∈ children.map Text.lowercase := by
  induction children generalizing known with
  | nil => rfl
  | cons child rest ih =>
      by_cases met : known.contains (Text.lowercase child) = true
      · have present : Text.lowercase child ∈ known := List.contains_iff_mem.mp met
        simp only [claim, met, ↓reduceIte, ih, List.map_cons, List.mem_cons]
        constructor
        · rintro (old | later)
          · exact Or.inl old
          · exact Or.inr (Or.inr later)
        · rintro (old | rfl | later)
          · exact Or.inl old
          · exact Or.inl present
          · exact Or.inr later
      · have step := ih (Text.lowercase child :: known)
        simp only [List.mem_cons] at step
        simp only [claim, met, Bool.false_eq_true, ↓reduceIte, List.map_cons, List.mem_cons]
        tauto

/-- Only names that are not known are claimed, and each of them once. -/
theorem nodup_known_append_claim {known : List String} (distinct : known.Nodup)
    (children : List String) :
    (known ++ (claim known children).map Text.lowercase).Nodup := by
  induction children generalizing known with
  | nil => simpa [claim] using distinct
  | cons child rest ih =>
      by_cases met : known.contains (Text.lowercase child) = true
      · simpa only [claim, met, ↓reduceIte] using ih distinct
      · have fresh : Text.lowercase child ∉ known := fun member =>
          met (List.contains_iff_mem.mpr member)
        have extended := ih (List.nodup_cons.mpr ⟨fresh, distinct⟩)
        simp only [claim, met, Bool.false_eq_true, ↓reduceIte, List.map_cons]
        exact (List.perm_middle.nodup_iff).mpr extended

/-! ## One visit -/

namespace Search

variable {search : Search} {depth : ℕ} {known : List String} {finishes : List Instant}
  {arrival : Arrival} {deeper : List Arrival}

/-- At the greatest depth nothing is visited after the groups that wait there. -/
theorem visits_of_deepest (deepest : ¬depth < search.maxDepth) :
    search.visits depth known finishes deeper [] = [] :=
  (Search.visits.eq_def ..).trans (if_neg deepest)

/-- Where case is folded, the members of one spelling of a group are all that its name nests. -/
theorem nests_iff_mem_members (folds : search.directory.FoldsCase) (group name : String) :
    search.directory.Nests (Text.lowercase group) name ↔
      name ∈ (search.members group).map Text.lowercase := by
  unfold members
  cases answer : search.directory.memberGroups group with
  | ok children => exact folds.nests_iff answer
  | error fault =>
      constructor
      · intro nests
        exact (folds.not_nests answer nests).elim
      · intro listed
        cases listed

/-- What a visit claims is nested in the visited group and was not known. -/
theorem of_mem_claimedNames (folds : search.directory.FoldsCase) (distinct : known.Nodup)
    {name : String} (claimed : name ∈ (search.visit depth known finishes arrival).claimedNames) :
    name ∉ known ∧ search.directory.Nests arrival.name name := by
  have apart := nodup_known_append_claim distinct (search.members arrival.group)
  refine ⟨fun old => (List.nodup_append.mp apart).2.2 _ old _ claimed rfl, ?_⟩
  rw [Arrival.name, nests_iff_mem_members folds]
  exact List.map_subset _ (claim_subset known _) claimed

/-- After a visit everything nested in the visited group is known. -/
theorem mem_of_nests (folds : search.directory.FoldsCase) {name : String}
    (nests : search.directory.Nests arrival.name name) :
    name ∈ known ++ (search.visit depth known finishes arrival).claimedNames := by
  rw [Arrival.name, nests_iff_mem_members folds] at nests
  exact List.mem_append.mpr ((mem_known_or_claim known _ name).mpr (Or.inr nests))

end Search

/-! ## The frontier of a search -/

/-- The number of visits on the longest chain that a search follows. -/
def Search.reach (search : Search) : ℕ := max search.maxDepth 1

/-- The state of a breadth-first search below a root while the groups at a depth are visited. -/
structure Frontier (search : Search) (root : String) (depth : ℕ) (known : List String)
    (deeper here : List Arrival) : Prop where
  positive : 0 < depth
  inReach : depth ≤ search.reach
  distinct : known.Nodup
  distinctHere : (here.map Arrival.name).Nodup
  distinctDeeper : (deeper.map Arrival.name).Nodup
  covered : ∀ name, search.directory.Nearer root depth name → name ∈ known
  reached : ∀ name ∈ known, search.directory.Nearer root (depth + 1) name
  waiting : ∀ name ∈ here.map Arrival.name, search.directory.Nearer root depth name
  expanded : ∀ name, search.directory.Nearer root depth name → name ∉ here.map Arrival.name →
    ∀ member, search.directory.Nests name member → member ∈ known
  -- At the greatest depth nothing is queued.
  queued : depth < search.maxDepth → ∀ name, name ∈ deeper.map Arrival.name ↔
    name ∈ known ∧ ¬ search.directory.Nearer root depth name

namespace Frontier

variable {search : Search} {root : String} {depth : ℕ} {known : List String}
  {finishes : List Instant} {deeper here : List Arrival} {arrival : Arrival}

private theorem initial (search : Search) (start : Instant) (seed : String) :
    Frontier search (Text.lowercase seed) 1 [Text.lowercase seed] [] [⟨seed, start⟩] where
  positive := Nat.one_pos
  inReach := le_max_right _ _
  distinct := List.nodup_singleton _
  distinctHere := List.nodup_singleton _
  distinctDeeper := List.nodup_nil
  covered name near := List.mem_singleton.mpr (nearer_one_iff.mp near)
  reached name member := by
    rw [List.mem_singleton.mp member]
    exact nearer_root (Nat.succ_pos 1)
  waiting name member := nearer_one_iff.mpr (List.mem_singleton.mp member)
  expanded name near outside := (outside (List.mem_singleton.mpr (nearer_one_iff.mp near))).elim
  queued _ name := by
    simp only [List.map_nil, List.not_mem_nil, List.mem_singleton, nearer_one_iff, and_not_self]

/-- A visit moves what it claims behind the frontier. -/
theorem visit (folds : search.directory.FoldsCase)
    (frontier : Frontier search root depth known deeper (arrival :: here))
    (finishes : List Instant) :
    Frontier search root depth
      (known ++ (search.visit depth known finishes arrival).claimedNames)
      (deeper ++
        if depth < search.maxDepth then
          (search.visit depth known finishes arrival).claimed.map
            (⟨·, (search.visit depth known finishes arrival).finish⟩)
        else [])
      here where
  positive := frontier.positive
  inReach := frontier.inReach
  distinct := nodup_known_append_claim frontier.distinct _
  distinctHere := (List.nodup_cons.mp frontier.distinctHere).2
  distinctDeeper := by
    split
    next shallow =>
      have apart := nodup_known_append_claim frontier.distinct (search.members arrival.group)
      rw [List.map_append, List.map_map]
      refine List.nodup_append.mpr ⟨frontier.distinctDeeper, (List.nodup_append.mp apart).2.1, ?_⟩
      intro old inDeeper new claimed same
      have wasKnown := ((frontier.queued shallow old).mp inDeeper).1
      exact (List.nodup_append.mp apart).2.2 _ wasKnown _ claimed same
    next => simpa only [List.append_nil] using frontier.distinctDeeper
  covered name near := List.mem_append_left _ (frontier.covered name near)
  reached name member := by
    rcases List.mem_append.mp member with old | claimed
    · exact frontier.reached name old
    · have nests := (Search.of_mem_claimedNames folds frontier.distinct claimed).2
      exact (frontier.waiting _ List.mem_cons_self).deeper nests
  waiting name member := frontier.waiting name (List.mem_cons_of_mem _ member)
  expanded name near outside member nests := by
    by_cases visited : name = arrival.name
    · subst visited
      exact Search.mem_of_nests folds nests
    · have absent : name ∉ (arrival :: here).map Arrival.name := fun present =>
        (List.mem_cons.mp present).elim visited outside
      exact List.mem_append_left _ (frontier.expanded name near absent member nests)
  queued shallow name := by
    rw [if_pos shallow, List.map_append, List.mem_append, frontier.queued shallow name,
      List.map_map, List.mem_append]
    constructor
    · rintro (⟨old, far⟩ | claimed)
      · exact ⟨Or.inl old, far⟩
      · have fresh := (Search.of_mem_claimedNames folds frontier.distinct claimed).1
        exact ⟨Or.inr claimed, fun near => fresh (frontier.covered name near)⟩
    · rintro ⟨old | claimed, far⟩
      · exact Or.inl ⟨old, far⟩
      · exact Or.inr claimed

/-- Once the groups at a depth are visited, everything one nesting deeper is known. -/
theorem covers_next (frontier : Frontier search root depth known deeper []) {name : String}
    (near : search.directory.Nearer root (depth + 1) name) : name ∈ known := by
  rcases near.eq_root_or_nested with rfl | ⟨parent, nearParent, nests⟩
  · exact frontier.covered _ (nearer_root frontier.positive)
  · exact frontier.expanded parent nearParent List.not_mem_nil name nests

/-- The groups that wait for the next depth become the frontier there. -/
theorem descend (frontier : Frontier search root depth known deeper [])
    (shallow : depth < search.maxDepth) :
    Frontier search root (depth + 1) known [] deeper where
  positive := Nat.succ_pos depth
  inReach := shallow.trans_le (le_max_left _ _)
  distinct := frontier.distinct
  distinctHere := frontier.distinctDeeper
  distinctDeeper := List.nodup_nil
  covered name near := frontier.covers_next near
  reached name member := (frontier.reached name member).mono (Nat.le_succ _)
  waiting name member := frontier.reached name ((frontier.queued shallow name).mp member).1
  expanded name near outside := by
    have near' : search.directory.Nearer root depth name := by
      by_contra far
      exact outside ((frontier.queued shallow name).mpr ⟨frontier.covers_next near, far⟩)
    exact frontier.expanded name near' List.not_mem_nil
  queued _ name := by
    constructor
    · intro impossible
      cases impossible
    · rintro ⟨old, far⟩
      exact (far (frontier.reached name old)).elim

end Frontier

/-! ## What the visits from a frontier do -/

/-- Some visits claim every name within reach that is not known, and visit every name one nesting
nearer that is still to be visited. -/
structure Explored (search : Search) (root : String) (depth : ℕ) (known : List String)
    (here : List Arrival) (visits : List Visit) : Prop where
  distinct : (known ++ visits.flatMap Visit.claimedNames).Nodup
  claimed : ∀ name, name ∈ known ++ visits.flatMap Visit.claimedNames ↔
    search.directory.Nearer root (search.reach + 1) name
  once : (visits.map Visit.name).Nodup
  visited : ∀ name, name ∈ visits.map Visit.name ↔
    search.directory.Nearer root search.reach name ∧
      (name ∈ here.map Arrival.name ∨ ¬ search.directory.Nearer root depth name)

namespace Frontier

variable {search : Search} {root : String} {depth : ℕ} {known : List String}
  {deeper here : List Arrival} {arrival : Arrival} {visits : List Visit}

/-- Where no group waits for the next depth, everything that can be reached is known and nearer
than that depth. -/
theorem nearer_of_chain (frontier : Frontier search root depth known [] [])
    (shallow : depth < search.maxDepth) {length : ℕ} {name : String}
    (chain : search.directory.Chain root length name) :
    search.directory.Nearer root depth name := by
  refine chain.mem_of_closed { name | search.directory.Nearer root depth name }
    (nearer_root frontier.positive) ?_
  intro parent near child nests
  by_contra far
  have known := frontier.expanded parent near List.not_mem_nil child nests
  exact List.not_mem_nil ((frontier.queued shallow child).mpr ⟨known, far⟩)

private theorem explored_of_exhausted (frontier : Frontier search root depth known [] [])
    (shallow : depth < search.maxDepth) : Explored search root depth known [] [] where
  distinct := by simpa using frontier.distinct
  claimed name := by
    rw [List.flatMap_nil, List.append_nil]
    constructor
    · intro member
      exact (frontier.reached name member).mono (Nat.succ_le_succ frontier.inReach)
    · rintro ⟨length, _, chain⟩
      exact frontier.covered name (frontier.nearer_of_chain shallow chain)
  once := List.nodup_nil
  visited name := by
    constructor
    · intro impossible
      cases impossible
    · rintro ⟨⟨length, _, chain⟩, impossible | far⟩
      · exact impossible
      · exact (far (frontier.nearer_of_chain shallow chain)).elim

private theorem explored_of_deepest (frontier : Frontier search root depth known deeper [])
    (deepest : ¬ depth < search.maxDepth) : Explored search root depth known [] [] := by
  obtain rfl : depth = search.reach := by
    have := frontier.positive
    have := frontier.inReach
    unfold Search.reach at *
    omega
  exact {
    distinct := by simpa using frontier.distinct
    claimed := fun name => by
      rw [List.flatMap_nil, List.append_nil]
      exact ⟨frontier.reached name, frontier.covers_next⟩
    once := List.nodup_nil
    visited := fun name => by
      constructor
      · intro impossible
        cases impossible
      · rintro ⟨near, impossible | far⟩
        · exact impossible
        · exact (far near).elim }

private theorem explored_of_descend (frontier : Frontier search root depth known deeper [])
    (shallow : depth < search.maxDepth)
    (explored : Explored search root (depth + 1) known deeper visits) :
    Explored search root depth known [] visits where
  distinct := explored.distinct
  claimed := explored.claimed
  once := explored.once
  visited name := by
    rw [explored.visited name, frontier.queued shallow name]
    refine and_congr_right fun near => ?_
    simp only [List.map_nil, List.not_mem_nil, false_or]
    constructor
    · rintro (⟨_, far⟩ | farther)
      · exact far
      · exact fun near => farther (near.mono (Nat.le_succ _))
    · intro far
      -- A name that is not nearer is visited at the next depth or from there on.
      by_cases next : search.directory.Nearer root (depth + 1) name
      · exact Or.inl ⟨frontier.covers_next next, far⟩
      · exact Or.inr next

private theorem explored_of_visit
    (frontier : Frontier search root depth known deeper (arrival :: here))
    {visit : Visit} (same : visit.name = arrival.name)
    (explored : Explored search root depth (known ++ visit.claimedNames) here visits) :
    Explored search root depth known (arrival :: here) (visit :: visits) where
  distinct := by
    simpa only [List.flatMap_cons, ← List.append_assoc] using explored.distinct
  claimed name := by
    simpa only [List.flatMap_cons, ← List.append_assoc] using explored.claimed name
  once := by
    refine List.nodup_cons.mpr ⟨fun again => ?_, explored.once⟩
    rw [same, explored.visited] at again
    rcases again.2 with waits | far
    · exact (List.nodup_cons.mp frontier.distinctHere).1 waits
    · exact far (frontier.waiting _ List.mem_cons_self)
  visited name := by
    rw [List.map_cons, List.mem_cons, explored.visited name, same, List.map_cons, List.mem_cons]
    constructor
    · rintro (rfl | ⟨near, waits | far⟩)
      · exact ⟨(frontier.waiting _ List.mem_cons_self).mono frontier.inReach, Or.inl (Or.inl rfl)⟩
      · exact ⟨near, Or.inl (Or.inr waits)⟩
      · exact ⟨near, Or.inr far⟩
    · rintro ⟨near, (rfl | waits) | far⟩
      · exact Or.inl rfl
      · exact Or.inr ⟨near, Or.inl waits⟩
      · exact Or.inr ⟨near, Or.inr far⟩

/-- **The visits from a frontier.** They claim every name within reach once, and visit every name
one nesting nearer once. -/
theorem explored (folds : search.directory.FoldsCase) (finishes : List Instant)
    (frontier : Frontier search root depth known deeper here) :
    Explored search root depth known here
      (search.visits depth known finishes deeper here) := by
  induction depth, known, finishes, deeper, here using Search.visits.induct search with
  | case1 depth known finishes shallow =>
      rw [Search.visits, if_pos shallow]
      exact frontier.explored_of_exhausted shallow
  | case2 depth known finishes shallow arrival rest ih =>
      rw [Search.visits, if_pos shallow]
      exact frontier.explored_of_descend shallow (ih (frontier.descend shallow))
  | case3 depth known finishes deeper deepest =>
      rw [Search.visits_of_deepest deepest]
      exact frontier.explored_of_deepest deepest
  | case4 depth known finishes deeper arrival rest visit waiting ih =>
      rw [Search.visits]
      have next := frontier.visit folds finishes
      exact frontier.explored_of_visit rfl (ih next)

end Frontier

/-! ## Instants and lanes -/

/-- A visit without its instants. -/
def Visit.timeless (visit : Visit) : Visit := { visit with start := 0, finish := 0 }

/-- What is visited and claimed does not depend on when the visits start and how long an answer
takes. -/
theorem Search.visits_alike {one two : Search} (sameDepth : one.maxDepth = two.maxDepth)
    (sameAnswers : one.directory.memberGroups = two.directory.memberGroups) (depth : ℕ)
    (known : List String) (finishes : List Instant) (deeper here : List Arrival) :
    ∀ (finishes' : List Instant) (deeper' here' : List Arrival),
      deeper.map Arrival.group = deeper'.map Arrival.group →
      here.map Arrival.group = here'.map Arrival.group →
        (one.visits depth known finishes deeper here).map Visit.timeless =
          (two.visits depth known finishes' deeper' here').map Visit.timeless := by
  induction depth, known, finishes, deeper, here using Search.visits.induct one with
  | case1 depth known finishes shallow =>
      intro finishes' deeper' here' sameDeeper sameHere
      obtain rfl := List.map_eq_nil_iff.mp sameDeeper.symm
      obtain rfl := List.map_eq_nil_iff.mp sameHere.symm
      rw [Search.visits, Search.visits, if_pos shallow, if_pos (sameDepth ▸ shallow)]
  | case2 depth known finishes shallow arrival rest ih =>
      intro finishes' deeper' here' sameDeeper sameHere
      obtain rfl := List.map_eq_nil_iff.mp sameHere.symm
      obtain ⟨arrival', rest', rfl, -, -⟩ := List.map_eq_cons_iff.mp sameDeeper.symm
      rw [Search.visits, Search.visits, if_pos shallow, if_pos (sameDepth ▸ shallow)]
      exact ih finishes' [] (arrival' :: rest') rfl sameDeeper
  | case3 depth known finishes deeper deepest =>
      intro finishes' deeper' here' sameDeeper sameHere
      obtain rfl := List.map_eq_nil_iff.mp sameHere.symm
      rw [Search.visits_of_deepest deepest, Search.visits_of_deepest (sameDepth ▸ deepest)]
  | case4 depth known finishes deeper arrival rest visit waiting ih =>
      intro finishes' deeper' here' sameDeeper sameHere
      obtain ⟨arrival', rest', rfl, sameGroup, sameRest⟩ := List.map_eq_cons_iff.mp sameHere.symm
      have sameMembers : two.members arrival.group = one.members arrival.group := by
        unfold Search.members
        rw [sameAnswers]
      have sameVisit : (two.visit depth known finishes' arrival').timeless = visit.timeless := by
        simp only [visit, Search.visit, Visit.timeless, sameMembers, sameAnswers, sameGroup]
      have sameClaims : (two.visit depth known finishes' arrival').claimed = visit.claimed := by
        simp only [visit, Search.visit, sameMembers, sameGroup]
      rw [Search.visits, Search.visits, List.map_cons, List.map_cons, sameVisit, sameClaims]
      refine congrArg (visit.timeless :: ·) (ih _ _ rest' ?_ sameRest.symm)
      rw [List.map_append, List.map_append, sameDeeper]
      by_cases shallow : depth < one.maxDepth
      · simp only [waiting, shallow, sameDepth ▸ shallow, ↓reduceDIte, ↓reduceIte, List.map_map]
        rfl
      · simp only [waiting, shallow, sameDepth ▸ shallow, ↓reduceDIte, ↓reduceIte]

private theorem found_eq_of_alike {one two : List Visit}
    (alike : one.map Visit.timeless = two.map Visit.timeless) : found one = found two := by
  have claims : ∀ visits : List Visit,
      visits.flatMap Visit.claimed = (visits.map Visit.timeless).flatMap Visit.claimed := by
    intro visits
    rw [List.flatMap_map]
    rfl
  unfold found
  rw [claims one, claims two, alike]

/-- What is found depends on the answers about members and on the depth only, not on the workers,
the latency or the start. -/
theorem found_visitsFrom_eq {directory other : Directory} {limits bounds : Limits}
    (sameAnswers : directory.memberGroups = other.memberGroups)
    (sameDepth : limits.maxDepth = bounds.maxDepth) (seed : String) (start later : Instant) :
    found (visitsFrom directory limits seed start) = found (visitsFrom other bounds seed later) :=
  found_eq_of_alike
    (Search.visits_alike sameDepth sameAnswers 1 _ [] [] [⟨seed, start⟩] [] [] [⟨seed, later⟩]
      rfl rfl)

/-! ## A whole search -/

section Search

variable {directory : Directory} {limits : Limits} {seed : String} {start : Instant}

/-- The visits of a search explore everything within its depth. -/
theorem explored_visitsFrom (folds : directory.FoldsCase) (limits : Limits) (seed : String)
    (start : Instant) :
    ∃ search : Search, search.directory = directory ∧ search.maxDepth = limits.maxDepth ∧
      Explored search (Text.lowercase seed) 1 [Text.lowercase seed] [⟨seed, start⟩]
        (visitsFrom directory limits seed start) :=
  ⟨⟨directory, limits.maxDepth, if directory.latency = 0 then 1 else max limits.maxWorkers 1⟩,
    rfl, rfl, (Frontier.initial _ start seed).explored folds []⟩

private theorem map_lowercase_found_perm (visits : List Visit) :
    ((found visits).map Text.lowercase).Perm (visits.flatMap Visit.claimedNames) := by
  have names : (visits.flatMap Visit.claimed).map Text.lowercase =
      visits.flatMap Visit.claimedNames := List.map_flatMap
  rw [← names]
  exact (List.mergeSort_perm _ _).map _

/-- A name is found if and only if it is within the depth of the search and is not that of the
seed. -/
theorem mem_found_iff (folds : directory.FoldsCase) (name : String) :
    name ∈ (found (visitsFrom directory limits seed start)).map Text.lowercase ↔
      name ≠ Text.lowercase seed ∧
        directory.Nearer (Text.lowercase seed) (max limits.maxDepth 1 + 1) name := by
  obtain ⟨search, rfl, sameDepth, explored⟩ := explored_visitsFrom folds limits seed start
  rw [(map_lowercase_found_perm _).mem_iff]
  have claimed := explored.claimed name
  have distinct := List.nodup_cons.mp explored.distinct
  rw [List.cons_append, List.nil_append, List.mem_cons, Search.reach, sameDepth] at claimed
  constructor
  · intro member
    refine ⟨?_, claimed.mp (Or.inr member)⟩
    rintro rfl
    exact distinct.1 member
  · rintro ⟨other, near⟩
    exact (claimed.mpr near).resolve_left other

/-- No name is found twice. -/
theorem nodup_found (folds : directory.FoldsCase) :
    ((found (visitsFrom directory limits seed start)).map Text.lowercase).Nodup := by
  obtain ⟨search, rfl, -, explored⟩ := explored_visitsFrom folds limits seed start
  rw [(map_lowercase_found_perm _).nodup_iff]
  exact (List.nodup_cons.mp explored.distinct).2

/-- A claimed group is listed, as spelled, in the answer to the visit that claimed it. -/
theorem claimed_subset_members (search : Search) (depth : ℕ) (known : List String)
    (finishes : List Instant) (deeper here : List Arrival) :
    ∀ visit ∈ search.visits depth known finishes deeper here,
      visit.claimed ⊆ search.members visit.group := by
  induction depth, known, finishes, deeper, here using Search.visits.induct search with
  | case1 depth known finishes shallow =>
      rw [Search.visits, if_pos shallow]
      intro visit impossible
      cases impossible
  | case2 depth known finishes shallow arrival rest ih =>
      rw [Search.visits, if_pos shallow]
      exact ih
  | case3 depth known finishes deeper deepest =>
      rw [Search.visits_of_deepest deepest]
      intro visit impossible
      cases impossible
  | case4 depth known finishes deeper arrival rest visit waiting ih =>
      rw [Search.visits]
      intro other member
      rcases List.mem_cons.mp member with rfl | later
      · exact claim_subset known _
      · exact ih other later

private theorem asked_visits (visits : List Visit) :
    Questions.asked (visits.flatMap Visit.events) =
      visits.map fun visit => .memberGroups visit.group := by
  induction visits with
  | nil => rfl
  | cons visit rest ih =>
      have one : Questions.asked visit.events = [.memberGroups visit.group] := by
        unfold Visit.events
        split <;> rfl
      have split : Questions.asked ((visit :: rest).flatMap Visit.events) =
          Questions.asked visit.events ++ Questions.asked (rest.flatMap Visit.events) :=
        List.filterMap_append
      rw [split, one, ih]
      rfl

/-- Unless there are too many workers, a search finds what its visits claim and asks what they ask.
-/
theorem resolve_of_permitted (permitted : limits.maxWorkers ≤ permitLimit) :
    resolve directory limits seed start = .ok {
      value := found (visitsFrom directory limits seed start)
      finish := (visitsFrom directory limits seed start).foldl
        (fun latest visit => max latest visit.finish) start
      events := (visitsFrom directory limits seed start).flatMap Visit.events } :=
  if_pos permitted

end Search

/-- **A search finds exactly what is within its depth.** Below a group of any catalog, a search
ends with every other name whose distance is at most the depth bound (and at least one nesting is
followed), each once, as it was spelled in some answer, in the order of bytes. It asks once for
each name that is one nesting nearer, and for nothing else. Neither the number of workers nor the
latency nor the start makes a difference. -/
theorem resolve_finds_within_depth (catalog : Catalog) (limits : Limits) (seed : String)
    (start : Instant) (permitted : limits.maxWorkers ≤ permitLimit) :
    ∃ trace, ∃ asked : List String, resolve catalog.toDirectory limits seed start = .ok trace ∧
      (∀ name, name ∈ trace.value.map Text.lowercase ↔ name ≠ Text.lowercase seed ∧
        catalog.toDirectory.distance (Text.lowercase seed) name ≤ (max limits.maxDepth 1 : ℕ)) ∧
      (trace.value.map Text.lowercase).Nodup ∧
      trace.value.Pairwise (fun first second => Text.utf8 first < Text.utf8 second) ∧
      (∀ group ∈ trace.value, ∃ parent ∈ asked, ∃ children,
        catalog.toDirectory.memberGroups parent = .ok children ∧ group ∈ children) ∧
      Questions.asked trace.events = asked.map .memberGroups ∧
      (asked.map Text.lowercase).Nodup ∧
      (∀ name, name ∈ asked.map Text.lowercase ↔
        catalog.toDirectory.distance (Text.lowercase seed) name ≤
          (max limits.maxDepth 1 - 1 : ℕ)) ∧
      ∀ latency maxWorkers later, maxWorkers ≤ permitLimit →
        ∃ other, resolve { catalog with latency := latency }.toDirectory
          { limits with maxWorkers := maxWorkers } seed later = .ok other ∧
            other.value = trace.value := by
  have folds := catalog.toDirectory_foldsCase
  obtain ⟨search, sameDirectory, sameDepth, explored⟩ :=
    explored_visitsFrom folds limits seed start
  have distinct : ((found (visitsFrom catalog.toDirectory limits seed start)).map
      Text.lowercase).Nodup := nodup_found folds
  have namesOf : (visitsFrom catalog.toDirectory limits seed start).map Visit.name =
      ((visitsFrom catalog.toDirectory limits seed start).map Visit.group).map Text.lowercase :=
    (List.map_map).symm
  refine ⟨_, (visitsFrom catalog.toDirectory limits seed start).map Visit.group,
    resolve_of_permitted permitted, ?members, distinct, ?sorted, ?spelled, ?asked, ?once,
    ?visited, ?alike⟩
  case members =>
    intro name
    rw [mem_found_iff folds, distance_le_iff]
  case sorted =>
    have ordered : (found (visitsFrom catalog.toDirectory limits seed start)).Pairwise (· ≤ ·) :=
      List.pairwise_mergeSort' (· ≤ ·) _
    refine (ordered.and (List.Nodup.of_map _ distinct)).imp ?_
    rintro first second ⟨atMost, different⟩
    exact Text.utf8_lt_utf8_iff.mpr (lt_of_le_of_ne atMost different)
  case spelled =>
    intro group member
    rw [found, List.mem_mergeSort, List.mem_flatMap] at member
    obtain ⟨visit, visited, claimed⟩ := member
    have listed := claimed_subset_members _ _ _ _ _ _ visit visited claimed
    unfold Search.members at listed
    cases answer : catalog.toDirectory.memberGroups visit.group with
    | ok children =>
        rw [answer] at listed
        exact ⟨visit.group, List.mem_map_of_mem visited, children, answer, listed⟩
    | error fault =>
        rw [answer] at listed
        cases listed
  case asked =>
    rw [asked_visits, List.map_map]
    rfl
  case once => exact namesOf ▸ explored.once
  case visited =>
    intro name
    rw [← namesOf, explored.visited name, sameDirectory, distance_le_iff,
      Nat.sub_add_cancel (le_max_right limits.maxDepth 1), Search.reach, sameDepth]
    simp only [List.map_cons, List.map_nil, List.mem_singleton, nearer_one_iff, Arrival.name,
      em, and_true]
  case alike =>
    intro latency maxWorkers later permitted'
    have same : found (visitsFrom { catalog with latency := latency }.toDirectory
          { limits with maxWorkers := maxWorkers } seed later) =
        found (visitsFrom catalog.toDirectory limits seed start) := by
      apply found_visitsFrom_eq
      · rfl
      · rfl
    exact ⟨_, resolve_of_permitted permitted', same⟩

/-- A search to depth two in a cycle, with a name spelled twice and a group that cannot be asked
about. -/
theorem resolve_finds_within_depth_of_cycle :
    3 ≤ permitLimit ∧
      ∃ trace, ∃ asked : List String,
        resolve ((({ failing := ["cn=c"], latency := 5 } : Catalog).withNested "CN=A"
            ["CN=B", "cn=b", "CN=C"]).withNested "CN=B" ["CN=a", "CN=D"]).toDirectory
          ⟨2, 3⟩ "CN=A" 0 = .ok trace ∧
        Text.lowercase "CN=A" ∉ trace.value.map Text.lowercase ∧
        (trace.value.map Text.lowercase).Nodup ∧
        Questions.asked trace.events = asked.map .memberGroups ∧
        (asked.map Text.lowercase).Nodup := by
  have permitted : 3 ≤ permitLimit := by decide
  obtain ⟨trace, asked, run, members, distinct, _, _, questions, once, _⟩ :=
    resolve_finds_within_depth ((({ failing := ["cn=c"], latency := 5 } : Catalog).withNested "CN=A"
      ["CN=B", "cn=b", "CN=C"]).withNested "CN=B" ["CN=a", "CN=D"]) ⟨2, 3⟩ "CN=A" 0 permitted
  refine ⟨permitted, trace, asked, run, ?_, distinct, questions, once⟩
  intro member
  exact ((members _).mp member).1 rfl

end SpnegoRealm.Groups
