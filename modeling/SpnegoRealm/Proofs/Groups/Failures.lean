import SpnegoRealm.Proofs.Groups.Orders

/-! # Searches where questions fail

A question that fails is answered by no members, so failures only take nestings away
(`SpnegoRealm.Directory.Covers`). And a search asks only about groups that are nearer than its
depth: directories that answer alike about these are searched alike, whether the search goes on
first in, first out (`SpnegoRealm.Groups.resolve_eq_of_agreeWithin`) or in any other order
(`SpnegoRealm.Groups.Run.Reaches.of_agreeWithin`).
-/

namespace SpnegoRealm

namespace Directory

/-- What a part of a directory tells about the members of groups, the directory tells as well. -/
def Covers (directory part : Directory) : Prop :=
  ∀ group children, part.memberGroups group = .ok children →
    directory.memberGroups group = .ok children

/-- Two directories answer alike about all groups within some nestings of a name. -/
def AgreeWithin (directory other : Directory) (root : String) (bound : ℕ) : Prop :=
  ∀ group, directory.Nearer root bound (Text.lowercase group) →
    directory.memberGroups group = other.memberGroups group

section Covers

variable {directory part : Directory} {root name member : String} {bound : ℕ}

private theorem Covers.nests (covers : directory.Covers part) (nests : part.Nests name member) :
    directory.Nests name member := by
  obtain ⟨group, children, child, same, answered, listed, spelled⟩ := nests
  exact ⟨group, children, child, same, covers group children answered, listed, spelled⟩

private theorem Covers.chain (covers : directory.Covers part) {length : ℕ}
    (chain : part.Chain root length name) : directory.Chain root length name := by
  induction chain with
  | root => exact .root
  | deeper _ nests ih => exact ih.deeper (covers.nests nests)

/-- What is near in a part of a directory is as near in the directory. -/
theorem Covers.nearer (covers : directory.Covers part) (near : part.Nearer root bound name) :
    directory.Nearer root bound name := by
  obtain ⟨length, shorter, chain⟩ := near
  exact ⟨length, shorter, covers.chain chain⟩

end Covers

namespace Catalog

variable {catalog : Catalog} {keys more : List String} {name : String}

/-- A catalog of the same contents where questions about some other keys fail. -/
def failingAt (catalog : Catalog) (keys : List String) : Catalog :=
  { catalog with failing := keys }

private theorem fails_failingAt_iff : (catalog.failingAt keys).fails name = true ↔
    Text.lowercase name ∈ keys :=
  List.contains_iff_mem

private theorem fails_failingAt_of_not_mem (answers : Text.lowercase name ∉ keys) :
    (catalog.failingAt keys).fails name = false :=
  Bool.eq_false_iff.mpr fun fails => answers (fails_failingAt_iff.mp fails)

private theorem memberGroups_failingAt (answers : Text.lowercase name ∉ keys) :
    (catalog.failingAt keys).toDirectory.memberGroups name =
      .ok (catalog.children (Text.lowercase name)) :=
  memberGroups_of_not_fails (fails_failingAt_of_not_mem answers)

/-- Where its key does not fail, an object is the one that the catalog lists for the lowercased
name. -/
theorem objectAttributes_failingAt (answers : Text.lowercase name ∉ keys) :
    (catalog.failingAt keys).toDirectory.objectAttributes name =
      .ok (catalog.entries.lookup (Text.lowercase name)) := by
  have passes : (catalog.failingAt keys).check name = .ok () := by
    unfold check
    rw [fails_failingAt_of_not_mem answers, if_neg Bool.false_ne_true]
  unfold toDirectory
  simp only [passes]
  rfl

/-- A question for an object that is answered has no failing key. -/
theorem not_mem_of_objectAttributes {object : Option Entry}
    (answer : (catalog.failingAt keys).toDirectory.objectAttributes name = .ok object) :
    Text.lowercase name ∉ keys := by
  intro failing
  have refuses : (catalog.failingAt keys).check name =
      .error (.query ("injected failure for " ++ name)) := if_pos (fails_failingAt_iff.mpr failing)
  unfold toDirectory at answer
  simp only [refuses] at answer
  cases answer

private theorem not_mem_of_memberGroups {children : List String}
    (answer : (catalog.failingAt keys).toDirectory.memberGroups name = .ok children) :
    Text.lowercase name ∉ keys := by
  intro failing
  rw [memberGroups_of_fails (fails_failingAt_iff.mpr failing)] at answer
  cases answer

/-- More failures take answers away and change none. -/
theorem failingAt_covers (fewer : keys ⊆ more) :
    (catalog.failingAt keys).toDirectory.Covers (catalog.failingAt more).toDirectory := by
  intro group children answer
  have answers : Text.lowercase group ∉ more := not_mem_of_memberGroups answer
  have answers' : Text.lowercase group ∉ keys := fun failing => answers (fewer failing)
  rw [memberGroups_failingAt answers']
  rwa [memberGroups_failingAt answers] at answer

/-- Catalogs that differ in their failures answer alike about the groups near a name, if no group
near it fails in either. -/
theorem agreeWithin_failingAt {root : String} {bound : ℕ} (fewer : keys ⊆ more)
    (answers : ∀ other, (catalog.failingAt []).toDirectory.Nearer root bound other → other ∉ more) :
    (catalog.failingAt keys).toDirectory.AgreeWithin (catalog.failingAt more).toDirectory root
        bound ∧
      (catalog.failingAt more).toDirectory.AgreeWithin (catalog.failingAt keys).toDirectory root
        bound := by
  have alike (group : String)
      (near : (catalog.failingAt []).toDirectory.Nearer root bound (Text.lowercase group)) :
      (catalog.failingAt keys).toDirectory.memberGroups group =
        (catalog.failingAt more).toDirectory.memberGroups group := by
    have found : Text.lowercase group ∉ more := answers _ near
    rw [memberGroups_failingAt found, memberGroups_failingAt fun failing => found (fewer failing)]
  have unfailing (others : List String) :
      (catalog.failingAt []).toDirectory.Covers (catalog.failingAt others).toDirectory :=
    failingAt_covers (List.nil_subset others)
  refine ⟨fun group near => ?_, fun group near => ?_⟩
  · exact alike group ((unfailing keys).nearer near)
  · exact (alike group ((unfailing more).nearer near)).symm

end Catalog

end Directory

namespace Groups

open Directory

/-! ## First in, first out -/

/-- What a search visits is told by the answers about the groups that it visits. -/
theorem Search.visits_eq_of_agree {one two : Search} (sameDepth : one.maxDepth = two.maxDepth)
    (sameLanes : one.lanes = two.lanes) (sameLatency : one.directory.latency = two.directory.latency)
    (depth : ℕ) (known : List String) (finishes : List Instant) (deeper here : List Arrival)
    (agree : ∀ visit ∈ one.visits depth known finishes deeper here,
      one.directory.memberGroups visit.group = two.directory.memberGroups visit.group) :
    one.visits depth known finishes deeper here = two.visits depth known finishes deeper here := by
  induction depth, known, finishes, deeper, here using Search.visits.induct one with
  | case1 depth known finishes shallow =>
      rw [Search.visits, Search.visits, if_pos shallow, if_pos (sameDepth ▸ shallow)]
  | case2 depth known finishes shallow arrival rest ih =>
      rw [Search.visits, if_pos shallow] at agree
      rw [Search.visits, Search.visits, if_pos shallow, if_pos (sameDepth ▸ shallow)]
      exact ih agree
  | case3 depth known finishes deeper deepest =>
      rw [Search.visits_of_deepest deepest, Search.visits_of_deepest (sameDepth ▸ deepest)]
  | case4 depth known finishes deeper arrival rest visit waiting ih =>
      rw [Search.visits] at agree
      have answer : one.directory.memberGroups arrival.group =
          two.directory.memberGroups arrival.group := agree _ List.mem_cons_self
      have sameVisit : two.visit depth known finishes arrival = visit := by
        simp only [visit, Search.visit, Search.members, Search.laneFree, answer, sameLanes,
          sameLatency]
      rw [Search.visits, Search.visits, sameVisit, ← sameDepth]
      exact congrArg (visit :: ·) (ih fun other visited => agree other
        (List.mem_cons_of_mem _ visited))

section Search

variable {directory other : Directory} {limits : Limits} {seed : String} {start : Instant}

/-- A search visits only groups that are nearer than its depth. -/
theorem nearer_of_mem_visitsFrom (folds : directory.FoldsCase) {visit : Visit}
    (visited : visit ∈ visitsFrom directory limits seed start) :
    directory.Nearer (Text.lowercase seed) (max limits.maxDepth 1) (Text.lowercase visit.group) := by
  obtain ⟨search, rfl, sameDepth, explored⟩ := explored_visitsFrom folds limits seed start
  have near := ((explored.visited visit.name).mp (List.mem_map_of_mem visited)).1
  rwa [Search.reach, sameDepth] at near

/-- **Directories that answer alike about the groups within the depth are searched alike**, with the
same questions at the same instants. -/
theorem resolve_eq_of_agreeWithin (folds : directory.FoldsCase)
    (sameLatency : directory.latency = other.latency)
    (agree : directory.AgreeWithin other (Text.lowercase seed) (max limits.maxDepth 1)) :
    resolve directory limits seed = resolve other limits seed := by
  have visits : visitsFrom directory limits seed = visitsFrom other limits seed := by
    funext start
    apply Search.visits_eq_of_agree
    · rfl
    · rw [sameLatency]
    · exact sameLatency
    · intro visit visited
      exact agree visit.group (nearer_of_mem_visitsFrom folds visited)
  unfold resolve
  rw [visits]

end Search

/-! ## Any order -/

namespace Run

variable {directory other : Directory} {maxDepth : ℕ} {limits : Limits} {seed : String}
  {run next : Run}

/-- A step looks at the directory only for a group that it asks about. -/
theorem Step.of_agree (step : Step directory maxDepth run next)
    (agree : ∀ task ∈ run.asking,
      directory.memberGroups task.group = other.memberGroups task.group) :
    Step other maxDepth run next := by
  cases step with
  | start waits free => exact .start waits free
  | @answer task rest children asks answered =>
      have asked : task ∈ run.asking := asks ▸ Multiset.mem_cons_self task rest
      exact .answer asks ((agree task asked).symm.trans answered)
  | @fail task rest fault asks failed =>
      have asked : task ∈ run.asking := asks ▸ Multiset.mem_cons_self task rest
      exact .fail asks ((agree task asked).symm.trans failed)
  | skip claims met => exact .skip claims met
  | claim claims fresh => exact .claim claims fresh
  | finish claims => exact .finish claims
  | join idle ended => exact .join idle ended
  | submit hands => exact .submit hands

/-- In every order, a search asks only about groups that are nearer than its depth. -/
theorem nearer_of_mem_asking (folds : directory.FoldsCase)
    (reaches : Reaches directory maxDepth (initial limits seed) run) {task : Task}
    (asks : task ∈ run.asking) :
    directory.Nearer (Text.lowercase seed) (max maxDepth 1) (Text.lowercase task.group) := by
  have started : task ∈ run.started := by
    simp only [Run.started, Multiset.mem_add]
    exact Or.inl (Or.inl (Or.inl asks))
  have submitted := (Balanced.of_reaches reaches).mem_submitted started
  obtain ⟨shallow, passed, route, length, -⟩ := (Charted.of_reaches folds reaches).submitted submitted
  have short : passed.length < max maxDepth 1 := by omega
  exact ⟨passed.length, short, route.chain⟩

/-- Directories that answer alike about the groups within the depth allow the same orders of a
search. -/
theorem Reaches.of_agreeWithin (folds : directory.FoldsCase)
    (agree : directory.AgreeWithin other (Text.lowercase seed) (max maxDepth 1))
    (reaches : Reaches directory maxDepth (initial limits seed) run) :
    Reaches other maxDepth (initial limits seed) run := by
  induction reaches with
  | refl => exact .refl
  | @tail run next before step ih =>
      refine ih.tail (step.of_agree fun task asks => ?_)
      exact agree task.group (nearer_of_mem_asking folds before asks)

end Run

end Groups

end SpnegoRealm
