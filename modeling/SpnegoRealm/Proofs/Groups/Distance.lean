import Mathlib.Data.ENat.Lattice
import Mathlib.Data.Set.Card
import SpnegoRealm.Directory.Catalog

/-! # Distance between nested groups

The questions for the members of groups span a graph on lowercased names
(`SpnegoRealm.Directory.Nests`): one name nests another when some spelling of the first is answered
by a list with some spelling of the second. A question that fails adds no edge. The distance
between two names is the length of a shortest chain of nestings
(`SpnegoRealm.Directory.distance`); a name is *nearer* than a bound when its distance is below it
(`SpnegoRealm.Directory.distance_lt_iff`).

A directory that folds case answers alike for all spellings of a name
(`SpnegoRealm.Directory.FoldsCase`), so that one answer tells all edges from a name. Every catalog
is such a directory, and only finitely many names lie below any of its groups.
-/

namespace SpnegoRealm.Directory

/-- One lowercased name nests another: asked for the members of a spelling of the first, the
directory answers with a list that has a spelling of the second. -/
def Nests (directory : Directory) (name member : String) : Prop :=
  ∃ group children child, Text.lowercase group = name ∧
    directory.memberGroups group = .ok children ∧ child ∈ children ∧
      Text.lowercase child = member

/-- The answers about the members of a group are the same for all its spellings. -/
def FoldsCase (directory : Directory) : Prop :=
  ∀ first second, Text.lowercase first = Text.lowercase second →
    (directory.memberGroups first).toOption = (directory.memberGroups second).toOption

/-- A chain of nestings from a name to another. -/
inductive Chain (directory : Directory) (root : String) : ℕ → String → Prop
  | root : Chain directory root 0 root
  | deeper {length : ℕ} {name member : String} :
    Chain directory root length name → directory.Nests name member →
      Chain directory root (length + 1) member

/-- The length of a shortest chain from a name to another, or infinity. -/
noncomputable def distance (directory : Directory) (root name : String) : ℕ∞ :=
  ⨅ length : { length : ℕ // directory.Chain root length name }, (length.val : ℕ∞)

/-- Some chain shorter than a bound leads to a name. -/
def Nearer (directory : Directory) (root : String) (bound : ℕ) (name : String) : Prop :=
  ∃ length < bound, directory.Chain root length name

/-- The names other than the root to which some chain leads. -/
def below (directory : Directory) (root : String) : Set String :=
  { name | name ≠ root ∧ ∃ length, directory.Chain root length name }

variable {directory : Directory} {root name member : String} {bound : ℕ}

/-- A name is nearer than a bound if and only if its distance is below the bound. -/
theorem distance_lt_iff :
    directory.distance root name < bound ↔ directory.Nearer root bound name := by
  constructor
  · intro short
    obtain ⟨⟨length, chain⟩, shorter⟩ := iInf_lt_iff.mp short
    exact ⟨length, Nat.cast_lt.mp shorter, chain⟩
  · rintro ⟨length, shorter, chain⟩
    exact iInf_lt_iff.mpr ⟨⟨length, chain⟩, Nat.cast_lt.mpr shorter⟩

/-- A name is within a bound if and only if it is nearer than the next one. -/
theorem distance_le_iff :
    directory.distance root name ≤ bound ↔ directory.Nearer root (bound + 1) name := by
  rw [← distance_lt_iff, Nat.cast_add, Nat.cast_one, ENat.lt_add_one_iff (ENat.natCast_ne_top bound)]

/-- The root is nearer than every positive bound. -/
theorem nearer_root (positive : 0 < bound) : directory.Nearer root bound root :=
  ⟨0, positive, .root⟩

/-- Only the root is nearer than one nesting. -/
theorem nearer_one_iff : directory.Nearer root 1 name ↔ name = root := by
  constructor
  · rintro ⟨length, shorter, chain⟩
    obtain rfl : length = 0 := Nat.lt_one_iff.mp shorter
    cases chain
    rfl
  · rintro rfl
    exact nearer_root Nat.one_pos

/-- What is nearer than a bound is nearer than every greater one. -/
theorem Nearer.mono (near : directory.Nearer root bound name) {further : ℕ}
    (less : bound ≤ further) : directory.Nearer root further name := by
  obtain ⟨length, shorter, chain⟩ := near
  exact ⟨length, shorter.trans_le less, chain⟩

/-- A member is at most one nesting further than the group that nests it. -/
theorem Nearer.deeper (near : directory.Nearer root bound name)
    (nests : directory.Nests name member) : directory.Nearer root (bound + 1) member := by
  obtain ⟨length, shorter, chain⟩ := near
  exact ⟨length + 1, Nat.succ_lt_succ shorter, chain.deeper nests⟩

/-- A name near the root is the root, or is nested in a name that is one nesting nearer. -/
theorem Nearer.eq_root_or_nested (near : directory.Nearer root (bound + 1) name) :
    name = root ∨ ∃ parent, directory.Nearer root bound parent ∧ directory.Nests parent name := by
  obtain ⟨length, shorter, chain⟩ := near
  cases chain with
  | root => exact Or.inl rfl
  | @deeper length parent _ chain nests =>
      exact Or.inr ⟨parent, ⟨length, Nat.lt_of_succ_lt_succ shorter, chain⟩, nests⟩

/-- A set that contains the root and every name nested in one of its names contains the end of
every chain. -/
theorem Chain.mem_of_closed {length : ℕ} (chain : directory.Chain root length name)
    (names : Set String) (start : root ∈ names)
    (closed : ∀ parent ∈ names, ∀ child, directory.Nests parent child → child ∈ names) :
    name ∈ names := by
  induction chain with
  | root => exact start
  | deeper _ nests ih => exact closed _ ih _ nests

/-- With case folded, the answer for one spelling of a name tells everything that it nests. -/
theorem FoldsCase.nests_iff (folds : directory.FoldsCase) {group : String}
    {children : List String} (answer : directory.memberGroups group = .ok children) :
    directory.Nests (Text.lowercase group) member ↔ member ∈ children.map Text.lowercase := by
  constructor
  · rintro ⟨other, others, child, same, answered, listed, rfl⟩
    have equal := folds other group same
    rw [answer, answered] at equal
    obtain rfl : others = children := Option.some.inj equal
    exact List.mem_map_of_mem listed
  · intro listed
    obtain ⟨child, inChildren, rfl⟩ := List.mem_map.mp listed
    exact ⟨group, children, child, rfl, answer, inChildren, rfl⟩

/-- With case folded, a name one of whose spellings cannot be asked about nests nothing. -/
theorem FoldsCase.not_nests (folds : directory.FoldsCase) {group : String}
    {fault : DirectoryError} (answer : directory.memberGroups group = .error fault) :
    ¬ directory.Nests (Text.lowercase group) member := by
  rintro ⟨other, others, child, same, answered, _⟩
  have equal := folds other group same
  rw [answer, answered] at equal
  exact Option.some_ne_none _ equal

namespace Catalog

/-- The names recorded as members of some group. -/
def recorded (catalog : Catalog) : List String :=
  catalog.nested.flatMap fun pair => pair.2.map Text.lowercase

variable {catalog : Catalog} {group : String}

/-- Where no question fails, a group has the members that the catalog lists for its lowercased
name. -/
theorem memberGroups_of_not_fails (answers : catalog.fails group = false) :
    catalog.toDirectory.memberGroups group = .ok (catalog.children (Text.lowercase group)) := by
  simp [toDirectory, check, answers, bind, Except.bind, pure, Except.pure]

/-- A failing key makes the question for its members fail. -/
theorem memberGroups_of_fails (fails : catalog.fails group = true) :
    catalog.toDirectory.memberGroups group =
      .error (.query ("injected failure for " ++ group)) := by
  simp [toDirectory, check, fails, bind, Except.bind]

/-- Every catalog answers alike for all spellings of a name. -/
theorem toDirectory_foldsCase (catalog : Catalog) : catalog.toDirectory.FoldsCase := by
  intro first second same
  have alike : catalog.fails first = catalog.fails second := by
    unfold fails
    rw [same]
  cases fails : catalog.fails first with
  | false =>
      rw [memberGroups_of_not_fails fails, memberGroups_of_not_fails (alike ▸ fails), same]
  | true =>
      rw [memberGroups_of_fails fails, memberGroups_of_fails (alike ▸ fails)]
      rfl

/-- What is nested in a name of a catalog is recorded under this name. -/
theorem exists_recorded_of_nests {parent child : String}
    (nests : catalog.toDirectory.Nests parent child) :
    ∃ pair ∈ catalog.nested, pair.1 = parent ∧ child ∈ pair.2.map Text.lowercase := by
  obtain ⟨group, children, spelling, rfl, answer, listed, rfl⟩ := nests
  cases fails : catalog.fails group with
  | true =>
      rw [memberGroups_of_fails fails] at answer
      cases answer
  | false =>
      rw [memberGroups_of_not_fails fails] at answer
      obtain rfl := Except.ok.inj answer
      unfold Catalog.children at listed
      cases found : catalog.nested.lookup (Text.lowercase group) with
      | none =>
          rw [found] at listed
          cases listed
      | some children =>
          rw [found] at listed
          obtain ⟨before, after, split, _⟩ := List.lookup_eq_some_iff.mp found
          have present : (Text.lowercase group, children) ∈ catalog.nested := by
            rw [split]
            exact List.mem_append_right _ List.mem_cons_self
          exact ⟨_, present, rfl, List.mem_map_of_mem listed⟩

/-- Every member of a group is recorded. -/
theorem mem_recorded_of_nests {parent child : String}
    (nests : catalog.toDirectory.Nests parent child) : child ∈ catalog.recorded := by
  obtain ⟨pair, present, _, listed⟩ := exists_recorded_of_nests nests
  exact List.mem_flatMap.mpr ⟨pair, present, listed⟩

private theorem below_subset (catalog : Catalog) (root : String) :
    catalog.toDirectory.below root ⊆ ↑catalog.recorded.toFinset := by
  rintro name ⟨other, length, chain⟩
  cases chain with
  | root => exact (other rfl).elim
  | deeper _ nests => exact Finset.mem_coe.mpr (List.mem_toFinset.mpr (mem_recorded_of_nests nests))

/-- Only finitely many names lie below a group of a catalog. -/
theorem below_finite (catalog : Catalog) (root : String) :
    (catalog.toDirectory.below root).Finite :=
  (Finset.finite_toSet _).subset (catalog.below_subset root)

/-- Below a group of a catalog lie at most as many names as are recorded. -/
theorem ncard_below_le (catalog : Catalog) (root : String) :
    (catalog.toDirectory.below root).ncard ≤ catalog.recorded.length := by
  have fewer := Set.ncard_le_ncard (catalog.below_subset root) (Finset.finite_toSet _)
  rw [Set.ncard_coe_finset] at fewer
  exact fewer.trans (List.toFinset_card_le _)

end Catalog

end SpnegoRealm.Directory
